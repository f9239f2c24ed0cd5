import NativeBinding.Proofs.Session.Entering

/-! # Guarded calls

Whatever the class, the method, the state and the values: a call enters the library once and with
conforming arguments for all parameters of its method, or it fails and nothing has happened.
-/

set_option autoImplicit false

namespace NativeBinding.Session

variable {σ α : Type} {host : Host σ} {dispatch : Dispatcher σ} {s : State σ}

section Declared

variable {model : Model} {options : GeneratorOptions} {m : Module} {call : ArgumentCall}
  {c : ClassBinding} {t : Trampoline}

theorem ArgumentCall.Reaches.bound (hGenuine : Genuine host s) (h : call.Reaches host s c t) :
    c ∈ host.loaded.bindings.classes ∧ t ∈ c.trampolines := by
  have hClass {name : String} {c : ClassBinding} (h : host.loaded.apiClass name = .ok c) :
      c ∈ host.loaded.bindings.classes :=
    LoadedModule.class?_mem (LoadedModule.apiClass_eq_ok_iff.mp h).1
  have hConstructor {name : String} {c : ClassBinding} {t : Trampoline}
      (h : c.constructor? name = some t) : t ∈ c.trampolines :=
    List.mem_append_left _ (List.mem_of_find?_eq_some h)
  have hMember {name : String} {c : ClassBinding} {t : Trampoline} (h : c.method? name = some t) :
      t ∈ c.trampolines :=
    List.mem_append_right _ (List.mem_of_find?_eq_some h)
  cases call with
  | construct className constructor => exact ⟨hClass h.1, hConstructor h.2⟩
  | createApi className =>
    obtain ⟨_, _, -, -, hFound, hMethod⟩ := h
    exact ⟨hClass hFound, hConstructor hMethod⟩
  | callStatic className method => exact ⟨hClass h.1, hMember h.2.1⟩
  | invoke api method =>
    obtain ⟨a, hApi, rfl, hMethod, -⟩ := h
    exact ⟨hGenuine.api hApi, hMember hMethod⟩

end Declared

end NativeBinding.Session
