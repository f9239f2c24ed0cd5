import NativeBinding.Proofs.Session.Genuine
import NativeBinding.Proofs.Session.OneThread

/-! # Bridges and the handlers behind them

A bridge belongs to a class of the module, and the hooks that it takes for overridden are the ones
that its handler implements. Both are settled when the bridge is opened; no bridge is ever rewired,
and no handler changes its methods.
-/

set_option autoImplicit false

namespace NativeBinding.Session

theorem ClassBinding.slot?_eq_some {c : ClassBinding} {hook : String} {slot : OverrideSlot}
    (h : c.slot? hook = some slot) : slot ∈ c.overrides ∧ slot.name = hook :=
  ⟨List.mem_of_find?_eq_some h, by simpa using List.find?_some h⟩

theorem contains_implementedHooks_iff {c : ClassBinding} {handler : Handler} {hook : String} :
    (implementedHooks c handler).contains hook = true ↔
      (∃ slot ∈ c.overrides, slot.name = hook) ∧ handler.implements hook = true := by
  simp [implementedHooks, List.mem_eraseDups]

namespace Registry

variable {r : Registry} {classes : List ClassBinding}

/-- The object of a handler, also of one that nothing holds any more. -/
def object? (r : Registry) (handler : Nat) : Option Handler :=
  (r.handlers[handler]?).map (·.handler)

/-- The bridge overrides what its handler implements. -/
def Wired (r : Registry) (b : Bridge) : Prop :=
  ∃ h, r.object? b.handler = some h ∧ b.overridden = implementedHooks b.binding h

structure Faithful (r : Registry) (classes : List ClassBinding) : Prop where
  bound : ∀ c ∈ r.bindings, c ∈ classes
  wired : ∀ b ∈ r.bridges, r.Wired b

theorem Faithful.binding (h : r.Faithful classes) {b : Bridge} (hb : b ∈ r.bridges) :
    b.binding ∈ classes :=
  h.bound _ (List.mem_append_right _ (List.mem_map_of_mem hb))

theorem mem_bridges_retireAny {retired : Option Nat} {b : Bridge}
    (h : b ∈ (r.retireAny retired).bridges) :
    ∃ old ∈ r.bridges, b = old ∨ b = { old with released := true } := by
  cases retired with
  | none => exact ⟨b, h, .inl rfl⟩
  | some retired =>
    obtain ⟨i, hGet⟩ := List.mem_iff_getElem?.mp h
    obtain ⟨old, hOld, rfl⟩ := getElem?_modify_eq_some.mp hGet
    refine ⟨old, List.mem_of_getElem? hOld, ?_⟩
    split
    · exact .inr rfl
    · exact .inl rfl

@[simp] theorem handlers_retireAny (r : Registry) (retired : Option Nat) :
    (r.retireAny retired).handlers = r.handlers := by
  cases retired <;> rfl

theorem Faithful.rearranged (h : r.Faithful classes) {r' : Registry}
    (hBindings : ∀ c ∈ r'.bindings, c ∈ classes)
    (hObjects : ∀ {handler object}, r.object? handler = some object →
      r'.object? handler = some object)
    (hBridges : ∀ b ∈ r'.bridges, ∃ old ∈ r.bridges,
      b = old ∨ b = { old with released := true }) : r'.Faithful classes where
  bound := hBindings
  wired b hb := by
    obtain ⟨old, hOld, hSame⟩ := hBridges b hb
    obtain ⟨object, hObject, hOverridden⟩ := h.wired old hOld
    rcases hSame with rfl | rfl <;> exact ⟨object, hObjects hObject, hOverridden⟩

theorem Faithful.retireAny (h : r.Faithful classes) (retired : Option Nat) :
    (r.retireAny retired).Faithful classes := by
  refine h.rearranged (by simpa using h.bound) (fun hObject => ?_) fun b => mem_bridges_retireAny
  rwa [object?, handlers_retireAny]

theorem Faithful.rebound (h : r.Faithful classes) {r' : Registry}
    (hBindings : ∀ c ∈ r'.bindings, c ∈ classes) (hBridges : r'.bridges = r.bridges)
    (hHandlers : r'.handlers = r.handlers) : r'.Faithful classes := by
  refine h.rearranged hBindings (fun hObject => ?_) fun b hb => ⟨b, hBridges ▸ hb, .inl rfl⟩
  rwa [object?, hHandlers]

theorem Faithful.openBridge (h : r.Faithful classes) (api spi : Nat) {p : Spi} {handler : Handler}
    (hBound : p.binding ∈ classes) (hObject : r.object? p.handler = some handler) :
    (r.openBridge api spi p handler).2.Faithful classes where
  bound c hc := by
    rcases r.mem_bindings_openBridge.mp hc with hOld | rfl
    · exact h.bound c hOld
    · exact hBound
  wired b hb := by
    rcases List.mem_append.mp hb with hOld | hNew
    · exact h.wired b hOld
    · rw [List.mem_singleton.mp hNew]
      exact ⟨handler, hObject, rfl⟩

theorem Faithful.modifyApis (h : r.Faithful classes) {f : Api → Api}
    (hBinding : ∀ a, (f a).binding = a.binding) (api : Nat) :
    Faithful { r with apis := r.apis.modify api f } classes :=
  h.rebound (by rw [r.bindings_modifyApis hBinding]; exact h.bound) rfl rfl

theorem Faithful.modifySpis (h : r.Faithful classes) {f : Spi → Spi}
    (hBinding : ∀ p, (f p).binding = p.binding) (spi : Nat) :
    Faithful { r with spis := r.spis.modify spi f } classes :=
  h.rebound (by rw [r.bindings_modifySpis hBinding]; exact h.bound) rfl rfl

theorem Faithful.accept (h : r.Faithful classes) (api spi bridge : Nat) :
    (r.accept api spi bridge).Faithful classes := by
  have hSpis := h.modifySpis (f := fun p => { p with active := some bridge }) (fun _ => rfl) spi
  have hApis := (hSpis.retireAny ((r.spis[spi]?).bind (·.active))).modifyApis
    (f := fun a => { a with bridge := some bridge }) (fun _ => rfl) api
  exact hApis.retireAny _

theorem Faithful.close (h : r.Faithful classes) (api : Nat) : (r.close api).Faithful classes :=
  (h.modifyApis (f := fun a => { a with released := true, bridge := none })
    (fun _ => rfl) api).retireAny _

end Registry

variable {σ : Type} {host : Host σ} {s s' : State σ}

theorem State.object?_of_handler? {number : Nat} {handler : Handler}
    (h : s.handler? number = some handler) : s.objects.object? number = some handler := by
  unfold handler? at h
  split at h
  · exact h
  · cases h

theorem Step.faithful (hStep : Step host s s')
    (h : s.objects.Faithful host.loaded.bindings.classes) :
    s'.objects.Faithful host.loaded.bindings.classes := by
  cases hStep with
  | aside hObjects => exact hObjects ▸ h
  | event | enter => exact h
  | addApi hBinding =>
    refine h.rebound (fun c hc => ?_) rfl rfl
    rcases s.objects.mem_bindings_addApi.mp hc with hOld | rfl
    · exact h.bound c hOld
    · exact hBinding
  | addSpi handler hBinding =>
    refine h.rebound (fun c hc => ?_) rfl rfl
    rcases s.objects.mem_bindings_addSpi.mp hc with hOld | rfl
    · exact h.bound c hOld
    · exact hBinding
  | addHandler handler =>
    refine h.rearranged h.bound (fun hObject => ?_) fun b hb => ⟨b, hb, .inl rfl⟩
    obtain ⟨held, hGet, rfl⟩ := Option.map_eq_some_iff.mp hObject
    exact Option.map_eq_some_iff.mpr ⟨held, getElem?_append_of_eq_some hGet, rfl⟩
  | letGo handler =>
    refine h.rearranged h.bound (fun hObject => ?_) fun b hb => ⟨b, hb, .inl rfl⟩
    obtain ⟨held, hGet, rfl⟩ := Option.map_eq_some_iff.mp hObject
    refine Option.map_eq_some_iff.mpr ⟨_, getElem?_modify_eq_some.mpr ⟨held, hGet, rfl⟩, ?_⟩
    split <;> rfl
  | @register api spi a p handler accepted native hApi hLive hSpi hHandler =>
    have hBound : p.binding ∈ host.loaded.bindings.classes :=
      h.bound _ (List.mem_append_left _ (List.mem_append_right _
        (List.mem_map_of_mem (List.mem_of_getElem? hSpi))))
    have hOpened := h.openBridge api spi hBound (State.object?_of_handler? hHandler)
    cases accepted with
    | true => exact hOpened.accept api spi _
    | false => exact hOpened.retireAny (some _)
  | release => exact h.close _

theorem Arises.faithful (h : Arises host s) :
    s.objects.Faithful host.loaded.bindings.classes := by
  refine h.objects_induct (fun r => r.Faithful host.loaded.bindings.classes) ⟨?_, ?_⟩ Step.faithful
  · exact fun _ hc => nomatch hc
  · exact fun _ hb => nomatch hb

/-- A bridge whose handler is alive overrides a hook of its class if the handler implements it. -/
theorem Registry.Faithful.overrides_iff {classes : List ClassBinding}
    (h : s.objects.Faithful classes) {b : Bridge} (hb : b ∈ s.objects.bridges) {handler : Handler}
    (hHandler : s.handler? b.handler = some handler) {hook : String} {slot : OverrideSlot}
    (hSlot : b.binding.slot? hook = some slot) :
    b.overridden.contains hook = true ↔ handler.implements hook = true := by
  obtain ⟨object, hObject, hOverridden⟩ := h.wired b hb
  cases hObject.symm.trans (State.object?_of_handler? hHandler)
  rw [hOverridden, contains_implementedHooks_iff]
  exact and_iff_right ⟨slot, ClassBinding.slot?_eq_some hSlot⟩

end NativeBinding.Session
