import NativeBinding.Proofs.Session.Guarded
import NativeBinding.Proofs.Session.Release

/-! # More values than parameters

A static method and a plain call refuse values that they have no parameters for, and the library is
not entered. The methods that start and release an instance have no parameters at all and do not
look at the values: they enter the library whatever is given, and a release is done.
-/

set_option autoImplicit false

namespace NativeBinding

/-- Only methods of these names and without parameters start or release an instance. -/
structure Trampoline.Lifecycle (t : Trampoline) : Prop where
  init : t.kind = .init → t.name = "Init" ∧ t.params = []
  release : t.kind = .release → t.name = "Release" ∧ t.params = []

namespace Generator

variable {g : Generator} {c : ClassDecl} {m : MethodDecl} {t : Trampoline}

theorem kind_trampolineOf {kind : TrampolineKind} {paramClass returnClass : Option String}
    (h : g.trampolineOf m kind paramClass returnClass = .ok t) : t.kind = kind := by
  obtain ⟨params, -, h⟩ := bind_eq_ok_iff.mp h
  obtain ⟨returnRule, -, hEq⟩ := bind_eq_ok_iff.mp h
  cases hEq
  rfl

theorem lifecycle_trampoline (h : g.trampoline c m = .ok t) : t.Lifecycle := by
  have hOther (hInit : t.kind ≠ .init) (hRelease : t.kind ≠ .release) : t.Lifecycle :=
    ⟨fun hKind => absurd hKind hInit, fun hKind => absurd hKind hRelease⟩
  have hDeclared := declared_trampoline h
  unfold Generator.trampoline at h
  split at h
  · exact hOther (by simp [kind_trampolineOf h]) (by simp [kind_trampolineOf h])
  · split at h
    · exact hOther (by simp [kind_trampolineOf h]) (by simp [kind_trampolineOf h])
    · split at h
      · exact hOther (by simp [kind_trampolineOf h]) (by simp [kind_trampolineOf h])
      · have hKind := kind_trampolineOf h
        have hBare (hEmpty : m.params.isEmpty = true) : t.params = [] := by
          rw [← hDeclared.params, List.isEmpty_map, List.isEmpty_iff] at hEmpty
          exact hEmpty
        split at hKind
        · rename_i hInit
          simp only [Bool.and_eq_true, beq_iff_eq] at hInit
          exact ⟨fun _ => ⟨hDeclared.name.trans hInit.1, hBare hInit.2⟩, by simp [hKind]⟩
        · split at hKind
          · rename_i hRelease
            simp only [Bool.and_eq_true, beq_iff_eq] at hRelease
            exact ⟨by simp [hKind], fun _ => ⟨hDeclared.name.trans hRelease.1, hBare hRelease.2⟩⟩
          · exact hOther (by simp [hKind]) (by simp [hKind])

theorem lifecycle_of_generate {b : ClassBinding} (h : g.generate c = .ok b) :
    ∀ t ∈ b.methods, t.Lifecycle := by
  refine generate_induct (fun b => ∀ t ∈ b.methods, t.Lifecycle)
    (fun _ ht => absurd ht List.not_mem_nil) (fun b m part hb hMember => ?_)
    (fun b m obstacle hb => hb) (fun b hb => hb) h
  unfold member at hMember
  split at hMember
  · split at hMember
    · cases hMember
      exact hb
    · obtain ⟨slot, -, rfl⟩ := map_eq_ok_iff.mp hMember
      exact hb
  · obtain ⟨t, hMade, rfl⟩ := map_eq_ok_iff.mp hMember
    split
    · exact hb
    · exact List.forall_mem_append.mpr
        ⟨hb, List.forall_mem_singleton.mpr (lifecycle_trampoline hMade)⟩

end Generator

namespace Session

variable {σ α β : Type} {host : Host σ} {dispatch : Dispatcher σ} {s s' : State σ} {api : Nat}
  {a : Api} {t : Trampoline} {method : String} {args : List Value}

theorem Move.released (hMove : Move s s') (h : s.objects.Released api) :
    s'.objects.Released api := by
  cases hMove with
  | aside hObjects _ => exact hObjects ▸ h
  | addApi binding => exact Registry.released_addApi_iff.mpr h
  | register handler accepted native _ _ _ =>
    cases accepted with
    | true => exact Registry.released_accept_iff.mpr h
    | false => exact h
  | release hApi _ => exact (Registry.released_close_iff hApi).mpr (.inr h)
  | event | addSpi | addHandler | letGo | enter | begin => exact h

theorem Moves.released (hMoves : Moves s s') (h : s.objects.Released api) :
    s'.objects.Released api := by
  induction hMoves with
  | refl => exact h
  | tail _ hMove ih => exact hMove.released ih

theorem moves_follow (h : SteadyDispatcher dispatch) (api : Nat) (run : NativeRun σ)
    (s : State σ) : Moves s ((run.follow dispatch api).run s).2 := by
  obtain ⟨host, hDispatch⟩ := h
  exact (evolving_follow hDispatch api run s).moves

theorem state_callThen (action : CallM σ α) (value : β) (s : State σ) :
    ((action >>= fun _ => pure value).run.run s).2 = (action.run.run s).2 := by
  cases h : action.run.run s with
  | mk result t =>
    cases result with
    | ok a =>
      rw [run_callBind_ok h]
      rfl
    | error e => rw [run_callBind_error h]

theorem state_orFault (method : String) (reply : Except NativeFault α) (s : State σ) :
    ((orFault method reply : CallM σ α).run.run s).2 = s := by
  cases reply <;> rfl

theorem nativeArguments_of_surplus {m : Marshaler} {className method : String}
    {params : List ParamBinding} (hMore : params.length < args.length) :
    nativeArguments m className method params args =
      .error (.arity s!"{className}::{method}" params.length args.length) :=
  if_pos hMore

namespace Host

theorem runStatic_of_surplus {c : ClassBinding} (hMore : t.params.length < args.length) :
    (host.runStatic c t args).run.run s =
      (.error (.arity s!"{c.className}::{t.name}" t.params.length args.length), s) := by
  rw [runStatic, nativeArguments_of_surplus hMore]
  rfl

theorem moves_init (hDispatch : SteadyDispatcher dispatch) (hApi : s.objects.apis[api]? = some a)
    (hLive : a.released = false) :
    Moves (s.logged (.entered (.init api))) ((host.init dispatch api).run.run s).2 := by
  rw [init, run_callBind_ok (run_requireInstance_some hApi),
    run_callBind_ok (run_requireLive_live hLive), run_callBind_ok (run_callLift _ s)]
  rw [state_callThen, state_orFault]
  exact moves_follow hDispatch api _ _

theorem moves_release (hDispatch : SteadyDispatcher dispatch)
    (hApi : s.objects.apis[api]? = some a) (hLive : a.released = false) :
    Moves ((s.withObjects (s.objects.close api)).logged (.entered (.release api)))
      ((host.release dispatch api).run.run s).2 := by
  rw [release, run_callBind_ok (run_requireInstance_some hApi), if_neg (by simp [hLive]),
    run_callBind_ok (run_callLift _ s),
    run_callBind_ok (run_callLift _ _), state_callThen, state_orFault]
  exact moves_follow hDispatch api _ _

end Host

/-- What a live instance does with more values than a method has parameters. -/
structure Surplus (host : Host σ) (dispatch : Dispatcher σ) (s : State σ) (api : Nat) (a : Api)
    (method : String) (t : Trampoline) (args : List Value) : Prop where
  refused : t.kind = .static ∨ t.kind = .constructor ∨ t.kind = .call →
    (host.invoke dispatch api method args).run.run s =
      (.error (.arity s!"{a.binding.className}::{method}" t.params.length args.length), s)
  registration : ∀ name, t.kind = .register name →
    (host.invoke dispatch api method args).run.run s = (.error (.wrongKind method), s)
  /-- No value is looked at. -/
  init : t.kind = .init → t.params = [] ∧
    (host.invoke dispatch api method args).run.run s =
      (host.invoke dispatch api method []).run.run s ∧
    s.log ++ [.entered (.init api)] <+: ((host.invoke dispatch api method args).run.run s).2.log
  release : t.kind = .release → t.params = [] ∧
    (host.invoke dispatch api method args).run.run s =
      (host.invoke dispatch api method []).run.run s ∧
    s.log ++ [.entered (.release api)] <+:
      ((host.invoke dispatch api method args).run.run s).2.log ∧
    ((host.invoke dispatch api method args).run.run s).2.objects.Released api

section Invoke

variable (hApi : s.objects.apis[api]? = some a) (hMethod : a.binding.method? method = some t)

include hApi hMethod

theorem run_invoke_init (hKind : t.kind = .init) (values : List Value) :
    (host.invoke dispatch api method values).run.run s =
      (host.init dispatch api >>= fun _ => pure Value.null).run.run s := by
  rw [Host.invoke, run_callBind_ok (run_requireInstance_some hApi)]
  simp only [hMethod, hKind]

theorem run_invoke_release (hKind : t.kind = .release) (values : List Value) :
    (host.invoke dispatch api method values).run.run s =
      (host.release dispatch api >>= fun _ => pure Value.null).run.run s := by
  rw [Host.invoke, run_callBind_ok (run_requireInstance_some hApi)]
  simp only [hMethod, hKind]

theorem run_invoke_of_surplus (hLive : a.released = false)
    (hMore : t.params.length < args.length)
    (hKind : t.kind = .static ∨ t.kind = .constructor ∨ t.kind = .call) :
    (host.invoke dispatch api method args).run.run s =
      (.error (.arity s!"{a.binding.className}::{method}" t.params.length args.length), s) := by
  obtain rfl : t.name = method := by simpa using List.find?_some hMethod
  rw [Host.invoke, run_callBind_ok (run_requireInstance_some hApi)]
  obtain hKind | hKind | hKind := hKind
  · simp only [hMethod, hKind]
    exact Host.runStatic_of_surplus hMore
  · simp only [hMethod, hKind]
    exact Host.runStatic_of_surplus hMore
  · simp only [hMethod, hKind]
    rw [run_callBind_ok (run_requireLive_live hLive), nativeArguments_of_surplus hMore]
    rfl

theorem surplus_of_method (hLive : a.released = false) (hLifecycle : t.Lifecycle)
    (hMore : t.params.length < args.length) (hDispatch : SteadyDispatcher dispatch) :
    Surplus host dispatch s api a method t args where
  refused := run_invoke_of_surplus hApi hMethod hLive hMore
  registration name hKind := by
    rw [Host.invoke, run_callBind_ok (run_requireInstance_some hApi)]
    simp only [hMethod, hKind]
    rfl
  init hKind := by
    have hRun (values : List Value) : (host.invoke dispatch api method values).run.run s = _ :=
      run_invoke_init hApi hMethod hKind values
    refine ⟨(hLifecycle.init hKind).2, (hRun args).trans (hRun []).symm, ?_⟩
    rw [hRun, state_callThen]
    have hMoves : Moves _ ((host.init dispatch api).run.run s).2 :=
      Host.moves_init hDispatch hApi hLive
    exact hMoves.log_prefix
  release hKind := by
    have hRun (values : List Value) : (host.invoke dispatch api method values).run.run s = _ :=
      run_invoke_release hApi hMethod hKind values
    refine ⟨(hLifecycle.release hKind).2, (hRun args).trans (hRun []).symm, ?_⟩
    rw [hRun, state_callThen]
    have hMoves : Moves _ ((host.release dispatch api).run.run s).2 :=
      Host.moves_release hDispatch hApi hLive
    have hLog := hMoves.log_prefix
    refine ⟨hLog, hMoves.released ?_⟩
    exact (Registry.released_close_iff hApi).mpr (.inl rfl)

end Invoke

/-- Instances of generated classes refuse surplus values, but for the methods that start and release
them: these do what they do without any value. -/
theorem surplus_arguments {model : Model} {options : GeneratorOptions} {m : Module}
    (hModel : model.Accepted) (hGenerated : Module.generate model options = .ok m)
    (hLoad : LoadedModule.load m model = .ok host.loaded) (hVisited : Visited host s)
    (hApi : s.objects.apis[api]? = some a) (hLive : a.released = false)
    (hMethod : a.binding.method? method = some t) (hMore : t.params.length < args.length)
    (hDispatch : dispatch = host.dispatch ∨ dispatch = dispatchInside host.loaded.marshaler) :
    Surplus host dispatch s api a method t args := by
  obtain ⟨l, hLoaded, rfl, hCarries⟩ := LoadedModule.load_of_generate hModel hGenerated
  cases hLoad.symm.trans hLoaded
  have hBound : a.binding ∈ host.loaded.bindings.classes := (hVisited.genuine hCarries).api hApi
  obtain ⟨g, classes, -, hClasses, hPerm, -⟩ := Module.generate_eq_ok hGenerated
  obtain ⟨c, -, hMade⟩ := exists_of_mem_mapM hClasses (hPerm.mem_iff.mp hBound)
  have hLifecycle : t.Lifecycle :=
    Generator.lifecycle_of_generate hMade t (List.mem_of_find?_eq_some hMethod)
  refine surplus_of_method hApi hMethod hLive hLifecycle hMore ?_
  obtain rfl | rfl := hDispatch
  · exact Host.steady_dispatch
  · exact steady_dispatchInside

def sampleCounter : Model where
  library := { name := "counter" }
  classes :=
    [{ name := "Api"
       methods :=
         [{ name := "Create", returnType := .object "Api", isStatic := true },
           { name := "Release", isVirtual := true },
           { name := "Send", params := [⟨"count", .scalar .i32, none⟩] }] }]

def sampleCounterOptions : GeneratorOptions :=
  { moduleName := some "counter" }

def sampleCounterBindings : Module where
  name := "counter"
  library := { name := "counter" }
  modelFingerprint := sampleCounter.fingerprint
  records := []
  classes :=
    [.rendered
      { className := "Api"
        exposedName := "Api"
        isInterface := false
        constructors := [⟨"Create", .constructor, [], .object "Api", .object "Api"⟩]
        methods :=
          [⟨"Release", .release, [], .void, .nothing⟩,
            ⟨"Send", .call, [⟨"count", .scalar .i32, .direct .i32, none⟩], .void, .nothing⟩] }]
  constants := []

theorem sampleCounter_accepted : sampleCounter.Accepted :=
  have hNew : Model.new sampleCounter.library sampleCounter.structs sampleCounter.classes =
      .ok sampleCounter := rfl
  .new hNew

theorem generate_sampleCounter :
    Module.generate sampleCounter sampleCounterOptions = .ok sampleCounterBindings := by
  rw [Module.generate_of_accepted sampleCounter_accepted]
  rfl

def sampleCounterHost (marshaler : Marshaler) : Host Rehearsal :=
  ⟨⟨sampleCounterBindings, marshaler⟩, Rehearsal.library⟩

def sampleCounterOpened (marshaler : Marshaler) : State Rehearsal :=
  ((Operation.construct "api" "Api" "Create" []).perform (sampleCounterHost marshaler)
    |>.run { native := {} }).2

theorem sampleCounter_opened :
    ∃ marshaler, LoadedModule.load sampleCounterBindings sampleCounter =
        .ok (sampleCounterHost marshaler).loaded ∧
      Visited (sampleCounterHost marshaler) (sampleCounterOpened marshaler) := by
  obtain ⟨⟨_, marshaler⟩, hLoad, rfl, -⟩ :=
    LoadedModule.load_of_generate sampleCounter_accepted generate_sampleCounter
  exact ⟨marshaler, hLoad, (Visited.start _).operate _⟩

theorem surplus_arguments_sample :
    ∃ (host : Host Rehearsal) (s : State Rehearsal) (a : Api) (t : Trampoline),
      (LoadedModule.load sampleCounterBindings sampleCounter = .ok host.loaded ∧ Visited host s ∧
        s.objects.apis[0]? = some a ∧ a.released = false ∧
        a.binding.method? "Send" = some t ∧ t.params.length < 2) ∧
      (host.invoke host.dispatch 0 "Send" [.int 1, .int 2]).run.run s =
        (.error (.arity "Api::Send" 1 2), s) := by
  obtain ⟨marshaler, hLoad, hVisited⟩ := sampleCounter_opened
  have hApi : (sampleCounterOpened marshaler).objects.apis[0]? =
      some { binding := sampleCounterBindings.classes[0] } := rfl
  have hMethod : sampleCounterBindings.classes[0].method? "Send" =
      some sampleCounterBindings.classes[0].methods[1] := rfl
  have hMore : sampleCounterBindings.classes[0].methods[1].params.length <
      [Value.int 1, Value.int 2].length := by decide
  have hSurplus : Surplus (sampleCounterHost marshaler) _ _ _ _ _ _ _ :=
    surplus_arguments sampleCounter_accepted generate_sampleCounter hLoad hVisited hApi rfl hMethod hMore
      (.inl rfl)
  exact ⟨_, _, _, _, ⟨hLoad, hVisited, hApi, rfl, hMethod, hMore⟩,
    hSurplus.refused (.inr (.inr rfl))⟩

/-- A value that `Release` has no parameter for is not refused, and the instance is gone. -/
theorem surplus_release_counterexample :
    ∃ (host : Host Rehearsal) (s : State Rehearsal) (a : Api) (t : Trampoline),
      (LoadedModule.load sampleCounterBindings sampleCounter = .ok host.loaded ∧ Visited host s ∧
        s.objects.apis[0]? = some a ∧ a.released = false ∧
        a.binding.method? "Release" = some t ∧ t.params.length < 1) ∧
      ((host.invoke host.dispatch 0 "Release" [.int 1]).run.run s).1 = .ok .null ∧
      ((host.invoke host.dispatch 0 "Release" [.int 1]).run.run s).2.entries =
        s.entries ++ [.release 0] ∧
      ((host.invoke host.dispatch 0 "Release" [.int 1]).run.run s).2.objects.Released 0 := by
  obtain ⟨marshaler, hLoad, hVisited⟩ := sampleCounter_opened
  exact ⟨_, _, _, _, ⟨hLoad, hVisited, rfl, rfl, rfl, by decide⟩, rfl, rfl, _, rfl, rfl⟩

end Session

end NativeBinding
