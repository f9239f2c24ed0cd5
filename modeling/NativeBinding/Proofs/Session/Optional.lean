import NativeBinding.Proofs.Binding.Slots
import NativeBinding.Proofs.Session.Answered

/-! # Optional hooks

A handler need not implement the hooks of its interface. A hook that the generator kept is then
answered by the default of its declared type, and nothing else happens. A hook that was left out of
the binding is unknown to the bridge, although the interface declares it, and a callback for it is
recorded as a fault.
-/

set_option autoImplicit false

namespace NativeBinding.Session

variable {σ : Type} {host : Host σ} {s : State σ} {bridge : Nat} {b : Bridge}

section Dispatch

variable {hook : String} {slot : OverrideSlot}

theorem dispatch_of_unknown (hBridge : s.objects.bridges[bridge]? = some b)
    (hUnknown : b.binding.slot? hook = none) (args : List NativeArg) :
    (host.dispatch bridge hook args).run s = (.void, s.logged (.faulted
      ⟨bridge, b.binding.className, hook, .unknownHook b.binding.className hook⟩)) := by
  have hTries : (host.tryDispatch bridge b hook args).run s =
      (.error (.unknownHook b.binding.className hook), s) :=
    run_tryDispatchWith_error (admission_of_unknown hUnknown _ _)
  have hAnswer : defaultAnswer b hook = .void := by rw [defaultAnswer, hUnknown]
  rw [← hAnswer]
  exact run_dispatchWith hBridge hTries

theorem dispatch_of_unimplemented (hBridge : s.objects.Live bridge b) (hOutside : s.Outside)
    {handler : Handler} (hHandler : s.handler? b.handler = some handler)
    (hSlot : b.binding.slot? hook = some slot) (hNot : b.overridden.contains hook = false)
    (args : List NativeArg) :
    (host.dispatch bridge hook args).run s = (Marshaler.defaultNative slot.returnType, s) := by
  obtain ⟨-, rfl⟩ := ClassBinding.slot?_eq_some hSlot
  have hTries := host.tries hBridge.1 hSlot args
  generalize hRun : (host.tryDispatch bridge b slot.name args).run s = run at hTries
  obtain ⟨result, t⟩ := run
  refine (run_dispatchWith hBridge.1 hRun).trans ?_
  cases hTries with
  | released hReleased => cases hReleased.symm.trans hBridge.2
  | reentrant _ hInside => cases hInside.symm.trans hOutside
  | unread _ _ hOverridden | ran _ _ _ hOverridden => cases hOverridden.symm.trans hNot
  | stale _ _ hGone => cases hGone.symm.trans hHandler
  | unimplemented => rfl

end Dispatch

/-- What a callback does, for a hook of the interface of a bridge whose handler implements
nothing. -/
structure Unattended (g : Generator) (host : Host σ) (s : State σ) (bridge : Nat) (b : Bridge)
    (c : ClassDecl) (hook : MethodDecl) : Prop where
  /-- A hook that was left out is answered as one of type `void`, whatever it returns. -/
  answers : ∀ args, host.loaded.marshaler.Answers hook.returnType
    ((host.dispatch bridge hook.name args).run s).1 ↔ g.Keeps c hook ∨ hook.returnType = .void
  /-- The answer to a callback that waits until the host has let go. -/
  overlapped : g.Keeps c hook → ∀ {api}, host.library.sink? s.native api = some bridge →
    ∀ args releases, ∃ released answer,
      ((host.overlap api hook.name args releases).run s).1 = some (released, answer) ∧
        host.loaded.marshaler.Answers hook.returnType answer
  /-- From outside, as long as there is the handler, nothing runs and nothing is recorded. -/
  quiet : g.Keeps c hook → s.Outside → s.isAlive b.handler = true → ∀ args,
    (host.dispatch bridge hook.name args).run s = (Marshaler.defaultNative hook.returnType, s)
  leftOut : ¬ g.Keeps c hook → ∀ args, (host.dispatch bridge hook.name args).run s =
    (.void, s.logged (.faulted ⟨bridge, c.name, hook.name, .unknownHook c.name hook.name⟩))
  inside : s.inside = true → ∀ args,
    (dispatchInside host.loaded.marshaler bridge hook.name args).run s =
      (host.dispatch bridge hook.name args).run s

theorem Arises.unattended (h : Arises host s) (hLoaded : host.loaded.Carries)
    (hBridge : s.objects.Live bridge b) {handler : Handler}
    (hHandler : s.objects.object? b.handler = some handler)
    (hNone : ∀ name, handler.implements name = false) {g : Generator} {c : ClassDecl}
    (hGenerated : g.generate c = .ok b.binding) (hInterface : c.isInterface = true)
    {hook : MethodDecl} (hHook : hook ∈ g.model.allMethods c)
    (hOverridable : hook.isOverridable = true) : Unattended g host s bridge b c hook := by
  have hSlot (hKeeps : g.Keeps c hook) :
      ∃ slot, b.binding.slot? hook.name = some slot ∧ slot.returnType = hook.returnType :=
    Generator.slot?_of_keeps hGenerated hInterface hHook hOverridable hKeeps
  have hUnknown (hLeftOut : ¬ g.Keeps c hook) : b.binding.slot? hook.name = none :=
    Generator.slot?_of_not_keeps hGenerated hInterface hHook hOverridable hLeftOut
  have hName : b.binding.className = c.name := (Generator.names_of_generate hGenerated).1
  have hKept (hKeeps : g.Keeps c hook) (args : List NativeArg) :
      host.loaded.marshaler.Answers hook.returnType
        ((host.dispatch bridge hook.name args).run s).1 := by
    obtain ⟨slot, hSlot, hReturn⟩ := hSlot hKeeps
    exact hReturn ▸ (h.handled hLoaded hBridge.1 hSlot args).answers
  refine
    { answers := fun args => ⟨fun hAnswers => ?_, ?_⟩
      overlapped := fun hKeeps _ hSink args => ?_
      quiet := fun hKeeps hOutside hAlive args => ?_
      leftOut := fun hLeftOut args => ?_
      inside := fun hInside args => dispatchInside_eq_dispatch hBridge.1 hInside }
  · refine or_iff_not_imp_left.mpr fun hLeftOut => ?_
    rw [dispatch_of_unknown hBridge.1 (hUnknown hLeftOut)] at hAnswers
    exact hAnswers.eq_void
  · rintro (hKeeps | hVoid)
    · exact hKept hKeeps args
    · rcases Classical.em (g.Keeps c hook) with hKeeps | hLeftOut
      · exact hKept hKeeps args
      · rw [dispatch_of_unknown hBridge.1 (hUnknown hLeftOut), hVoid]
        exact Marshaler.answers_void
  · obtain ⟨slot, hSlot, hReturn⟩ := hSlot hKeeps
    exact hReturn ▸ (h.handled hLoaded hBridge.1 hSlot args).overlapped hSink
  · obtain ⟨slot, hSlot, hReturn⟩ := hSlot hKeeps
    -- A handler without methods overrides nothing, so the arguments are not even read.
    obtain ⟨object, hObject, hOverridden⟩ := h.faithful.wired b (List.mem_of_getElem? hBridge.1)
    cases hObject.symm.trans hHandler
    have hNot : b.overridden.contains hook.name = false := by
      rw [hOverridden, ← Bool.not_eq_true, contains_implementedHooks_iff]
      simp [hNone]
    have hThere : s.handler? b.handler = some handler := by
      rw [State.handler?, hAlive, if_pos rfl]
      exact hHandler
    exact hReturn ▸ dispatch_of_unimplemented hBridge hOutside hThere hSlot hNot args
  · rw [dispatch_of_unknown hBridge.1 (hUnknown hLeftOut), hName]

/-- The hooks of an interface are optional, as far as they were kept. -/
theorem generated_unattended {model : Model} {options : GeneratorOptions} {m : Module}
    (hModel : model.Accepted) (h : Module.generate model options = .ok m) :
    ∃ g l, Generator.new model options = .ok g ∧ LoadedModule.load m model = .ok l ∧
      l.bindings = m ∧ ∀ (σ : Type) (host : Host σ), host.loaded = l → ∀ s, Arises host s →
        ∀ bridge b, s.objects.Live bridge b →
        ∀ handler, s.objects.object? b.handler = some handler →
          (∀ name, handler.implements name = false) →
        ∀ c ∈ model.classes, c.name = b.binding.className → c.isInterface = true →
        ∀ hook ∈ model.allMethods c, hook.isOverridable = true →
          Unattended g host s bridge b c hook := by
  obtain ⟨l, hLoad, rfl, hCarries⟩ := LoadedModule.load_of_generate hModel h
  obtain ⟨g, hNew, -⟩ := Module.lawful_of_generate h
  obtain ⟨rfl, -⟩ := Module.model_of_generator hNew
  refine ⟨g, l, hNew, hLoad, rfl, fun σ host hHost s hArises bridge b hBridge handler hHandler hNone
    c hc hName hInterface hook hHook hOverridable => ?_⟩
  subst hHost
  have hBound : b.binding ∈ host.loaded.bindings.classes :=
    hArises.faithful.binding (List.mem_of_getElem? hBridge.1)
  exact hArises.unattended hCarries hBridge hHandler hNone
    (Module.generate_of_className hModel h hNew hBound hc hName) hInterface hHook hOverridable

def sampleCount : MethodDecl :=
  { name := "OnCount", returnType := .scalar .i32, isVirtual := true }

/-- A hook whose parameter cannot be carried. -/
def sampleQuery : MethodDecl :=
  { name := "OnQuery"
    params := [⟨"data", .unsupported "void *", none⟩]
    returnType := .scalar .i32
    isVirtual := true }

def sampleInterface : ClassDecl :=
  { name := "Spi", methods := [sampleCount, sampleQuery], isInterface := true }

def sampleDesk : Model where
  library := { name := "desk" }
  classes :=
    [sampleInterface,
      { name := "Api"
        methods :=
          [{ name := "Create", returnType := .object "Api", isStatic := true },
            { name := "RegisterSpi", params := [⟨"spi", .object "Spi", none⟩] }] }]

def sampleDeskOptions : GeneratorOptions :=
  { moduleName := some "desk", ignoreUnsupported := true }

def sampleDeskBindings : Module :=
  { name := "desk"
    library := { name := "desk" }
    modelFingerprint := sampleDesk.fingerprint
    records := []
    classes :=
      [.rendered
        { className := "Spi"
          exposedName := "Spi"
          isInterface := true
          overrides := [⟨"OnCount", [], .scalar .i32, .direct .i32, false⟩]
          skipped := [⟨"OnQuery", "unsupported type unsupported(void *)"⟩] },
        .rendered
          { className := "Api"
            exposedName := "Api"
            isInterface := false
            constructors := [⟨"Create", .constructor, [], .object "Api", .object "Api"⟩]
            methods :=
              [⟨"RegisterSpi", .register "Spi", [⟨"spi", .object "Spi", .object "Spi", none⟩],
                .void, .nothing⟩] }]
    constants := [] }

theorem sampleDesk_accepted : sampleDesk.Accepted :=
  have hNew : Model.new sampleDesk.library sampleDesk.structs sampleDesk.classes =
    .ok sampleDesk := rfl
  .new hNew

theorem generate_sampleDesk :
    Module.generate sampleDesk sampleDeskOptions = .ok sampleDeskBindings := by
  rw [Module.generate_of_accepted sampleDesk_accepted]
  rfl

def sampleDeskHost : Host Rehearsal :=
  ⟨⟨sampleDeskBindings, ⟨sampleDesk, {}⟩⟩, Rehearsal.library⟩

theorem load_sampleDesk :
    LoadedModule.load sampleDeskBindings sampleDesk = .ok sampleDeskHost.loaded := by
  have hMarshaler : Marshaler.new sampleDesk = .ok ⟨sampleDesk, {}⟩ := rfl
  simp [LoadedModule.load, hMarshaler, sampleDeskHost, sampleDeskBindings]
  rfl

def sampleDeskRegistered : State Rehearsal :=
  sampleSession sampleDeskHost ⟨"Listener", []⟩

theorem sampleDeskRegistered_arises : Arises sampleDeskHost sampleDeskRegistered :=
  sampleSession_arises sampleDeskHost ⟨"Listener", []⟩

theorem generated_unattended_sample :
    sampleDesk.Accepted ∧ Module.generate sampleDesk sampleDeskOptions = .ok sampleDeskBindings ∧
      ∃ g, Generator.new sampleDesk sampleDeskOptions = .ok g ∧
        g.Keeps sampleInterface sampleCount ∧ ¬ g.Keeps sampleInterface sampleQuery ∧
        ∃ b, sampleDeskRegistered.objects.Live 0 b ∧
          Unattended g sampleDeskHost sampleDeskRegistered 0 b sampleInterface sampleCount ∧
          Unattended g sampleDeskHost sampleDeskRegistered 0 b sampleInterface sampleQuery := by
  obtain ⟨g, l, hNew, hLoad, -, hUnattended⟩ :=
    generated_unattended sampleDesk_accepted generate_sampleDesk
  cases hLoad.symm.trans load_sampleDesk
  obtain ⟨b, hBridge, hHandler, hName⟩ : ∃ b, sampleDeskRegistered.objects.Live 0 b ∧
      sampleDeskRegistered.objects.object? b.handler = some ⟨"Listener", []⟩ ∧
      sampleInterface.name = b.binding.className :=
    ⟨_, ⟨rfl, rfl⟩, rfl, rfl⟩
  have hHooks : sampleDesk.allMethods sampleInterface = [sampleCount, sampleQuery] := rfl
  have hDesk := hUnattended _ sampleDeskHost rfl _ sampleDeskRegistered_arises 0 b hBridge _
    hHandler (fun _ => rfl) sampleInterface List.mem_cons_self hName rfl
  refine ⟨sampleDesk_accepted, generate_sampleDesk, g, hNew, ?_, fun hKeeps => ?_, b, hBridge,
    hDesk sampleCount (hHooks ▸ List.mem_cons_self) rfl,
    hDesk sampleQuery (hHooks ▸ List.mem_cons_of_mem _ List.mem_cons_self) rfl⟩
  · cases hNew
    refine ⟨rfl, rfl, fun type hType => ?_⟩
    rw [List.mem_singleton.mp hType]
    exact ⟨⟨.direct .i32, rfl, nofun⟩, nofun⟩
  · obtain ⟨⟨rule, hCarries⟩, -⟩ := hKeeps.carried (.unsupported "void *")
      (List.mem_cons_of_mem _ List.mem_cons_self)
    cases hCarries.selected

/-- A callback is a fault for a hook that the interface declares and the generator left out, and it
is answered by no value of the hook's type. So is one for a kept hook while scripting code runs. -/
theorem unattended_faulted_sample :
    sampleDesk.Accepted ∧ Module.generate sampleDesk sampleDeskOptions = .ok sampleDeskBindings ∧
      LoadedModule.load sampleDeskBindings sampleDesk = .ok sampleDeskHost.loaded ∧
      Arises sampleDeskHost sampleDeskRegistered ∧ sampleDeskRegistered.Outside ∧
      (∃ b, sampleDeskRegistered.objects.Live 0 b ∧
        sampleDeskRegistered.handler? b.handler = some ⟨"Listener", []⟩ ∧
        b.binding.className = sampleInterface.name) ∧
      sampleInterface ∈ sampleDesk.classes ∧ sampleInterface.isInterface = true ∧
      sampleQuery ∈ sampleDesk.allMethods sampleInterface ∧ sampleQuery.isOverridable = true ∧
      (sampleDeskHost.dispatch 0 "OnQuery" [.null]).run sampleDeskRegistered =
        (.void, sampleDeskRegistered.logged
          (.faulted ⟨0, "Spi", "OnQuery", .unknownHook "Spi" "OnQuery"⟩)) ∧
      ¬ sampleDeskHost.loaded.marshaler.Conforms sampleQuery.returnType .void ∧
      Arises sampleDeskHost (sampleDeskRegistered.begun .host none) ∧
      (sampleDeskHost.dispatch 0 "OnCount" []).run (sampleDeskRegistered.begun .host none) =
        (.scalar (.i32 0), (sampleDeskRegistered.begun .host none).logged
          (.faulted ⟨0, "Spi", "OnCount", .reentrantDispatch "OnCount"⟩)) := by
  have hHooks : sampleDesk.allMethods sampleInterface = [sampleCount, sampleQuery] := rfl
  have hBegun : Arises sampleDeskHost (sampleDeskRegistered.begun .host none) :=
    sampleDeskRegistered_arises.begin none rfl trivial
  refine ⟨sampleDesk_accepted, generate_sampleDesk, load_sampleDesk, sampleDeskRegistered_arises,
    rfl, ⟨_, ⟨rfl, rfl⟩, rfl, rfl⟩, List.mem_cons_self, rfl,
    hHooks ▸ List.mem_cons_of_mem _ List.mem_cons_self, rfl, ?_, ?_, hBegun, rfl⟩
  · exact dispatch_of_unknown (b := sampleDeskRegistered.objects.bridges[0]) rfl rfl [.null]
  · intro hVoid
    cases hVoid

end NativeBinding.Session
