import NativeBinding.Proofs.Layout.Slot
import NativeBinding.Proofs.Module.Assembly
import NativeBinding.Proofs.Session.Blameless
import NativeBinding.Session.Rehearsal

/-! # Sessions of generated modules

What was generated from a model can be loaded with it, and then carries its types: the structs of
its rules are declared, so they are laid out, and handles stand only where none is marshaled. What
was checked when the bindings were generated thus need not be checked when they are used.
-/

set_option autoImplicit false

namespace NativeBinding

namespace Generator

variable {g : Generator} {table : LayoutTable}

/-- A type with a rule is carried by a table of the model's structs, unless it is a handle. -/
theorem Carries.carried (hCovers : table.Covers g.model) {type : TypeRef} {rule : MarshalRule}
    (h : g.Carries type rule) (hNoHandle : ∀ name, type ≠ .object name) :
    Marshaler.Carries ⟨g.model, table⟩ type := by
  cases type with
  | struct name =>
    have hRule : rule = .struct name := (Option.some.inj h.selected).symm
    have hGenerated := h.generated name hRule
    unfold generatesStruct at hGenerated
    obtain ⟨hDeclared, -⟩ := Bool.and_eq_true_iff.mp hGenerated
    obtain ⟨s, hs, rfl⟩ := Model.declaresStruct_iff.mp hDeclared
    exact hCovers.complete s hs
  | object name => exact absurd rfl (hNoHandle name)
  | unsupported spelling => exact nomatch h.selected
  | _ => trivial

theorem carried_of_lawful {b : ClassBinding} (hCovers : table.Covers g.model) (h : b.Lawful g) :
    (∀ t ∈ b.constructors, ∀ p ∈ t.params, Marshaler.Carries ⟨g.model, table⟩ p.type) ∧
    (∀ t ∈ b.methods, (∀ name, t.kind ≠ .register name) →
      (∀ p ∈ t.params, Marshaler.Carries ⟨g.model, table⟩ p.type) ∧
        Marshaler.Carries ⟨g.model, table⟩ t.returnType) ∧
    ∀ s ∈ b.overrides, (∀ p ∈ s.params, Marshaler.Carries ⟨g.model, table⟩ p.type) ∧
      Marshaler.Carries ⟨g.model, table⟩ s.returnType := by
  have hParams {t : Trampoline} (hLawful : t.Lawful g) (hKind : ∀ name, t.kind ≠ .register name) :
      ∀ p ∈ t.params, Marshaler.Carries ⟨g.model, table⟩ p.type := by
    intro p hp
    refine (hLawful.params p hp).carried hCovers fun name hType => ?_
    exact hKind name (hLawful.handleParams p hp name hType).1
  refine ⟨fun t ht => ?_, fun t ht hKind => ?_, fun s hs => ?_⟩
  · obtain ⟨hConstructor, hLawful⟩ := h.constructors t ht
    exact hParams hLawful fun name => by simp [hConstructor]
  · obtain ⟨hNoConstructor, hLawful⟩ := h.methods t ht
    refine ⟨hParams hLawful hKind, hLawful.returned.carried hCovers fun name hType => ?_⟩
    exact hNoConstructor (hLawful.handleReturned name hType)
  · have hLawful := h.overrides s hs
    refine ⟨fun p hp => ?_, ?_⟩
    · exact (hLawful.params p hp).carried hCovers fun name => (hLawful.noHandles name).2 p hp
    · exact hLawful.returned.carried hCovers fun name => (hLawful.noHandles name).1

end Generator

variable {model : Model} {options : GeneratorOptions} {m : Module}

theorem Module.lawful_of_generate (h : Module.generate model options = .ok m) :
    ∃ g, Generator.new model options = .ok g ∧ ∀ b ∈ m.classes, b.Lawful g := by
  obtain ⟨g, classes, hNew, hClasses, hPerm, -⟩ := Module.generate_eq_ok h
  refine ⟨g, hNew, fun b hb => ?_⟩
  obtain ⟨_, -, hGenerated⟩ := exists_of_mem_mapM hClasses (hPerm.mem_iff.mp hb)
  exact Generator.lawful_of_generate hGenerated

namespace Session

theorem LoadedModule.load_of_generate (hModel : model.Accepted)
    (h : Module.generate model options = .ok m) :
    ∃ l, LoadedModule.load m model = .ok l ∧ l.bindings = m ∧ l.Carries := by
  obtain ⟨table, rank, hBuild, hRanked, hCovers⟩ := LayoutTable.build_ranked hModel.structRules
  refine ⟨⟨m, ⟨model, table⟩⟩, ?_, rfl, ?_⟩
  · obtain ⟨_, _, -, -, -, -, hFingerprint⟩ := Module.generate_eq_ok h
    have hMarshaler : Marshaler.new model = .ok ⟨model, table⟩ := by rw [Marshaler.new, hBuild]; rfl
    simp [LoadedModule.load, hFingerprint, hMarshaler, Except.mapError, bind, Except.bind, pure,
      Except.pure]
  · obtain ⟨g, hNew, hLawful⟩ := Module.lawful_of_generate h
    obtain ⟨rfl, -⟩ := Module.model_of_generator hNew
    have hCarried := fun c hc => Generator.carried_of_lawful hCovers (hLawful c hc)
    exact ⟨⟨rank, hRanked⟩, fun c hc => (hCarried c hc).1, fun c hc => (hCarried c hc).2.1,
      fun c hc => (hCarried c hc).2.2⟩

variable {σ : Type} {host : Host σ} {s : State σ}

/-- Nothing that can be done in a state fails because of a type, and nothing that was done before
did. -/
structure NeverBlames (host : Host σ) (s : State σ) : Prop where
  construct : ∀ className constructor args,
    Blameless CallError.blamesType ((host.construct className constructor args).run.run s).1
  createApi : ∀ className args,
    Blameless CallError.blamesType ((host.createApi className args).run.run s).1
  callStatic : ∀ className method args,
    Blameless CallError.blamesType ((host.callStatic className method args).run.run s).1
  invoke : ∀ dispatch, dispatch = host.dispatch ∨ dispatch = dispatchInside host.loaded.marshaler →
    ∀ api method args,
      Blameless CallError.blamesType ((host.invoke dispatch api method args).run.run s).1
  bridges : ∀ b ∈ s.objects.bridges, b.binding ∈ host.loaded.bindings.classes
  tryDispatch : ∀ bridge b, b.binding ∈ host.loaded.bindings.classes → ∀ hook args,
    Blameless BridgeError.blamesType ((host.tryDispatch bridge b hook args).run s).1
  tryDispatchInside : ∀ b, b.binding ∈ host.loaded.bindings.classes → ∀ hook args,
    Blameless BridgeError.blamesType
      ((tryDispatchInside host.loaded.marshaler b hook args).run s).1
  faults : ∀ f, Event.faulted f ∈ s.log → f.error.blamesType = false

theorem Genuine.neverBlames (hLoaded : host.loaded.Carries) (h : Genuine host s) :
    NeverBlames host s where
  construct _ _ _ := (Host.tame_construct hLoaded _ _ _ s h).2
  createApi _ _ := (Host.tame_createApi hLoaded _ _ s h).2
  callStatic _ _ _ := (Host.tame_callStatic hLoaded _ _ _ s h).2
  invoke dispatch hDispatch _ _ _ := by
    have hTame : TameDispatcher host dispatch := by
      rcases hDispatch with rfl | rfl
      · exact Host.tame_dispatch hLoaded
      · exact tame_dispatchInside hLoaded
    exact (Host.tame_invoke hLoaded hTame _ _ _ s h).2
  bridges b hb := by
    obtain ⟨bridge, hBridge⟩ := List.mem_iff_getElem?.mp hb
    exact h.bridge hBridge
  tryDispatch _ _ hBound _ _ := (Host.keeps_tryDispatch hLoaded _ _ _ _ s h).2 hBound
  tryDispatchInside _ hBound _ _ := (keeps_tryDispatchInside hLoaded _ _ _ s h).2 hBound
  faults f hf := h.log (.faulted f) hf

/-- Bindings follow the rules of their types, and a session with them never fails because of a
type. -/
theorem generated_neverBlames :
    (∀ (g : Generator) (c : ClassDecl) (b : ClassBinding), g.generate c = .ok b → b.Lawful g) ∧
    ∀ (model : Model) (options : GeneratorOptions) (m : Module), model.Accepted →
      Module.generate model options = .ok m →
      (∃ g, Generator.new model options = .ok g ∧ ∀ b ∈ m.classes, b.Lawful g) ∧
      ∃ l, LoadedModule.load m model = .ok l ∧ l.bindings = m ∧
        ∀ (σ : Type) (host : Host σ), host.loaded = l →
          ∀ s, Visited host s → NeverBlames host s := by
  refine ⟨fun g c b => Generator.lawful_of_generate,
    fun model options m hModel h => ⟨Module.lawful_of_generate h, ?_⟩⟩
  obtain ⟨l, hLoad, hBindings, hCarries⟩ := LoadedModule.load_of_generate hModel h
  refine ⟨l, hLoad, hBindings, fun σ host hHost s hVisited => ?_⟩
  have hLoaded : host.loaded.Carries := hHost ▸ hCarries
  exact (hVisited.genuine hLoaded).neverBlames hLoaded

def sampleFeed : Model where
  library := { name := "feed" }
  structs := [⟨"Quote", [⟨"bid", .scalar .f64⟩]⟩]
  classes :=
    [{ name := "Api"
       methods :=
         [{ name := "Create", returnType := .object "Api", isStatic := true },
           { name := "RegisterSpi", params := [⟨"spi", .object "Spi", none⟩] },
           { name := "Send", params := [⟨"quote", .struct "Quote", none⟩] }] },
      { name := "Spi"
        isInterface := true
        methods :=
          [{ name := "OnQuote"
             params := [⟨"quote", .struct "Quote", none⟩]
             isVirtual := true }] }]

def sampleFeedOptions : GeneratorOptions :=
  { moduleName := some "feed" }

def sampleBindings : Module :=
  let quote : ParamBinding := ⟨"quote", .struct "Quote", .struct "Quote", none⟩
  let spi : ParamBinding := ⟨"spi", .object "Spi", .object "Spi", none⟩
  { name := "feed"
    library := { name := "feed" }
    modelFingerprint := sampleFeed.fingerprint
    records :=
      [.rendered
        { structName := "Quote", exposedName := "Quote", fields := [⟨"bid", .scalar .f64⟩] }]
    classes :=
      [.rendered
        { className := "Api"
          exposedName := "Api"
          isInterface := false
          constructors := [⟨"Create", .constructor, [], .object "Api", .object "Api"⟩]
          methods :=
            [⟨"RegisterSpi", .register "Spi", [spi], .void, .nothing⟩,
              ⟨"Send", .call, [quote], .void, .nothing⟩] },
        .rendered
          { className := "Spi"
            exposedName := "Spi"
            isInterface := true
            overrides := [⟨"OnQuote", [quote], .void, .nothing, false⟩] }]
    constants := [] }

theorem generate_sampleFeed :
    Module.generate sampleFeed sampleFeedOptions = .ok sampleBindings := by
  have hNew : Model.new sampleFeed.library sampleFeed.structs sampleFeed.classes =
      .ok sampleFeed := rfl
  rw [Module.generate_of_accepted (.new hNew)]
  rfl

theorem generated_neverBlames_sample :
    sampleFeed.Accepted ∧ Module.generate sampleFeed sampleFeedOptions = .ok sampleBindings ∧
      ∃ l, LoadedModule.load sampleBindings sampleFeed = .ok l ∧
        ∃ s, Visited ⟨l, Rehearsal.library⟩ s ∧ s.objects.isLive 0 = true ∧
          NeverBlames ⟨l, Rehearsal.library⟩ s := by
  have hNew : Model.new sampleFeed.library sampleFeed.structs sampleFeed.classes =
      .ok sampleFeed := rfl
  have hModel : sampleFeed.Accepted := .new hNew
  obtain ⟨-, ⟨_, marshaler⟩, hLoad, rfl, hNever⟩ :=
    generated_neverBlames.2 sampleFeed sampleFeedOptions sampleBindings hModel
      generate_sampleFeed
  let host : Host Rehearsal := ⟨⟨sampleBindings, marshaler⟩, Rehearsal.library⟩
  let operations : List (Operation Rehearsal) :=
    [.construct "api" "Api" "Create" [], .nameHandler "handler" ⟨"Listener", []⟩,
      .nameSpi "spi" "Spi" "handler", .register 0 0]
  let s := operations.foldl (fun s operation => ((operation.perform host).run s).2) { native := {} }
  have hVisited : Visited host s :=
    (((Visited.start _).operate _).operate _ |>.operate _).operate _
  have hLive : s.objects.isLive 0 = true := rfl
  have hNeverBlames : NeverBlames host s := hNever _ host rfl s hVisited
  exact ⟨hModel, generate_sampleFeed, _, hLoad, s, hVisited, hLive, hNeverBlames⟩

end Session

end NativeBinding
