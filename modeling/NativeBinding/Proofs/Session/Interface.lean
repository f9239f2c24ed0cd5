import NativeBinding.Proofs.Binding.Rules
import NativeBinding.Proofs.Session.Reachable
import NativeBinding.Proofs.Session.Register
import NativeBinding.Session.Rehearsal

/-! # The interface of a registration

A method that registers takes one handle to a generated interface, and a class may have several such
methods, each with an interface of its own. A registration is not told which of them was called: it
takes the interface of the first one. A Spi object for that interface reaches the library, and one
for any other is refused by every method of the class.
-/

set_option autoImplicit false

namespace NativeBinding

/-- A registration takes one handle, to an interface that is generated. -/
structure Trampoline.TakesInterface (t : Trampoline) (g : Generator) (interfaceName : String) :
    Prop where
  params : ∃ q, t.params = [q] ∧ q.type = .object interfaceName
  declared : ∃ d, g.model.findClass? interfaceName = some d ∧ d.isInterface = true
  generated : g.generatesClass interfaceName = true

/-- The first method of a class that registers. -/
structure ClassBinding.RegistersFirst (b : ClassBinding) (first : Trampoline)
    (expected : String) : Prop where
  kind : first.kind = .register expected
  first : ∃ before after, b.methods = before ++ first :: after ∧
    ∀ t ∈ before, ∀ name, t.kind ≠ .register name

namespace Generator

variable {g : Generator}

theorem isInterface_of_registeredInterface? {m : MethodDecl} {name : String}
    (h : g.registeredInterface? m = some name) :
    (∃ d, g.model.findClass? name = some d ∧ d.isInterface = true) ∧
      g.generatesClass name = true := by
  unfold registeredInterface? at h
  split at h
  · split at h
    · split at h
      · rename_i hBoth
        cases h
        obtain ⟨hInterface, hGenerated⟩ := Bool.and_eq_true_iff.mp hBoth
        refine ⟨?_, hGenerated⟩
        cases hFind : g.model.findClass? name with
        | none => simp [hFind] at hInterface
        | some d => exact ⟨d, rfl, by simpa [hFind] using hInterface⟩
      · cases h
    · cases h
  · cases h

theorem kind_of_trampolineOf {m : MethodDecl} {kind : TrampolineKind}
    {paramClass returnClass : Option String} {t : Trampoline}
    (h : g.trampolineOf m kind paramClass returnClass = .ok t) :
    t.kind = kind ∧ t.params.map (·.type) = m.params.map (·.type) := by
  obtain ⟨params, hParams, h⟩ := bind_eq_ok_iff.mp h
  obtain ⟨_, -, hEq⟩ := bind_eq_ok_iff.mp h
  cases hEq
  refine ⟨rfl, ?_⟩
  have hTypes : List.Forall₂ (· = ·) (params.map (·.type)) (m.params.map (·.type)) := by
    rw [List.forall₂_map_left_iff, List.forall₂_map_right_iff]
    refine (mapM_eq_ok_iff.mp hParams).flip.imp fun q p hParam => ?_
    obtain ⟨_, -, hEq⟩ := bind_eq_ok_iff.mp hParam
    cases hEq
    rfl
  rwa [List.forall₂_eq_eq_eq] at hTypes

theorem takesInterface_of_trampoline {c : ClassDecl} {m : MethodDecl} {t : Trampoline}
    {name : String} (h : g.trampoline c m = .ok t) (hKind : t.kind = .register name) :
    t.TakesInterface g name := by
  unfold trampoline at h
  split at h
  · exact nomatch (kind_of_trampolineOf h).1.symm.trans hKind
  · split at h
    · exact nomatch (kind_of_trampolineOf h).1.symm.trans hKind
    · split at h
      · rename_i found hFound
        obtain ⟨hRegisters, hTypes⟩ := kind_of_trampolineOf h
        obtain rfl : found = name := TrampolineKind.register.inj (hRegisters.symm.trans hKind)
        obtain ⟨p, hParams, hType⟩ := registeredInterface?_eq_some hFound
        obtain ⟨hDeclared, hGenerated⟩ := isInterface_of_registeredInterface? hFound
        rw [hParams, List.map_singleton, List.map_eq_singleton_iff] at hTypes
        obtain ⟨q, hq, hSame⟩ := hTypes
        exact ⟨⟨q, hq, hSame.trans hType⟩, hDeclared, hGenerated⟩
      · have hOther := (kind_of_trampolineOf h).1.symm.trans hKind
        split at hOther
        · cases hOther
        · split at hOther <;> cases hOther

theorem takesInterface_of_member {c : ClassDecl} {m : MethodDecl} {t : Trampoline} {name : String}
    (h : g.member c m = .ok (.method t)) (hKind : t.kind = .register name) :
    t.TakesInterface g name := by
  unfold member at h
  split at h
  · split at h
    · cases h
    · obtain ⟨_, -, hEq⟩ := map_eq_ok_iff.mp h
      cases hEq
  · obtain ⟨t', hTrampoline, hEq⟩ := map_eq_ok_iff.mp h
    split at hEq
    · cases hEq
    · cases hEq
      exact takesInterface_of_trampoline hTrampoline hKind

theorem takesInterface_of_generate {c : ClassDecl} {b : ClassBinding} (h : g.generate c = .ok b) :
    ∀ t ∈ b.methods, ∀ name, t.kind = .register name → t.TakesInterface g name := by
  let holds (b : ClassBinding) : Prop :=
    ∀ t ∈ b.methods, ∀ name, t.kind = .register name → t.TakesInterface g name
  have hAdd (b : ClassBinding) (m : MethodDecl) (part : Member) (hb : holds b)
      (hMember : g.member c m = .ok part) : holds (add b part) := by
    cases part with
    | method t =>
      exact List.forall_mem_append.mpr ⟨hb, List.forall_mem_singleton.mpr fun _ hKind =>
        takesInterface_of_member hMember hKind⟩
    | _ => exact hb
  exact generate_induct holds (fun _ ht => absurd ht List.not_mem_nil) hAdd
    (fun _ _ _ hb => hb) (fun _ hb => hb) h

end Generator

namespace Session

variable {σ : Type} {host : Host σ} {s : State σ} {api spi : Nat} {b : ClassBinding}
  {first : Trampoline} {expected interfaceName : String} {p : Spi} {handler : Handler}

namespace Host

theorem registration?_eq_some_iff {method : String} :
    registration? b = some (method, expected) ↔
      ∃ first, first.name = method ∧ b.RegistersFirst first expected := by
  rw [registration?, List.findSome?_eq_some_iff]
  constructor
  · rintro ⟨before, first, after, hSplit, hFirst, hBefore⟩
    split at hFirst
    · rename_i hKind
      cases hFirst
      refine ⟨first, rfl, hKind, before, after, hSplit, fun t ht name hOther => ?_⟩
      have hNone := hBefore t ht
      rw [hOther] at hNone
      cases hNone
    · cases hFirst
  · rintro ⟨first, rfl, hKind, before, after, hSplit, hBefore⟩
    refine ⟨before, first, after, hSplit, by rw [hKind], fun t ht => ?_⟩
    split
    · exact absurd ‹_› (hBefore t ht _)
    · rfl

theorem exists_registersFirst {t : Trampoline} (ht : t ∈ b.methods)
    (hKind : t.kind = .register interfaceName) :
    ∃ first expected, b.RegistersFirst first expected := by
  cases hFound : registration? b with
  | none =>
    have hNone := List.findSome?_eq_none_iff.mp hFound t ht
    rw [hKind] at hNone
    cases hNone
  | some found =>
    obtain ⟨first, -, hFirst⟩ := registration?_eq_some_iff.mp hFound
    exact ⟨first, _, hFirst⟩

/-- A live instance of a class, and a Spi object made for an interface, with a handler that is
alive. -/
structure Ready (s : State σ) (api spi : Nat) (b : ClassBinding) (interfaceName : String) (p : Spi)
    (handler : Handler) : Prop where
  api : ∃ a, s.objects.apis[api]? = some a ∧ a.binding = b ∧ a.released = false
  spi : s.objects.spis[spi]? = some p
  created : p.binding.className = interfaceName
  alive : s.handler? p.handler = some handler

/-- A registration opens a bridge of the instance and enters the library with it. What the library
answers is the answer. -/
structure ReachesLibrary (host : Host σ) (s : State σ) (api spi : Nat) (method : String) :
    Prop where
  answer : ((host.register api spi).run.run s).1 =
    match (host.library.register s.native api s.objects.bridges.length).2 with
    | .ok () => .ok s.objects.bridges.length
    | .error fault => .error (.nativeCall method fault.code fault.message)
  native : ((host.register api spi).run.run s).2.native =
    (host.library.register s.native api s.objects.bridges.length).1
  entered : ((host.register api spi).run.run s).2.log = s.log ++ [.entered (.register api)]
  opened : ((host.register api spi).run.run s).2.objects.owner? s.objects.bridges.length = some api

theorem owner?_registered (s : State σ) (api spi : Nat) (p : Spi) (handler : Handler)
    (accepted : Bool) (native : σ) :
    (s.registered api spi p handler accepted native).objects.owner? s.objects.bridges.length =
      some api := by
  have hOpened : (s.objects.openBridge api spi p handler).2.owner? s.objects.bridges.length =
      some api := by
    simp [Registry.owner?, Registry.openBridge]
  cases accepted with
  | true => exact (Registry.owner?_accept _ _ _ _ _).trans hOpened
  | false => exact (Registry.owner?_retireAny _ (some _) _).trans hOpened

/-- The only check that a ready registration can fail is that of the interface. -/
theorem refuses_of_ready (hFirst : b.RegistersFirst first expected)
    (hReady : Ready s api spi b interfaceName p handler) {e : CallError}
    (h : Refuses s api spi e) :
    interfaceName ≠ expected ∧ e = .interfaceMismatch first.name expected interfaceName := by
  obtain ⟨⟨a, hApi, rfl, hLive⟩, hSpi, rfl, hAlive⟩ := hReady
  have hMethod := registration?_eq_some_iff.mpr ⟨first, rfl, hFirst⟩
  -- What is ready answers every other check.
  cases h with
  | noApi hNone => exact nomatch hApi.symm.trans hNone
  | released hFound hReleased =>
    cases hApi.symm.trans hFound
    exact nomatch hLive.symm.trans hReleased
  | noSpi _ _ hNone => exact nomatch hSpi.symm.trans hNone
  | noMethod hFound _ _ hNone =>
    cases hApi.symm.trans hFound
    exact nomatch hMethod.symm.trans hNone
  | mismatch hFound _ hFoundSpi hOther hNe =>
    cases hApi.symm.trans hFound
    cases hSpi.symm.trans hFoundSpi
    cases hMethod.symm.trans hOther
    exact ⟨hNe, rfl⟩
  | stale _ _ hFoundSpi _ hNone =>
    cases hSpi.symm.trans hFoundSpi
    exact nomatch hAlive.symm.trans hNone

/-- A ready registration is decided by its interface alone, which is compared with that of the first
method that registers. -/
theorem register_of_ready (hFirst : b.RegistersFirst first expected)
    (hReady : Ready s api spi b interfaceName p handler) :
    (interfaceName = expected → host.ReachesLibrary s api spi first.name) ∧
    (interfaceName ≠ expected → (host.register api spi).run.run s =
      (.error (.interfaceMismatch first.name expected interfaceName), s)) := by
  have hRegisters := registers host s api spi
  generalize hRun : (host.register api spi).run.run s = outcome at hRegisters ⊢
  obtain ⟨answer, t⟩ := outcome
  cases hRegisters with
  | refused hRefuses =>
    obtain ⟨hNe, rfl⟩ := refuses_of_ready hFirst hReady hRefuses
    exact ⟨fun hSame => absurd hSame hNe, fun _ => rfl⟩
  | @entered a q method handler' hFound hLive hFoundSpi hMethod hAlive native reply hReply =>
    obtain ⟨⟨a', hApi, rfl, -⟩, hSpi, rfl, -⟩ := hReady
    cases hApi.symm.trans hFound
    cases hSpi.symm.trans hFoundSpi
    cases (registration?_eq_some_iff.mpr ⟨first, rfl, hFirst⟩).symm.trans hMethod
    refine ⟨fun _ => ?_, fun hNe => absurd rfl hNe⟩
    refine ⟨?_, ?_, ?_, ?_⟩
    · cases reply <;> rw [hRun, hReply]
    · rw [hRun, hReply]
    · rw [hRun]
      rfl
    · rw [hRun]
      exact owner?_registered s api spi p handler' reply.isOk native

/-- A method that registers takes an interface of its own, but the class answers for the interface
of its first one. -/
theorem register_resolves_first {g : Generator} {c : ClassDecl} (hGenerated : g.generate c = .ok b)
    {t : Trampoline} (ht : t ∈ b.methods) (hKind : t.kind = .register interfaceName) :
    t.TakesInterface g interfaceName ∧
    ∃ first expected, b.RegistersFirst first expected ∧
      ∀ (σ : Type) (host : Host σ) (s : State σ) (api spi : Nat) (p : Spi) (handler : Handler),
        Ready s api spi b interfaceName p handler →
        (interfaceName = expected → host.ReachesLibrary s api spi first.name) ∧
        (interfaceName ≠ expected → (host.register api spi).run.run s =
          (.error (.interfaceMismatch first.name expected interfaceName), s)) := by
  obtain ⟨first, expected, hFirst⟩ := exists_registersFirst ht hKind
  exact ⟨Generator.takesInterface_of_generate hGenerated t ht interfaceName hKind, first, expected,
    hFirst, fun _ _ _ _ _ _ _ hReady => register_of_ready hFirst hReady⟩

def sampleVenue : Model where
  library := { name := "venue" }
  classes :=
    [{ name := "Venue"
       methods :=
         [{ name := "Create", returnType := .object "Venue", isStatic := true },
           { name := "RegisterQuotes", params := [⟨"spi", .object "QuoteSpi", none⟩] },
           { name := "RegisterTrades", params := [⟨"spi", .object "TradeSpi", none⟩] }] },
      { name := "QuoteSpi", isInterface := true },
      { name := "TradeSpi", isInterface := true }]

def sampleVenueGenerator : Generator where
  model := sampleVenue
  options := { moduleName := some "venue" }
  filter := { isIgnored := fun _ => false, isNoCallback := fun _ => false }

def sampleRegistration (name interfaceName : String) : Trampoline where
  name
  kind := .register interfaceName
  params := [⟨"spi", .object interfaceName, .object interfaceName, none⟩]
  returnType := .void
  returnRule := .nothing

def sampleVenueBinding : ClassBinding :=
  .rendered
    { className := "Venue"
      exposedName := "Venue"
      isInterface := false
      constructors := [⟨"Create", .constructor, [], .object "Venue", .object "Venue"⟩]
      methods :=
        [sampleRegistration "RegisterQuotes" "QuoteSpi",
          sampleRegistration "RegisterTrades" "TradeSpi"] }

def sampleInterface (className : String) : ClassBinding :=
  .rendered { className, exposedName := className, isInterface := true }

def sampleListener : Handler :=
  ⟨"Listener", []⟩

def sampleTradeSpi : Spi where
  binding := sampleInterface "TradeSpi"
  handler := 0

def sampleVenueHost : Host Rehearsal where
  loaded :=
    { bindings :=
        { name := "venue"
          library := { name := "venue" }
          modelFingerprint := sampleVenue.fingerprint
          records := []
          classes :=
            [sampleVenueBinding, sampleInterface "QuoteSpi", sampleInterface "TradeSpi"]
          constants := [] }
      marshaler := ⟨sampleVenue, {}⟩ }
  library := Rehearsal.library

def sampleVenueOpened : State Rehearsal :=
  let operations : List (Operation Rehearsal) :=
    [.construct "venue" "Venue" "Create" [], .nameHandler "handler" sampleListener,
      .nameSpi "quotes" "QuoteSpi" "handler", .nameSpi "trades" "TradeSpi" "handler"]
  operations.foldl (fun s operation => ((operation.perform sampleVenueHost).run s).2)
    { native := {} }

theorem generate_sampleVenue : ∃ c ∈ sampleVenue.classes,
    sampleVenueGenerator.generate c = .ok sampleVenueBinding :=
  ⟨_, List.mem_cons_self, rfl⟩

/-- The Spi object for the first interface is registered, and the one for the second is refused. -/
theorem register_resolves_first_sample :
    sampleVenueHost.ReachesLibrary sampleVenueOpened 0 0 "RegisterQuotes" ∧
      (sampleVenueHost.register 0 1).run.run sampleVenueOpened =
        (.error (.interfaceMismatch "RegisterQuotes" "QuoteSpi" "TradeSpi"),
          sampleVenueOpened) := by
  obtain ⟨c, -, hGenerated⟩ := generate_sampleVenue
  have hQuotes : sampleRegistration "RegisterQuotes" "QuoteSpi" ∈ sampleVenueBinding.methods :=
    List.mem_cons_self
  have hTrades : sampleRegistration "RegisterTrades" "TradeSpi" ∈ sampleVenueBinding.methods :=
    List.mem_cons_of_mem _ List.mem_cons_self
  have hKnown {first : Trampoline} {expected : String}
      (hFirst : sampleVenueBinding.RegistersFirst first expected) :
      first.name = "RegisterQuotes" ∧ expected = "QuoteSpi" := by
    have hQuotesFirst : registration? sampleVenueBinding = some ("RegisterQuotes", "QuoteSpi") :=
      rfl
    have hFound := registration?_eq_some_iff.mpr ⟨first, rfl, hFirst⟩
    exact Prod.mk.inj (Option.some.inj (hFound.symm.trans hQuotesFirst))
  constructor
  · obtain ⟨-, first, expected, hFirst, hRegister⟩ :=
      register_resolves_first hGenerated hQuotes rfl
    obtain ⟨hName, rfl⟩ := hKnown hFirst
    have hReady : Ready sampleVenueOpened 0 0 sampleVenueBinding "QuoteSpi"
      ⟨sampleInterface "QuoteSpi", 0, none⟩ sampleListener := ⟨⟨_, rfl, rfl, rfl⟩, rfl, rfl, rfl⟩
    rw [← hName]
    exact (hRegister _ sampleVenueHost _ _ _ _ _ hReady).1 rfl
  · obtain ⟨-, first, expected, hFirst, hRegister⟩ :=
      register_resolves_first hGenerated hTrades rfl
    obtain ⟨hName, rfl⟩ := hKnown hFirst
    have hReady : Ready sampleVenueOpened 0 1 sampleVenueBinding "TradeSpi" sampleTradeSpi
      sampleListener := ⟨⟨_, rfl, rfl, rfl⟩, rfl, rfl, rfl⟩
    rw [← hName]
    exact (hRegister _ sampleVenueHost _ _ _ _ _ hReady).2 (by decide)

/-- The wrapper of the second registration cannot be used: a Spi object for its interface is
refused. -/
theorem second_registration_refused :
    sampleRegistration "RegisterTrades" "TradeSpi" ∈ sampleVenueBinding.methods ∧
      Ready sampleVenueOpened 0 1 sampleVenueBinding "TradeSpi" sampleTradeSpi sampleListener ∧
      ((sampleVenueHost.register 0 1).run.run sampleVenueOpened).1 =
        .error (.interfaceMismatch "RegisterQuotes" "QuoteSpi" "TradeSpi") :=
  ⟨List.mem_cons_of_mem _ List.mem_cons_self, ⟨⟨_, rfl, rfl, rfl⟩, rfl, rfl, rfl⟩, rfl⟩

end Host

end Session

end NativeBinding
