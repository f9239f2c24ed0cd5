import NativeBinding.Binding.Generate
import NativeBinding.Proofs.Success

/-! # Rules of generated bindings

Every parameter and return of a generated binding has the rule of its type, structs are generated
themselves, and a handle stands only where a factory returns it or a registration takes it. Skipping
methods does not weaken this, since a method is taken whole or not at all.
-/

set_option autoImplicit false

namespace NativeBinding

/-- The rule of a type, with a struct generated itself. -/
structure Generator.Carries (g : Generator) (type : TypeRef) (rule : MarshalRule) : Prop where
  selected : MarshalRule.select? type = some rule
  generated : ∀ name, rule = .struct name → g.generatesStruct name = true

structure Trampoline.Lawful (t : Trampoline) (g : Generator) : Prop where
  params : ∀ p ∈ t.params, g.Carries p.type p.rule
  returned : g.Carries t.returnType t.returnRule
  handleParams : ∀ p ∈ t.params, ∀ name, p.type = .object name →
    t.kind = .register name ∧ t.params = [p]
  handleReturned : ∀ name, t.returnType = .object name → t.kind = .constructor

structure OverrideSlot.Lawful (s : OverrideSlot) (g : Generator) : Prop where
  params : ∀ p ∈ s.params, g.Carries p.type p.rule
  returned : g.Carries s.returnType s.returnRule
  noHandles : ∀ name, s.returnType ≠ .object name ∧ ∀ p ∈ s.params, p.type ≠ .object name

structure ClassBinding.Lawful (b : ClassBinding) (g : Generator) : Prop where
  constructors : ∀ t ∈ b.constructors, t.kind = .constructor ∧ t.Lawful g
  methods : ∀ t ∈ b.methods, t.kind ≠ .constructor ∧ t.Lawful g
  overrides : ∀ s ∈ b.overrides, s.Lawful g

namespace Generator

variable {g : Generator}

theorem rule_eq_ok_iff {allowed : Option String} {type : TypeRef} {rule : MarshalRule} :
    g.rule allowed type = .ok rule ↔
      g.Carries type rule ∧ ∀ name, type = .object name → allowed = some name := by
  constructor
  · intro h
    cases type with
    | struct name =>
      simp only [Generator.rule, MarshalRule.select?] at h
      split at h
      · cases h
        refine ⟨⟨rfl, fun other hOther => ?_⟩, nofun⟩
        cases hOther
        assumption
      · cases h
    | object name =>
      simp only [Generator.rule, MarshalRule.select?] at h
      split at h
      · cases h
        refine ⟨⟨rfl, nofun⟩, fun other hOther => ?_⟩
        cases hOther
        assumption
      · cases h
    | unsupported spelling => cases h
    | _ =>
      cases h
      exact ⟨⟨rfl, nofun⟩, nofun⟩
  · rintro ⟨⟨hSelected, hGenerated⟩, hAllowed⟩
    cases type with
    | struct name =>
      cases hSelected
      simp [Generator.rule, MarshalRule.select?, hGenerated name rfl]
    | object name =>
      cases hSelected
      simp [Generator.rule, MarshalRule.select?, hAllowed name rfl]
    | unsupported spelling => cases hSelected
    | _ =>
      cases hSelected
      rfl

theorem param_eq_ok {allowed : Option String} {p : Param} {q : ParamBinding}
    (h : g.param allowed p = .ok q) : g.rule allowed q.type = .ok q.rule := by
  obtain ⟨rule, hRule, hEq⟩ := bind_eq_ok_iff.mp h
  cases hEq
  exact hRule

theorem params_eq_ok {allowed : Option String} {params : List Param} {bound : List ParamBinding}
    (h : params.mapM (g.param allowed) = .ok bound) {q : ParamBinding} (hq : q ∈ bound) :
    g.Carries q.type q.rule ∧ ∀ name, q.type = .object name → allowed = some name := by
  obtain ⟨p, -, hParam⟩ := exists_of_mem_mapM h hq
  exact rule_eq_ok_iff.mp (param_eq_ok hParam)

theorem lawful_of_trampolineOf {m : MethodDecl} {kind : TrampolineKind}
    {paramClass returnClass : Option String} {t : Trampoline}
    (h : g.trampolineOf m kind paramClass returnClass = .ok t)
    (hTaken : ∀ name, paramClass = some name → kind = .register name ∧ m.params.length = 1)
    (hMade : ∀ name, returnClass = some name → kind = .constructor) :
    t.Lawful g ∧ t.kind = kind := by
  obtain ⟨params, hParams, h⟩ := bind_eq_ok_iff.mp h
  obtain ⟨returnRule, hReturn, hEq⟩ := bind_eq_ok_iff.mp h
  cases hEq
  obtain ⟨hReturned, hAllowed⟩ := rule_eq_ok_iff.mp hReturn
  have hLength : params.length = m.params.length := (mapM_eq_ok_iff.mp hParams).length_eq.symm
  refine ⟨⟨fun p hp => (params_eq_ok hParams hp).1, hReturned, fun p hp name hType => ?_,
    fun name hType => hMade name (hAllowed name hType)⟩, rfl⟩
  obtain ⟨hKind, hOne⟩ := hTaken name ((params_eq_ok hParams hp).2 name hType)
  obtain ⟨only, rfl⟩ := List.length_eq_one_iff.mp (hLength.trans hOne)
  rw [List.mem_singleton.mp hp]
  exact ⟨hKind, rfl⟩

theorem registeredInterface?_eq_some {m : MethodDecl} {name : String}
    (h : g.registeredInterface? m = some name) : ∃ p, m.params = [p] ∧ p.type = .object name := by
  unfold registeredInterface? at h
  split at h
  · rename_i p hParams
    split at h
    · rename_i other hType
      split at h <;> cases h
      exact ⟨p, hParams, hType⟩
    · cases h
  · cases h

theorem trampoline_lawful {c : ClassDecl} {m : MethodDecl} {t : Trampoline}
    (h : g.trampoline c m = .ok t) :
    t.Lawful g ∧ (t.kind = .constructor ↔ isFactory c m = true) := by
  unfold Generator.trampoline at h
  split at h
  · rename_i hFactory
    obtain ⟨hLawful, hKind⟩ := lawful_of_trampolineOf h nofun fun _ _ => rfl
    exact ⟨hLawful, iff_of_true hKind hFactory⟩
  · rename_i hFactory
    have hOther {kind : TrampolineKind} (hKind : t.kind = kind) (hNot : kind ≠ .constructor) :
        t.kind = .constructor ↔ isFactory c m = true := iff_of_false (hKind ▸ hNot) hFactory
    split at h
    · obtain ⟨hLawful, hKind⟩ := lawful_of_trampolineOf h nofun nofun
      exact ⟨hLawful, hOther hKind nofun⟩
    · split at h
      · rename_i name hRegistered
        obtain ⟨only, hOnly, -⟩ := registeredInterface?_eq_some hRegistered
        obtain ⟨hLawful, hKind⟩ := lawful_of_trampolineOf h
          (fun other hName => ⟨Option.some.inj hName ▸ rfl, by rw [hOnly]; rfl⟩) nofun
        exact ⟨hLawful, hOther hKind nofun⟩
      · obtain ⟨hLawful, hKind⟩ := lawful_of_trampolineOf h nofun nofun
        refine ⟨hLawful, hOther hKind ?_⟩
        split
        · exact nofun
        · split <;> exact nofun

theorem slot_lawful {m : MethodDecl} {s : OverrideSlot} (h : g.slot m = .ok s) : s.Lawful g := by
  obtain ⟨params, hParams, h⟩ := bind_eq_ok_iff.mp h
  obtain ⟨returnRule, hReturn, hEq⟩ := bind_eq_ok_iff.mp h
  cases hEq
  obtain ⟨hCarried, hReturned⟩ := rule_eq_ok_iff.mp hReturn
  refine ⟨fun p hp => (params_eq_ok hParams hp).1, hCarried, fun name => ⟨fun hType => ?_,
    fun p hp hType => ?_⟩⟩
  · exact nomatch hReturned name hType
  · exact nomatch (params_eq_ok hParams hp).2 name hType

def Member.Lawful (g : Generator) : Member → Prop
  | .constructor t => t.kind = .constructor ∧ t.Lawful g
  | .method t => t.kind ≠ .constructor ∧ t.Lawful g
  | .override s => s.Lawful g
  | .omitted => True

theorem member_lawful {c : ClassDecl} {m : MethodDecl} {part : Member}
    (h : g.member c m = .ok part) : part.Lawful g := by
  unfold member at h
  split at h
  · split at h
    · cases h
      trivial
    · obtain ⟨slot, hSlot, rfl⟩ := map_eq_ok_iff.mp h
      exact slot_lawful hSlot
  · obtain ⟨t, hTrampoline, rfl⟩ := map_eq_ok_iff.mp h
    obtain ⟨hLawful, hKind⟩ := trampoline_lawful hTrampoline
    split
    · rename_i hFactory
      exact ⟨hKind.mpr hFactory, hLawful⟩
    · rename_i hFactory
      exact ⟨fun hConstructor => hFactory (hKind.mp hConstructor), hLawful⟩

theorem lawful_add {b : ClassBinding} {part : Member} (hb : b.Lawful g) (h : part.Lawful g) :
    (add b part).Lawful g := by
  have hAppend {α : Type} {good : α → Prop} {xs : List α} {x : α} (hxs : ∀ y ∈ xs, good y)
      (hx : good x) : ∀ y ∈ xs ++ [x], good y :=
    List.forall_mem_append.mpr ⟨hxs, List.forall_mem_singleton.mpr hx⟩
  cases part with
  | constructor t => exact ⟨hAppend hb.constructors h, hb.methods, hb.overrides⟩
  | method t => exact ⟨hb.constructors, hAppend hb.methods h, hb.overrides⟩
  | override s => exact ⟨hb.constructors, hb.methods, hAppend hb.overrides h⟩
  | omitted => exact hb

theorem generate_eq_ok_iff {c : ClassDecl} {b : ClassBinding} :
    g.generate c = .ok b ↔ ∃ made, g.collect c = .ok made ∧ b = made.rendered :=
  map_eq_ok_iff

theorem source_of_generate {c : ClassDecl} {b : ClassBinding} (h : g.generate c = .ok b) :
    b.source = b.render := by
  obtain ⟨made, -, rfl⟩ := generate_eq_ok_iff.mp h
  rfl

/-- What holds of an empty binding, is kept by every member taken and every method skipped, and does
not look at the source, holds of what is generated. -/
theorem generate_induct {c : ClassDecl} {b : ClassBinding} (holds : ClassBinding → Prop)
    (hStart : holds
      { className := c.name, exposedName := g.options.exposedName c.name
        isInterface := c.isInterface })
    (hAdd : ∀ b m part, holds b → g.member c m = .ok part → holds (add b part))
    (hSkip : ∀ b m obstacle, holds b → holds (skip b m obstacle))
    (hRendered : ∀ b : ClassBinding, holds b → holds b.rendered)
    (h : g.generate c = .ok b) : holds b := by
  obtain ⟨made, hMade, rfl⟩ := generate_eq_ok_iff.mp h
  refine hRendered made ?_
  clear h
  unfold collect at hMade
  -- The fold starts from any binding of which the statement holds, not from the empty one only.
  generalize g.model.allMethods c = methods at hMade
  revert hStart hMade
  generalize ({ className := c.name, exposedName := g.options.exposedName c.name
                isInterface := c.isInterface } : ClassBinding) = start
  intro hStart hMade
  induction methods generalizing start with
  | nil =>
    cases hMade
    exact hStart
  | cons m methods ih =>
    rw [List.foldlM_cons] at hMade
    obtain ⟨next, hTake, hRest⟩ := bind_eq_ok_iff.mp hMade
    refine ih next ?_ hRest
    unfold take at hTake
    split at hTake
    · cases hTake
      exact hStart
    · split at hTake
      · rename_i part hMember
        cases hTake
        exact hAdd start m part hStart hMember
      · split at hTake
        · cases hTake
          exact hSkip start m _ hStart
        · cases hTake

theorem names_of_generate {c : ClassDecl} {b : ClassBinding} (h : g.generate c = .ok b) :
    b.className = c.name ∧ b.exposedName = g.options.exposedName c.name ∧
      b.isInterface = c.isInterface := by
  refine generate_induct (fun b => b.className = c.name ∧
    b.exposedName = g.options.exposedName c.name ∧ b.isInterface = c.isInterface)
    ⟨rfl, rfl, rfl⟩ (fun b m part hb _ => ?_) (fun b m obstacle hb => hb) (fun b hb => hb) h
  cases part <;> exact hb

theorem lawful_of_generate {c : ClassDecl} {b : ClassBinding} (h : g.generate c = .ok b) :
    b.Lawful g := by
  have hStart : ClassBinding.Lawful
      { className := c.name, exposedName := g.options.exposedName c.name
        isInterface := c.isInterface } g :=
    ⟨fun _ ht => absurd ht List.not_mem_nil, fun _ ht => absurd ht List.not_mem_nil,
      fun _ hs => absurd hs List.not_mem_nil⟩
  exact generate_induct (fun b => b.Lawful g) hStart
    (fun b m part hb hMember => lawful_add hb (member_lawful hMember))
    (fun b m obstacle hb => ⟨hb.constructors, hb.methods, hb.overrides⟩)
    (fun b hb => ⟨hb.constructors, hb.methods, hb.overrides⟩) h

end Generator

end NativeBinding
