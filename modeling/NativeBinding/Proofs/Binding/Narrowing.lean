import Mathlib.Data.List.Forall2
import NativeBinding.Proofs.Binding.Rules

/-! # Narrower filters

Of two generators that differ only in their filters, the one that leaves out more gives part of what
the other gives. A method can lose its class, a struct of its signature, the interface that it
registers, or its hook; in none of these cases does it become a member of another kind, because a
registration whose interface is gone has a handle that nothing else may take.
-/

set_option autoImplicit false

namespace NativeBinding

/-- A binding of the same class with some of the members. -/
structure ClassBinding.PartOf (few many : ClassBinding) : Prop where
  className : few.className = many.className
  exposedName : few.exposedName = many.exposedName
  isInterface : few.isInterface = many.isInterface
  constructors : few.constructors.Sublist many.constructors
  methods : few.methods.Sublist many.methods
  overrides : few.overrides.Sublist many.overrides

namespace Generator

/-- A generator under the patterns of its options, with names matched in any way. -/
def matchedBy (matching : String → String → Bool) (model : Model) (options : GeneratorOptions) :
    Generator where
  model
  options
  filter := options.filterBy matching

/-- A generator that leaves out more than another and is the same otherwise. -/
structure Narrows (few many : Generator) : Prop where
  model : few.model = many.model
  exposedName : few.options.exposedName = many.options.exposedName
  exposeConstants : few.options.exposeConstants = many.options.exposeConstants
  ignoreUnsupported : few.options.ignoreUnsupported = many.options.ignoreUnsupported
  ignored : ∀ name, many.filter.isIgnored name = true → few.filter.isIgnored name = true
  noCallback : ∀ name, many.filter.isNoCallback name = true → few.filter.isNoCallback name = true

variable {few many : Generator} {allowed : Option String} {c : ClassDecl} {m : MethodDecl}

theorem Narrows.generatesStruct (h : few.Narrows many) {name : String}
    (hFew : few.generatesStruct name = true) : many.generatesStruct name = true := by
  simp only [Generator.generatesStruct, Bool.and_eq_true, Bool.not_eq_true', h.model] at hFew ⊢
  refine ⟨hFew.1, Bool.eq_false_iff.mpr fun hIgnored => ?_⟩
  exact absurd (h.ignored name hIgnored) (by simp [hFew.2])

theorem Narrows.generatesClass (h : few.Narrows many) {name : String}
    (hFew : few.generatesClass name = true) : many.generatesClass name = true := by
  simp only [Generator.generatesClass, Bool.and_eq_true, Bool.not_eq_true', h.model] at hFew ⊢
  refine ⟨hFew.1, Bool.eq_false_iff.mpr fun hIgnored => ?_⟩
  exact absurd (h.ignored name hIgnored) (by simp [hFew.2])

theorem Narrows.rule (h : few.Narrows many) {type : TypeRef} {rule : MarshalRule}
    (hRule : few.rule allowed type = .ok rule) : many.rule allowed type = .ok rule := by
  obtain ⟨⟨hSelected, hGenerated⟩, hAllowed⟩ := rule_eq_ok_iff.mp hRule
  apply rule_eq_ok_iff.mpr
  exact ⟨⟨hSelected, fun name hName => h.generatesStruct (hGenerated name hName)⟩, hAllowed⟩

theorem Narrows.params (h : few.Narrows many) {params : List Param} {bound : List ParamBinding}
    (hParams : params.mapM (few.param allowed) = .ok bound) :
    params.mapM (many.param allowed) = .ok bound := by
  rw [mapM_eq_ok_iff] at hParams ⊢
  refine hParams.imp fun p q hParam => ?_
  obtain ⟨rule, hRule, hMade⟩ := bind_eq_ok_iff.mp hParam
  exact bind_eq_ok_iff.mpr ⟨rule, h.rule hRule, hMade⟩

theorem Narrows.trampolineOf (h : few.Narrows many) {kind : TrampolineKind}
    {paramClass returnClass : Option String} {t : Trampoline}
    (hMade : few.trampolineOf m kind paramClass returnClass = .ok t) :
    many.trampolineOf m kind paramClass returnClass = .ok t := by
  obtain ⟨params, hParams, hMade⟩ := bind_eq_ok_iff.mp hMade
  obtain ⟨returnRule, hReturn, hMade⟩ := bind_eq_ok_iff.mp hMade
  apply bind_eq_ok_iff.mpr ⟨params, h.params hParams, _⟩
  exact bind_eq_ok_iff.mpr ⟨returnRule, h.rule hReturn, hMade⟩

theorem Narrows.slot (h : few.Narrows many) {s : OverrideSlot} (hSlot : few.slot m = .ok s) :
    many.slot m = .ok s := by
  obtain ⟨params, hParams, hMade⟩ := bind_eq_ok_iff.mp hSlot
  obtain ⟨returnRule, hReturn, hMade⟩ := bind_eq_ok_iff.mp hMade
  apply bind_eq_ok_iff.mpr ⟨params, h.params hParams, _⟩
  exact bind_eq_ok_iff.mpr ⟨returnRule, h.rule hReturn, hMade⟩

theorem trampolineOf_ne_ok {g : Generator} {kind : TrampolineKind} {returnClass : Option String}
    {p : Param} {name : String} (hParam : p ∈ m.params) (hHandle : p.type = .object name)
    (t : Trampoline) : g.trampolineOf m kind none returnClass ≠ .ok t := by
  intro hMade
  obtain ⟨params, hParams, -⟩ := bind_eq_ok_iff.mp hMade
  obtain ⟨q, hBound⟩ := exists_mapM_eq_ok_iff.mp ⟨params, hParams⟩ p hParam
  obtain ⟨rule, hRule, -⟩ := bind_eq_ok_iff.mp hBound
  exact nomatch (rule_eq_ok_iff.mp hRule).2 name hHandle

theorem Narrows.registeredInterface? (h : few.Narrows many) {name : String}
    (hFew : few.registeredInterface? m = some name) :
    many.registeredInterface? m = some name := by
  unfold Generator.registeredInterface? at hFew ⊢
  split at hFew
  · split at hFew
    · split at hFew
      · rename_i hKept
        rw [Bool.and_eq_true, h.model] at hKept
        rwa [if_pos (by rw [Bool.and_eq_true]; exact ⟨hKept.1, h.generatesClass hKept.2⟩)]
      · cases hFew
    · cases hFew
  · cases hFew

theorem Narrows.trampoline (h : few.Narrows many) {t : Trampoline}
    (hMade : few.trampoline c m = .ok t) : many.trampoline c m = .ok t := by
  unfold Generator.trampoline at hMade ⊢
  by_cases hFactory : isFactory c m = true
  · rw [if_pos hFactory] at hMade ⊢
    exact h.trampolineOf hMade
  rw [if_neg hFactory] at hMade ⊢
  by_cases hStatic : m.isStatic = true
  · rw [if_pos hStatic] at hMade ⊢
    exact h.trampolineOf hMade
  rw [if_neg hStatic] at hMade ⊢
  cases hFew : few.registeredInterface? m with
  | some name =>
    rw [hFew] at hMade
    rw [h.registeredInterface? hFew]
    exact h.trampolineOf hMade
  | none =>
    rw [hFew] at hMade
    cases hMany : many.registeredInterface? m with
    | none => exact h.trampolineOf hMade
    -- The interface is gone, so the method would be a plain call that takes a handle.
    | some name =>
      obtain ⟨p, hOne, hHandle⟩ := registeredInterface?_eq_some hMany
      have hParam : p ∈ m.params := by simp [hOne]
      exact absurd hMade (trampolineOf_ne_ok hParam hHandle t)

theorem Narrows.member (h : few.Narrows many) {part : Member}
    (hMember : few.member c m = .ok part) : part = .omitted ∨ many.member c m = .ok part := by
  unfold Generator.member at hMember ⊢
  by_cases hInterface : c.isInterface = true
  · rw [if_pos hInterface] at hMember ⊢
    split at hMember
    · cases hMember
      exact .inl rfl
    · rename_i hFew
      right
      obtain ⟨s, hSlot, rfl⟩ := map_eq_ok_iff.mp hMember
      have hMany : ¬ (!m.isOverridable ||
          many.filter.isNoCallback (c.name ++ "::" ++ m.name)) = true := by
        rw [Bool.or_eq_true] at hFew ⊢
        rintro (hFixed | hLeftOut)
        · exact hFew (.inl hFixed)
        · exact hFew (.inr (h.noCallback _ hLeftOut))
      rw [if_neg hMany, h.slot hSlot]
      rfl
  · rw [if_neg hInterface] at hMember ⊢
    right
    obtain ⟨t, hMade, rfl⟩ := map_eq_ok_iff.mp hMember
    rw [h.trampoline hMade]
    rfl

theorem partOf_add {few many : ClassBinding} (h : few.PartOf many) (part : Member) :
    few.PartOf (add many part) := by
  obtain ⟨hClass, hExposed, hInterface, hConstructors, hMethods, hOverrides⟩ := h
  cases part with
  | constructor t =>
    exact ⟨hClass, hExposed, hInterface, hConstructors.trans (List.sublist_append_left _ _),
      hMethods, hOverrides⟩
  | method t =>
    exact ⟨hClass, hExposed, hInterface, hConstructors,
      hMethods.trans (List.sublist_append_left _ _), hOverrides⟩
  | override s =>
    exact ⟨hClass, hExposed, hInterface, hConstructors, hMethods,
      hOverrides.trans (List.sublist_append_left _ _)⟩
  | omitted => exact ⟨hClass, hExposed, hInterface, hConstructors, hMethods, hOverrides⟩

theorem partOf_add_add {few many : ClassBinding} (h : few.PartOf many) (part : Member) :
    (add few part).PartOf (add many part) := by
  obtain ⟨hClass, hExposed, hInterface, hConstructors, hMethods, hOverrides⟩ := h
  cases part with
  | constructor t =>
    exact ⟨hClass, hExposed, hInterface, hConstructors.append (.refl _), hMethods, hOverrides⟩
  | method t =>
    exact ⟨hClass, hExposed, hInterface, hConstructors, hMethods.append (.refl _), hOverrides⟩
  | override s =>
    exact ⟨hClass, hExposed, hInterface, hConstructors, hMethods, hOverrides.append (.refl _)⟩
  | omitted => exact ⟨hClass, hExposed, hInterface, hConstructors, hMethods, hOverrides⟩

theorem partOf_skip {few many : ClassBinding} (h : few.PartOf many) (obstacle : TypeObstacle) :
    few.PartOf (skip many m obstacle) ∧ (skip few m obstacle).PartOf many :=
  ⟨⟨h.className, h.exposedName, h.isInterface, h.constructors, h.methods, h.overrides⟩,
    ⟨h.className, h.exposedName, h.isInterface, h.constructors, h.methods, h.overrides⟩⟩

theorem take_cases {g : Generator} (hSkips : g.options.ignoreUnsupported = true)
    (b : ClassBinding) :
    (g.filter.isIgnored (c.name ++ "::" ++ m.name) = true ∧ g.take c b m = .ok b) ∨
      g.filter.isIgnored (c.name ++ "::" ++ m.name) = false ∧
        ((∃ part, g.member c m = .ok part ∧ g.take c b m = .ok (add b part)) ∨
          ∃ obstacle, g.member c m = .error obstacle ∧
            g.take c b m = .ok (skip b m obstacle)) := by
  unfold Generator.take
  cases hIgnored : g.filter.isIgnored (c.name ++ "::" ++ m.name) with
  | true => exact .inl ⟨rfl, rfl⟩
  | false =>
    refine .inr ⟨rfl, ?_⟩
    cases g.member c m with
    | ok part => exact .inl ⟨part, rfl, rfl⟩
    | error obstacle => exact .inr ⟨obstacle, rfl, by simp [hSkips]⟩

theorem Narrows.take (h : few.Narrows many) (hSkips : many.options.ignoreUnsupported = true)
    {b b' : ClassBinding} (hPart : b.PartOf b') :
    ∃ next next', few.take c b m = .ok next ∧ many.take c b' m = .ok next' ∧
      next.PartOf next' := by
  have hKept : ∃ next', many.take c b' m = .ok next' ∧ b.PartOf next' := by
    obtain ⟨-, hTake⟩ | ⟨-, ⟨part, -, hTake⟩ | ⟨obstacle, -, hTake⟩⟩ :=
      take_cases (c := c) (m := m) hSkips b'
    · exact ⟨_, hTake, hPart⟩
    · exact ⟨_, hTake, partOf_add hPart part⟩
    · exact ⟨_, hTake, (partOf_skip hPart obstacle).1⟩
  obtain ⟨next', hMany, hNext⟩ := hKept
  obtain ⟨-, hTake⟩ | ⟨hIgnored, ⟨part, hMember, hTake⟩ | ⟨obstacle, -, hTake⟩⟩ :=
    take_cases (c := c) (m := m) (h.ignoreUnsupported.trans hSkips) b
  · exact ⟨b, next', hTake, hMany, hNext⟩
  · rcases h.member hMember with rfl | hSame
    · exact ⟨b, next', hTake, hMany, hNext⟩
    · have hBoth : many.take c b' m = .ok (add b' part) := by
        have hOpen : many.filter.isIgnored (c.name ++ "::" ++ m.name) = false := by
          refine Bool.eq_false_iff.mpr fun hLeftOut => ?_
          exact absurd (h.ignored _ hLeftOut) (by simp [hIgnored])
        simp [Generator.take, hOpen, hSame]
      exact ⟨_, _, hTake, hBoth, partOf_add_add hPart part⟩
  · exact ⟨_, next', hTake, hMany, (partOf_skip hNext obstacle).2⟩

theorem Narrows.generate (h : few.Narrows many) (hSkips : many.options.ignoreUnsupported = true)
    (c : ClassDecl) :
    ∃ b b', few.generate c = .ok b ∧ many.generate c = .ok b' ∧ b.PartOf b' := by
  -- Both runs go through the methods in step, from any two bindings of which one is part of the
  -- other.
  have hRun (methods : List MethodDecl) {b b' : ClassBinding} (hPart : b.PartOf b') :
      ∃ last last', methods.foldlM (few.take c) b = .ok last ∧
        methods.foldlM (many.take c) b' = .ok last' ∧ last.PartOf last' := by
    induction methods generalizing b b' with
    | nil => exact ⟨b, b', rfl, rfl, hPart⟩
    | cons m methods ih =>
      obtain ⟨next, next', hFew, hMany, hNext⟩ := h.take (c := c) (m := m) hSkips hPart
      obtain ⟨last, last', hRest, hRest', hLast⟩ := ih hNext
      rw [List.foldlM_cons, List.foldlM_cons]
      exact ⟨last, last', bind_eq_ok_iff.mpr ⟨next, hFew, hRest⟩,
        bind_eq_ok_iff.mpr ⟨next', hMany, hRest'⟩, hLast⟩
  let start : ClassBinding :=
    { className := c.name, exposedName := many.options.exposedName c.name
      isInterface := c.isInterface }
  have hStart : start.PartOf start := ⟨rfl, rfl, rfl, .refl _, .refl _, .refl _⟩
  obtain ⟨last, last', hFew, hMany, hLast⟩ := hRun (many.model.allMethods c) hStart
  refine ⟨last.rendered, last'.rendered, generate_eq_ok_iff.mpr ⟨last, ?_, rfl⟩,
    generate_eq_ok_iff.mpr ⟨last', hMany, rfl⟩,
    ⟨hLast.className, hLast.exposedName, hLast.isInterface, hLast.constructors, hLast.methods,
      hLast.overrides⟩⟩
  rwa [collect, h.model, h.exposedName]

theorem Narrows.generateClasses (h : few.Narrows many)
    (hSkips : many.options.ignoreUnsupported = true) :
    ∃ fewClasses manyClasses, few.generateClasses = .ok fewClasses ∧
      many.generateClasses = .ok manyClasses ∧
        List.SublistForall₂ ClassBinding.PartOf fewClasses manyClasses := by
  unfold Generator.generateClasses
  rw [h.model]
  generalize many.model.classes = classes
  induction classes with
  | nil => exact ⟨[], [], rfl, rfl, .nil⟩
  | cons c classes ih =>
    obtain ⟨fewRest, manyRest, hFewRest, hManyRest, hRest⟩ := ih
    obtain ⟨b, b', hFew, hMany, hPart⟩ := h.generate hSkips c
    have hCons {g : Generator} {made : ClassBinding} {rest : List ClassBinding}
        (hMade : g.generate c = .ok made)
        (hOthers : (classes.filter fun d => !g.filter.isIgnored d.name).mapM g.generate =
          .ok rest) (hOpen : g.filter.isIgnored c.name = false) :
        ((c :: classes).filter fun d => !g.filter.isIgnored d.name).mapM g.generate =
          .ok (made :: rest) := by
      rw [List.filter_cons_of_pos (by simp [hOpen]), List.mapM_cons]
      exact bind_eq_ok_iff.mpr ⟨made, hMade, bind_eq_ok_iff.mpr ⟨rest, hOthers, rfl⟩⟩
    have hDrop {g : Generator} (hIgnored : g.filter.isIgnored c.name = true) :
        ((c :: classes).filter fun d => !g.filter.isIgnored d.name) =
          classes.filter fun d => !g.filter.isIgnored d.name :=
      List.filter_cons_of_neg (by simp [hIgnored])
    cases hManyOpen : many.filter.isIgnored c.name with
    | true =>
      rw [hDrop hManyOpen, hDrop (h.ignored _ hManyOpen)]
      exact ⟨fewRest, manyRest, hFewRest, hManyRest, hRest⟩
    | false =>
      cases hFewOpen : few.filter.isIgnored c.name with
      | true =>
        rw [hDrop hFewOpen]
        exact ⟨fewRest, b' :: manyRest, hFewRest, hCons hMany hManyRest hManyOpen,
          .cons_right hRest⟩
      | false =>
        exact ⟨b :: fewRest, b' :: manyRest, hCons hFew hFewRest hFewOpen,
          hCons hMany hManyRest hManyOpen, .cons hPart hRest⟩

theorem Narrows.sublist_filter (h : few.Narrows many) {α : Type} (name : α → String)
    (xs : List α) :
    (xs.filter fun x => !few.filter.isIgnored (name x)).Sublist
      (xs.filter fun x => !many.filter.isIgnored (name x)) := by
  refine List.monotone_filter_right xs fun x hx => ?_
  rw [Bool.not_eq_true'] at hx ⊢
  refine Bool.eq_false_iff.mpr fun hIgnored => ?_
  exact absurd (h.ignored _ hIgnored) (by simp [hx])

theorem Narrows.generateRecords (h : few.Narrows many) :
    few.generateRecords.Sublist many.generateRecords := by
  have hRecord : few.generateRecord = many.generateRecord := by
    funext s
    rw [Generator.generateRecord, h.exposedName]
    rfl
  unfold Generator.generateRecords
  rw [hRecord, h.model]
  exact (h.sublist_filter StructDecl.name _).map _

theorem Narrows.generateConstants (h : few.Narrows many) :
    few.generateConstants.Sublist many.generateConstants := by
  unfold Generator.generateConstants
  rw [h.exposeConstants, h.model]
  split
  · exact h.sublist_filter ConstDecl.name _
  · exact .refl _

theorem any_of_subset {patterns more : List String} (h : patterns ⊆ more) (p : String → Bool)
    (hAny : patterns.any p = true) : more.any p = true := by
  obtain ⟨pattern, hMem, hMatch⟩ := List.any_eq_true.mp hAny
  exact List.any_eq_true.mpr ⟨pattern, h hMem, hMatch⟩

theorem narrows_matchedBy (matching : String → String → Bool) (model : Model)
    {options : GeneratorOptions} {ignored noCallback : List String}
    (hIgnored : options.ignoreNames ⊆ ignored)
    (hNoCallback : options.noCallbackNames ⊆ noCallback) :
    (matchedBy matching model
      { options with ignoreNames := ignored, noCallbackNames := noCallback }).Narrows
      (matchedBy matching model options) where
  model := rfl
  exposedName := rfl
  exposeConstants := rfl
  ignoreUnsupported := rfl
  ignored name hName := by
    simp only [matchedBy, GeneratorOptions.filterBy, Bool.or_eq_true] at hName ⊢
    exact hName.imp_right (any_of_subset hIgnored _)
  noCallback name hName := any_of_subset hNoCallback _ hName

theorem eq_matchedBy_of_new {model : Model} {options : GeneratorOptions} {g : Generator}
    (h : Generator.new model options = .ok g) :
    g = matchedBy GeneratorOptions.matchesStart model options := by
  obtain ⟨filter, hFilter, hMade⟩ := bind_eq_ok_iff.mp h
  cases hMade
  rw [GeneratorOptions.eq_filterBy_of_compileFilter hFilter]
  rfl

/-- More patterns give part of what fewer give, however patterns match names; compiled patterns
match in one such way. -/
theorem part_of_more_patterns (model : Model) (options : GeneratorOptions)
    {ignored noCallback : List String} (hSkips : options.ignoreUnsupported = true)
    (hIgnored : options.ignoreNames ⊆ ignored)
    (hNoCallback : options.noCallbackNames ⊆ noCallback) :
    (∀ matching : String → String → Bool,
      let few := matchedBy matching model
        { options with ignoreNames := ignored, noCallbackNames := noCallback }
      let many := matchedBy matching model options
      (∃ fewClasses manyClasses, few.generateClasses = .ok fewClasses ∧
        many.generateClasses = .ok manyClasses ∧
          List.SublistForall₂ ClassBinding.PartOf fewClasses manyClasses) ∧
        few.generateRecords.Sublist many.generateRecords ∧
          few.generateConstants.Sublist many.generateConstants) ∧
      ∀ o g, Generator.new model o = .ok g →
        g = matchedBy GeneratorOptions.matchesStart model o := by
  refine ⟨fun matching => ?_, fun o g => eq_matchedBy_of_new⟩
  have hNarrows := narrows_matchedBy matching model hIgnored hNoCallback
  exact ⟨hNarrows.generateClasses hSkips, hNarrows.generateRecords, hNarrows.generateConstants⟩

def sampleWatched : Model where
  library := { name := "watched" }
  structs := [⟨"Quote", [⟨"bid", .scalar .f64⟩]⟩]
  classes :=
    [{ name := "Feed"
       methods :=
        [{ name := "Create", returnType := .object "Feed", isStatic := true },
          { name := "Watch", params := [{ name := "spi", type := .object "FeedSpi" }] },
          { name := "Ask", params := [{ name := "quote", type := .struct "Quote" }] }] },
      { name := "FeedSpi"
        isInterface := true
        methods :=
          [{ name := "OnQuote", params := [{ name := "quote", type := .struct "Quote" }]
             isVirtual := true },
            { name := "OnEnd", isVirtual := true }] }]

theorem part_of_more_patterns_sample :
    let options : GeneratorOptions := { ignoreUnsupported := true, ignoreNames := ["_"] }
    let narrowed : GeneratorOptions := { options with ignoreNames := ["Quote", "_", "FeedSpi$"] }
    (options.ignoreUnsupported = true ∧ options.ignoreNames ⊆ ["Quote", "_", "FeedSpi$"]) ∧
      ∃ few many, Generator.new sampleWatched narrowed = .ok few ∧
        Generator.new sampleWatched options = .ok many ∧
          (few.generateClasses.map fun classes => classes.map fun c => c.methods.map (·.name)) =
            .ok [[]] ∧
          (many.generateClasses.map fun classes => classes.map fun c => c.methods.map (·.name)) =
            .ok [["Watch", "Ask"], []] ∧
          ∃ fewClasses manyClasses, few.generateClasses = .ok fewClasses ∧
            many.generateClasses = .ok manyClasses ∧
              List.SublistForall₂ ClassBinding.PartOf fewClasses manyClasses := by
  have hIgnored : ["_"] ⊆ ["Quote", "_", "FeedSpi$"] := by decide
  have hParts := part_of_more_patterns sampleWatched
    { ignoreUnsupported := true, ignoreNames := ["_"] } rfl hIgnored (List.Subset.refl [])
  exact ⟨⟨rfl, hIgnored⟩, _, _, rfl, rfl, by decide +kernel, by decide +kernel,
    (hParts.1 GeneratorOptions.matchesStart).1⟩

end Generator

end NativeBinding
