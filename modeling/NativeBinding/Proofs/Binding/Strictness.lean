import NativeBinding.Proofs.Binding.Declared
import NativeBinding.Proofs.Binding.Narrowing

/-! # Stopping and skipping

A generator stops at a method that cannot be carried, or skips and reports it. Both go through the
methods of a class in step until the first such method; one stops there with an error, the other
always gets to the end. So a class can be generated without skipping exactly if nothing of it is
skipped.
-/

set_option autoImplicit false

namespace NativeBinding.Generator

def skipping (g : Generator) (skips : Bool) : Generator :=
  { g with options := { g.options with ignoreUnsupported := skips } }

def skippedAs (m : MethodDecl) (obstacle : TypeObstacle) : SkippedMethod :=
  ⟨m.name, "unsupported type " ++ obstacle.render⟩

def generateClass (model : Model) (options : GeneratorOptions) (c : ClassDecl) :
    Except GenError ClassBinding := do
  (← Generator.new model options).generate c

section Lockstep

variable (g : Generator) (c : ClassDecl)

/-- Both take a method alike, or one stops at what the other skips. -/
theorem take_lockstep (b : ClassBinding) (m : MethodDecl) :
    (∃ next, (g.skipping false).take c b m = .ok next ∧ (g.skipping true).take c b m = .ok next ∧
      next.skipped = b.skipped) ∨
    ∃ obstacle,
      (g.skipping false).take c b m = .error (.unsupportedType c.name m.name obstacle) ∧
      (g.skipping true).take c b m = .ok (skip b m obstacle) := by
  have hMember : (g.skipping false).member c m = (g.skipping true).member c m := rfl
  have hFilter : (g.skipping false).filter = (g.skipping true).filter := rfl
  obtain ⟨hIgnored, hTake⟩ | ⟨hOpen, ⟨part, hPart, hTake⟩ | ⟨obstacle, hObstacle, hTake⟩⟩ :=
    take_cases (g := g.skipping true) (c := c) (m := m) rfl b
  · exact .inl ⟨b, if_pos hIgnored, hTake, rfl⟩
  · refine .inl ⟨add b part, ?_, hTake, by cases part <;> rfl⟩
    rw [take, hFilter, if_neg (Bool.eq_false_iff.mp hOpen), hMember, hPart]
  · refine .inr ⟨obstacle, ?_, hTake⟩
    rw [take, hFilter, if_neg (Bool.eq_false_iff.mp hOpen), hMember, hObstacle]
    rfl

theorem exists_skipping_foldlM (methods : List MethodDecl) (b : ClassBinding) :
    ∃ last rest, methods.foldlM ((g.skipping true).take c) b = .ok last ∧
      last.skipped = b.skipped ++ rest ∧
      (rest.map (·.name)).Sublist (methods.map (·.name)) := by
  induction methods generalizing b with
  | nil => exact ⟨b, [], rfl, (List.append_nil _).symm, .refl _⟩
  | cons m methods ih =>
    rw [List.foldlM_cons]
    obtain ⟨next, -, hTake, hSkipped⟩ | ⟨obstacle, -, hTake⟩ := g.take_lockstep c b m
    · obtain ⟨last, rest, hRun, hLast, hOrder⟩ := ih next
      exact ⟨last, rest, bind_eq_ok_iff.mpr ⟨next, hTake, hRun⟩, hSkipped ▸ hLast,
        hOrder.cons m.name⟩
    · obtain ⟨last, rest, hRun, hLast, hOrder⟩ := ih (skip b m obstacle)
      refine ⟨last, skippedAs m obstacle :: rest, bind_eq_ok_iff.mpr ⟨_, hTake, hRun⟩, ?_,
        hOrder.cons_cons m.name⟩
      rw [hLast]
      exact List.append_assoc ..

/-- Both runs end alike with nothing more skipped, or one stops at the first method that the other
skips. -/
theorem lockstep_foldlM (methods : List MethodDecl) (b : ClassBinding) :
    (∃ last, methods.foldlM ((g.skipping false).take c) b = .ok last ∧
      methods.foldlM ((g.skipping true).take c) b = .ok last ∧ last.skipped = b.skipped) ∨
    ∃ before m after obstacle last rest, methods = before ++ m :: after ∧
      methods.foldlM ((g.skipping false).take c) b =
        .error (.unsupportedType c.name m.name obstacle) ∧
      methods.foldlM ((g.skipping true).take c) b = .ok last ∧
      last.skipped = b.skipped ++ skippedAs m obstacle :: rest ∧
      (rest.map (·.name)).Sublist (after.map (·.name)) := by
  induction methods generalizing b with
  | nil => exact .inl ⟨b, rfl, rfl, rfl⟩
  | cons m methods ih =>
    rw [List.foldlM_cons, List.foldlM_cons]
    obtain ⟨next, hStrict, hLenient, hSkipped⟩ | ⟨obstacle, hStrict, hLenient⟩ :=
      g.take_lockstep c b m
    · rw [hStrict, hLenient, ← hSkipped]
      obtain ⟨last, hRuns⟩ | ⟨before, m', after, obstacle, last, rest, hMethods, hRuns⟩ := ih next
      · exact .inl ⟨last, hRuns⟩
      · exact .inr ⟨m :: before, m', after, obstacle, last, rest, by rw [hMethods]; rfl, hRuns⟩
    · rw [hStrict, hLenient]
      obtain ⟨last, rest, hRun, hLast, hOrder⟩ :=
        g.exists_skipping_foldlM c methods (skip b m obstacle)
      refine .inr ⟨[], m, methods, obstacle, last, rest, rfl, rfl, hRun, ?_, hOrder⟩
      rw [hLast]
      exact List.append_assoc ..

end Lockstep

variable {model : Model} {options : GeneratorOptions}

theorem new_skipping {filter : SymbolFilter} (hFilter : options.compileFilter = .ok filter)
    (skips : Bool) :
    Generator.new model { options with ignoreUnsupported := skips } =
      .ok ((⟨model, options, filter⟩ : Generator).skipping skips) := by
  have hSame : ({ options with ignoreUnsupported := skips } : GeneratorOptions).compileFilter =
      options.compileFilter := rfl
  rw [Generator.new, hSame, hFilter]
  rfl

theorem generateClass_of_error {e : GenError} (hFilter : options.compileFilter = .error e)
    (skips : Bool) (c : ClassDecl) :
    generateClass model { options with ignoreUnsupported := skips } c = .error e := by
  have hSame : ({ options with ignoreUnsupported := skips } : GeneratorOptions).compileFilter =
      options.compileFilter := rfl
  rw [generateClass, Generator.new, hSame, hFilter]
  rfl

theorem generateClass_of_filter {filter : SymbolFilter}
    (hFilter : options.compileFilter = .ok filter) (skips : Bool) (c : ClassDecl) :
    generateClass model { options with ignoreUnsupported := skips } c =
      ((model.allMethods c).foldlM (((⟨model, options, filter⟩ : Generator).skipping skips).take c)
        { className := c.name, exposedName := options.exposedName c.name
          isInterface := c.isInterface }).map ClassBinding.rendered := by
  rw [generateClass, new_skipping hFilter]
  rfl

/-- Reported are a method and some after it, so none before it, when no two have one name. -/
theorem notMem_reported {before after : List MethodDecl} {m d : MethodDecl}
    {rest : List SkippedMethod} (obstacle : TypeObstacle)
    (hNames : ((before ++ m :: after).map (·.name)).Nodup)
    (hOrder : (rest.map (·.name)).Sublist (after.map (·.name))) (hd : d ∈ before) :
    d.name ∉ (skippedAs m obstacle :: rest).map (·.name) := by
  intro hReported
  rw [List.map_append, List.nodup_append] at hNames
  have hLater : d.name ∈ (m :: after).map (·.name) := (hOrder.cons_cons m.name).subset hReported
  exact hNames.2.2 d.name (List.mem_map_of_mem hd) d.name hLater rfl

/-- A class is generated without skipping exactly if skipping skips nothing. Skipping always gives a
binding once the patterns compile, and the first method that it skips is the one in the error. -/
theorem generateClass_strict (model : Model) (options : GeneratorOptions) (c : ClassDecl) :
    let strict := generateClass model { options with ignoreUnsupported := false } c
    let lenient := generateClass model { options with ignoreUnsupported := true } c
    (∀ b, strict = .ok b ↔ lenient = .ok b ∧ b.skipped = []) ∧
      (∀ filter, options.compileFilter = .ok filter → ∃ b, lenient = .ok b) ∧
      ∀ b, lenient = .ok b → b.skipped ≠ [] →
        ∃ before m after obstacle, model.allMethods c = before ++ m :: after ∧
          (∀ d ∈ before, d.name ∉ b.skipped.map (·.name)) ∧
          b.skipped.head? = some (skippedAs m obstacle) ∧
          strict = .error (.unsupportedType c.name m.name obstacle) := by
  intro strict lenient
  cases hFilter : options.compileFilter with
  | error e =>
    have hStrict : strict = .error e := generateClass_of_error hFilter false c
    have hLenient : lenient = .error e := generateClass_of_error hFilter true c
    rw [hStrict, hLenient]
    exact ⟨fun b => ⟨nofun, fun h => nomatch h.1⟩, nofun, nofun⟩
  | ok filter =>
    have hStrict : strict = _ := generateClass_of_filter hFilter false c
    have hLenient : lenient = _ := generateClass_of_filter hFilter true c
    rw [hStrict, hLenient]
    obtain ⟨last, hEnds, hEnds', hNone⟩ |
        ⟨before, m, after, obstacle, last, rest, hMethods, hStops, hEnds, hSkipped, hOrder⟩ :=
      lockstep_foldlM _ c (model.allMethods c) _
    · rw [hEnds, hEnds']
      refine ⟨fun b => ⟨?_, And.left⟩, fun _ _ => ⟨last.rendered, rfl⟩, fun b hb hSome => ?_⟩
      · rintro ⟨⟩
        exact ⟨rfl, hNone⟩
      · cases hb
        exact absurd hNone hSome
    · have hSkipped : last.rendered.skipped = skippedAs m obstacle :: rest := hSkipped
      rw [hStops, hEnds]
      refine ⟨fun b => ⟨nofun, ?_⟩, fun _ _ => ⟨last.rendered, rfl⟩, fun b hb _ => ?_⟩
      · rintro ⟨⟨⟩, hNone⟩
        exact nomatch hSkipped.symm.trans hNone
      · cases hb
        have hNames := hMethods ▸ model.methodNames_nodup c
        rw [hSkipped]
        exact ⟨before, m, after, obstacle, hMethods,
          fun d hd => notMem_reported obstacle hNames hOrder hd, rfl, rfl⟩

theorem generateClass_strict_sample :
    ∃ b m obstacle,
      generateClass sampleShops { sampleShopsOptions with ignoreUnsupported := true }
        sampleListener = .ok b ∧
      b.skipped = [skippedAs m obstacle] ∧ m.name = "OnRaw" ∧
      generateClass sampleShops { sampleShopsOptions with ignoreUnsupported := false }
        sampleListener = .error (.unsupportedType "Listener" "OnRaw" obstacle) := by
  obtain ⟨-, hEnds, hFirst⟩ := generateClass_strict sampleShops sampleShopsOptions sampleListener
  obtain ⟨b, hb⟩ := hEnds _ rfl
  have hSkipped :
      b.skipped = [skippedAs { name := "OnRaw" } (.noRule (.unsupported "void *"))] := by
    cases hb
    rfl
  obtain ⟨-, m, -, obstacle, -, -, hHead, hStrict⟩ :=
    hFirst b hb (hSkipped ▸ List.cons_ne_nil _ _)
  rw [hSkipped] at hHead
  have hSame := Option.some.inj hHead
  have hName : "OnRaw" = m.name := congrArg SkippedMethod.name hSame
  rw [← hName] at hStrict
  exact ⟨b, m, obstacle, hb, hSkipped.trans (congrArg (fun s => [s]) hSame), hName.symm, hStrict⟩

end NativeBinding.Generator
