import NativeBinding.Proofs.Model.Coherence
import NativeBinding.Proofs.Module.Files
import NativeBinding.Proofs.Module.Lookup
import NativeBinding.Proofs.Source.Template

/-! # Declarations in generated source

Constants and definitions are on lines of their own in the source of a module and in its files. They
are there as they are, except that a placeholder in their text is filled if its key comes after the
text was put in.
-/

set_option autoImplicit false

namespace NativeBinding

open Source

/-- A text that ends with one end of line, after something that is not blank. -/
structure Source.IsBlock (text : String) : Prop where
  split : ∃ part last, text.toList = part ++ [last] ++ ['\n'] ∧ Text.isBlank last = false

namespace Source.IsBlock

theorem lines_of_getLast? {texts : List String} {text : String} {part : List Char} {last : Char}
    (hTexts : texts.getLast? = some text) (hText : text.toList = part ++ [last])
    (hLast : Text.isBlank last = false) : IsBlock (lines texts) := by
  obtain ⟨others, rfl⟩ := List.getLast?_eq_some_iff.mp hTexts
  refine ⟨(lines others).toList ++ part, last, ?_, hLast⟩
  simp [lines, String.join_append, hText]

theorem brace : "\x7d".toList = [] ++ ['\x7d'] :=
  rfl

theorem constant (c : ConstDecl) : IsBlock c.source :=
  lines_of_getLast? rfl String.toList_append (by decide)

theorem record (r : RecordBinding) : IsBlock r.render := by
  refine lines_of_getLast? ?_ brace (by decide)
  rw [recordLines, List.getLast?_append]
  rfl

theorem classBinding (c : ClassBinding) : IsBlock c.render := by
  refine lines_of_getLast? ?_ brace (by decide)
  split
  · exact List.getLast?_concat
  · exact List.getLast?_concat

theorem stands {text : String} {part : List Char} {last : Char}
    (_ : IsBlock text) (hText : text.toList = part ++ [last] ++ ['\n']) :
    Stands (part ++ [last]) text.toList :=
  ⟨[], ['\n'], by simpa using hText, .inl rfl, .inr (List.prefix_refl _)⟩

end Source.IsBlock

namespace Module

variable {m : Module}

def keysAfterBody : List String :=
  ["module_name", "includes", "library"]

def keysAfterDefinitions : List String :=
  ["generator_version", "model_fingerprint", "module_body"] ++ keysAfterBody

/-- The placeholders that are filled after the body of a module, in the root file. -/
def afterBody (m : Module) (includes : String) : List (String × String) :=
  [("module_name", m.name), ("includes", trimmedEnd includes),
    ("library", m.library.name ++ " " ++ m.library.version.getD "unversioned")]

/-- The placeholders that are filled after the definitions, in the root file. -/
def afterDefinitions (m : Module) (includes : String) : List (String × String) :=
  [("generator_version", generatorVersion), ("model_fingerprint", m.modelFingerprint),
    ("module_body", trimmedEnd m.body)] ++ m.afterBody includes

theorem renderRoot_eq (includes definitions : String) :
    m.renderRoot includes definitions = String.ofList
      (refill (("classes_generator_definitions", trimmedEnd definitions) ::
        m.afterDefinitions includes) moduleTemplate.toList) := by
  refine fill_eq_refill ("classes_generator_definitions" :: keysAfterDefinitions)
    (List.perm_iff_count.mpr fun entry => ?_) rfl (by decide) (by decide)
  simp only [afterDefinitions, afterBody, List.cons_append, List.nil_append, List.count_cons,
    List.count_nil]
  omega

theorem renderChunk_eq (chunk : String) :
    m.renderChunk chunk = String.ofList
      (refill [("classes_generator_definitions", chunk), ("module_name", m.name)]
        chunkTemplate.toList) :=
  fill_eq_refill ["classes_generator_definitions", "module_name"] (List.Perm.swap _ _ _)
    rfl (by decide) (by decide)

theorem isBlock_definition {model : Model} {options : GeneratorOptions}
    (h : generate model options = .ok m) {d : String} (hd : d ∈ m.definitions) : IsBlock d := by
  obtain ⟨hRecords, hClasses⟩ := sources_of_generate h
  simp only [definitions, List.mem_append, List.mem_map] at hd
  rcases hd with ⟨r, hr, rfl⟩ | ⟨c, hc, rfl⟩
  · exact hRecords r hr ▸ .record r
  · exact hClasses c hc ▸ .classBinding c

theorem refilled_definitions {includes definitions : String} {part : List Char} {last : Char}
    (hStands : Stands (part ++ [last]) definitions.toList) (hLast : Text.isBlank last = false) :
    refill (m.afterDefinitions includes) (part ++ [last] ++ ['\n']) <:+:
      (m.renderRoot includes definitions).toList := by
  have hValue : Stands (part ++ [last]) (trimmedEnd definitions).toList := by
    rw [trimmedEnd, String.toList_ofList]
    exact hStands.trimEnd hLast
  obtain ⟨texts, hTemplate, hLine, -⟩ := moduleTemplate_lines
  rw [renderRoot_eq, String.toList_ofList, hTemplate]
  exact infix_refill [] (m.afterDefinitions includes) "classes_generator_definitions" _
    "$classes_generator_definitions" rfl hLine hValue [] keysAfterDefinitions rfl rfl (by decide)
    (by decide) (by decide)

theorem refilled_body {includes definitions : String} {part : List Char} {last : Char}
    (hStands : Stands (part ++ [last]) m.body.toList) (hLast : Text.isBlank last = false) :
    refill (m.afterBody includes) (part ++ [last] ++ ['\n']) <:+:
      (m.renderRoot includes definitions).toList := by
  have hValue : Stands (part ++ [last]) (trimmedEnd m.body).toList := by
    rw [trimmedEnd, String.toList_ofList]
    exact hStands.trimEnd hLast
  obtain ⟨texts, hTemplate, -, hLine⟩ := moduleTemplate_lines
  rw [renderRoot_eq, String.toList_ofList, hTemplate]
  exact infix_refill
    [("classes_generator_definitions", trimmedEnd definitions),
      ("generator_version", generatorVersion), ("model_fingerprint", m.modelFingerprint)]
    (m.afterBody includes) "module_body" _ "$module_body" rfl hLine hValue
    ["classes_generator_definitions", "generator_version", "model_fingerprint"] keysAfterBody rfl
    rfl (by decide) (by decide) (by decide)

theorem refilled_chunk {run : List String} {d : String} (hd : d ∈ run) (hBlock : IsBlock d) :
    refill [("module_name", m.name)] d.toList <:+:
      (m.renderChunk (Text.join "\n" run)).toList := by
  obtain ⟨part, last, hText, -⟩ := hBlock.split
  have hStands : Stands (part ++ [last]) (Text.join "\n" run).toList :=
    (hBlock.stands hText).trans (stands_join hd)
  obtain ⟨texts, hTemplate, hLine⟩ := chunkTemplate_lines
  rw [renderChunk_eq, String.toList_ofList, hTemplate, hText]
  exact infix_refill [] [("module_name", m.name)] "classes_generator_definitions" _
    "$classes_generator_definitions" rfl hLine hStands [] ["module_name"] rfl rfl (by decide)
    (by decide) (by decide)

theorem refilled_definition {d : String} (hd : d ∈ m.definitions) (hBlock : IsBlock d)
    (includes : String) :
    refill (m.afterDefinitions includes) d.toList <:+:
      (m.renderRoot includes (Text.join "\n" m.definitions)).toList := by
  obtain ⟨part, last, hText, hLast⟩ := hBlock.split
  rw [hText]
  exact refilled_definitions ((hBlock.stands hText).trans (stands_join hd)) hLast

theorem endsLine_constants (constants : List ConstDecl) :
    EndsLine (String.join (constants.map ConstDecl.source)).toList := by
  induction constants with
  | nil => exact .inl rfl
  | cons c constants ih =>
    rw [List.map_cons, String.join_cons, String.toList_append]
    exact (endsLine_lines _).append ih

theorem stands_constant {c : ConstDecl} (hc : c ∈ m.constants) {part : List Char} {last : Char}
    (hText : c.source.toList = part ++ [last] ++ ['\n']) :
    Stands (part ++ [last]) m.body.toList := by
  obtain ⟨identity, tables, hBody⟩ : ∃ identity tables, m.body = lines identity ++
      ("// Declared constants.\n" ++ String.join (m.constants.map ConstDecl.source) ++ "\n") ++
        tables := by
    have hSome : ¬ m.constants.isEmpty := by simp [List.ne_nil_of_mem hc]
    rw [body, if_neg hSome]
    exact ⟨_, _, rfl⟩
  obtain ⟨before, after, hSplit⟩ := List.append_of_mem hc
  refine ⟨(lines identity).toList ++ ("// Declared constants.\n".toList ++
      (String.join (before.map ConstDecl.source)).toList),
    ['\n'] ++ ((String.join (after.map ConstDecl.source)).toList ++ ['\n'] ++ tables.toList), ?_,
    ?_, .inr ⟨_, rfl⟩⟩
  · simp [hBody, hSplit, String.join_append, String.join_cons, hText]
  · have hComment : EndsLine "// Declared constants.\n".toList := .inr (by decide)
    exact (endsLine_lines _).append (hComment.append (endsLine_constants _))

theorem refilled_constant {c : ConstDecl} (hc : c ∈ m.constants) (includes definitions : String) :
    refill (m.afterBody includes) c.source.toList <:+:
      (m.renderRoot includes definitions).toList := by
  obtain ⟨part, last, hText, hLast⟩ := (IsBlock.constant c).split
  rw [hText]
  exact refilled_body (stands_constant hc hText) hLast

/-- The source of a generated module, and its files, hold its constants and its definitions; only
placeholders in these that are filled later are replaced. -/
theorem declarations_filled {model : Model} {options : GeneratorOptions}
    (h : generate model options = .ok m) :
    m.definitions =
      m.records.map RecordBinding.render ++ m.classes.map ClassBinding.render ∧
    (∀ c ∈ m.constants, Filled (m.afterBody m.headerComments) m.source c.source) ∧
    (∀ d ∈ m.definitions, Filled (m.afterDefinitions m.headerComments) m.source d) ∧
    ∀ maxLines,
      (∀ c ∈ m.constants, ∃ includes root, (m.toFiles maxLines).text? rootFile = some root ∧
        Filled (m.afterBody includes) root c.source) ∧
      ∀ d ∈ m.definitions,
        (∃ root, (m.toFiles maxLines).text? rootFile = some root ∧
          Filled (m.afterDefinitions m.headerComments) root d) ∨
        ∃ i chunk, (m.toFiles maxLines).text? (chunkFile i) = some chunk ∧
          Filled [("module_name", m.name)] chunk d := by
  have hBlock {d : String} (hd : d ∈ m.definitions) : IsBlock d := isBlock_definition h hd
  obtain ⟨hRecords, hClasses⟩ := sources_of_generate h
  refine ⟨?_, fun c hc => .of_refilled (refilled_constant hc _ _),
    fun d hd => .of_refilled (refilled_definition hd (hBlock hd) _), fun maxLines => ?_⟩
  · rw [definitions, List.map_congr_left hRecords, List.map_congr_left hClasses]
  have hFound {name text : String}
      (h : (name, text) ∈ m.sourceFiles (max maxLines leastLinesPerFile)) :
      (m.toFiles maxLines).text? name = some text := text?_toFiles (List.mem_cons_of_mem _ h)
  rcases m.sourceFiles_cases (max maxLines leastLinesPerFile) with hWhole | ⟨includes, hRoot, hRest⟩
  · rw [hWhole] at hFound
    have hRoot := hFound List.mem_cons_self
    exact ⟨fun c hc => ⟨_, _, hRoot, .of_refilled (refilled_constant hc _ _)⟩,
      fun d hd => .inl ⟨_, hRoot, .of_refilled (refilled_definition hd (hBlock hd) _)⟩⟩
  · refine ⟨fun c hc => ⟨includes, _, hFound hRoot, .of_refilled (refilled_constant hc _ _)⟩,
      fun d hd => ?_⟩
    obtain ⟨run, i, hMem, hRun⟩ := hRest d hd
    exact .inr ⟨i, _, hFound hMem, .of_refilled (refilled_chunk hRun (hBlock hd))⟩

/-- The library is filled last. If its text does not bring the placeholder back, no text with the
placeholder is in the source. -/
theorem rewritten_of_library {text : List Char} {first : Char} {rest : List Char}
    (hLibrary : (m.library.name ++ " " ++ m.library.version.getD "unversioned").toList =
      first :: rest)
    (hFirst : first ∉ placeholder "library") (hDollar : '$' ∉ first :: rest)
    (hText : placeholder "library" <:+: text) : ¬ text <:+: m.source.toList := by
  obtain ⟨earlier, hSource⟩ : ∃ earlier, m.source.toList =
      replaceFrom (placeholder "library") (first :: rest) 0
        (refill earlier moduleTemplate.toList) := by
    refine ⟨("classes_generator_definitions", trimmedEnd (Text.join "\n" m.definitions)) ::
      [("generator_version", generatorVersion), ("model_fingerprint", m.modelFingerprint),
        ("module_body", trimmedEnd m.body), ("module_name", m.name),
        ("includes", trimmedEnd m.headerComments)], ?_⟩
    rw [source, renderRoot_eq, String.toList_ofList, ← hLibrary, ← refill_concat]
    rfl
  rw [hSource]
  exact fun hInfix => not_infix_replaceFrom hFirst hDollar 0 _ (hText.trans hInfix)

/-- A constant whose text is a placeholder. -/
def samplePriced : Model where
  library := { name := "sample" }
  constants := [⟨"UNIT", .text "$library"⟩]

def samplePricedBindings : Module where
  name := "sample"
  library := { name := "sample" }
  modelFingerprint := samplePriced.fingerprint
  records := []
  classes := []
  constants := [⟨"UNIT", .text "$library"⟩]

theorem generate_samplePriced :
    generate samplePriced { moduleName := some "sample" } = .ok samplePricedBindings := by
  have hClasses : sortByPosition
      (fun c : ClassBinding => samplePriced.classPosition? c.className) [] = [] :=
    List.mergeSort_nil
  have hRecords : sortByPosition
      (fun r : RecordBinding => samplePriced.structPosition? r.structName) [] = [] :=
    List.mergeSort_nil
  have hConstants : Model.sortConstants samplePriced.constants = samplePriced.constants :=
    List.mergeSort_of_pairwise (by decide)
  calc
    generate samplePriced { moduleName := some "sample" } =
        assemble samplePriced { moduleName := some "sample" } [] [] samplePriced.constants := rfl
    _ = .ok samplePricedBindings := by
      rw [assemble, hClasses, hRecords, hConstants]
      rfl

theorem declarations_filled_sample :
    generate samplePriced { moduleName := some "sample" } = .ok samplePricedBindings ∧
    ∀ c ∈ samplePricedBindings.constants,
      Filled (samplePricedBindings.afterBody samplePricedBindings.headerComments)
        samplePricedBindings.source c.source := by
  obtain ⟨-, hConstants, -, -⟩ := declarations_filled generate_samplePriced
  exact ⟨generate_samplePriced, hConstants⟩

/-- The text of a constant is rewritten. -/
theorem constant_rewritten : samplePriced.Accepted ∧
    generate samplePriced { moduleName := some "sample" } = .ok samplePricedBindings ∧
    ∃ c ∈ samplePricedBindings.constants,
      ¬ c.source.toList <:+: samplePricedBindings.source.toList := by
  have hModel : samplePriced.Accepted := by
    have hNew : Model.new { name := "sample" } [] [] =
        .ok { library := { name := "sample" } } := rfl
    have hConstants : Model.sortConstants samplePriced.constants = samplePriced.constants :=
      List.mergeSort_of_pairwise (by decide)
    have hAdded : Model.withConstants { library := { name := "sample" } } samplePriced.constants =
        .ok samplePriced := by
      rw [Model.withConstants, hConstants]
      rfl
    exact .withConstants (.new hNew) hAdded
  refine ⟨hModel, generate_samplePriced, _, List.mem_singleton.mpr rfl, ?_⟩
  have hLibrary : ("sample" ++ " " ++ "unversioned").toList =
      's' :: "ample unversioned".toList := rfl
  have hText : placeholder "library" <:+: (ConstDecl.mk "UNIT" (.text "$library")).source.toList :=
    ⟨"pub const UNIT: &str = \"".toList, "\";\n".toList, rfl⟩
  exact rewritten_of_library hLibrary (by decide) (by decide) hText

end Module

end NativeBinding
