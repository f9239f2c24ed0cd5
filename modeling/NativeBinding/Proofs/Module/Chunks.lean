import Mathlib.Algebra.Order.BigOperators.Group.List
import Mathlib.Algebra.Order.Group.Nat
import NativeBinding.Proofs.Module.Assembly
import NativeBinding.Proofs.Module.Lines
import NativeBinding.Proofs.Module.Verbatim
import NativeBinding.Proofs.Source.OneLine

/-! # Modules in numbered files

A module over its line limit is spread over numbered files. These hold its definitions in order, a
run of consecutive ones each, and the root file takes them in by number. A run grows only while its
file stays below the limit; what the loop counts for it is what the file has, because the template
and the name of the module add no lines of their own.
-/

set_option autoImplicit false

namespace NativeBinding

open Source

theorem Text.contains_iff_infix {part text : List Char} :
    Text.contains part text = true ↔ part <:+: text := by
  induction text with
  | nil => simp [contains]
  | cons c text ih =>
    rw [contains, Bool.or_eq_true, ih, List.isPrefixOf_iff_prefix, List.infix_cons_iff]

theorem infix_append_newline {part text rest : List Char} (hPart : '\n' ∉ part)
    (h : part <:+: text ++ '\n' :: rest) : part <:+: text ∨ part <:+: rest := by
  induction text with
  | nil =>
    rcases List.infix_cons_iff.mp h with hPrefix | hInfix
    · cases part with
      | nil => exact .inl (List.nil_infix)
      | cons c part =>
        obtain ⟨rfl, -⟩ := List.cons_prefix_cons.mp hPrefix
        exact absurd List.mem_cons_self hPart
    · exact .inr hInfix
  | cons c text ih =>
    rcases List.infix_cons_iff.mp h with hPrefix | hInfix
    · have hHere : part.isPrefixOf (c :: text ++ '\n' :: rest) = true :=
        List.isPrefixOf_iff_prefix.mpr hPrefix
      rw [isPrefixOf_append_cons hPart] at hHere
      exact .inl (List.isPrefixOf_iff_prefix.mp hHere).isInfix
    · exact (ih hInfix).imp_left List.infix_cons

theorem not_infix_join {part : List Char} {texts : List String} (hPart : '\n' ∉ part)
    (h : ∀ text ∈ texts, ¬ part <:+: text.toList) (hTexts : texts ≠ []) :
    ¬ part <:+: (Text.join "\n" texts).toList := by
  induction texts with
  | nil => exact absurd rfl hTexts
  | cons text texts ih =>
    rw [List.forall_mem_cons] at h
    cases texts with
    | nil => exact h.1
    | cons next texts =>
      have hSplit : (Text.join "\n" (text :: next :: texts)).toList =
          text.toList ++ '\n' :: (Text.join "\n" (next :: texts)).toList := by
        simp [Text.join]
      rw [hSplit]
      intro hInfix
      rcases infix_append_newline hPart hInfix with hInfix | hInfix
      · exact h.1 hInfix
      · exact ih h.2 (List.cons_ne_nil _ _) hInfix

namespace Module

variable {m : Module} {limit : Nat}

theorem name_of_generate {model : Model} {options : GeneratorOptions}
    (h : generate model options = .ok m) : Text.isIdentifier m.name = true := by
  obtain ⟨g, -, h⟩ := bind_eq_ok_iff.mp h
  obtain ⟨classes, -, h⟩ := bind_eq_ok_iff.mp h
  obtain ⟨_, hName, rfl⟩ := eq_arranged_of_assemble h
  obtain ⟨rfl, hIdentifier⟩ := GeneratorOptions.moduleNameFor_eq_ok_iff.mp hName
  exact hIdentifier

/-- The definitions have the last line of the template, and no other line has a place for them. -/
theorem chunkTemplate_split : ∃ head,
    chunkTemplate.toList =
      head ++ '\n' :: (placeholder "classes_generator_definitions" ++ ['\n']) ∧
    ¬ placeholder "classes_generator_definitions" <:+: head := by
  -- The lines are taken as characters, so that none has to be decoded to search it.
  obtain ⟨texts, hTemplate, hTexts, hFree⟩ : ∃ texts : List (List Char),
      chunkTemplate = lines (texts.map String.ofList ++ ["$classes_generator_definitions"]) ∧
        texts ≠ [] ∧
        ∀ text ∈ texts, Text.contains (placeholder "classes_generator_definitions") text = false :=
    ⟨[_, _, _, _, _, _, _], rfl, List.cons_ne_nil _ _, by decide +kernel⟩
  have hSome : texts.map String.ofList ≠ [] := by simpa using hTexts
  refine ⟨(Text.join "\n" (texts.map String.ofList)).toList, ?_,
    not_infix_join (by decide) (fun text hText => ?_) hSome⟩
  · have hLines : lines (texts.map String.ofList ++ ["$classes_generator_definitions"]) =
        lines (texts.map String.ofList) ++ lines ["$classes_generator_definitions"] := by
      simp [lines, String.join_append]
    have hLast : (lines ["$classes_generator_definitions"]).toList =
        placeholder "classes_generator_definitions" ++ ['\n'] := rfl
    rw [hTemplate, hLines, String.toList_append, toList_lines hSome, hLast]
    simp
  · obtain ⟨text, hMem, rfl⟩ := List.mem_map.mp hText
    rw [← Text.contains_iff_infix, String.toList_ofList, hFree text hMem]
    exact Bool.false_ne_true

theorem lineCount_renderChunk (hName : '\n' ∉ m.name.toList) (chunk : String) :
    lineCount (m.renderChunk chunk) = lineCount chunkTemplate + chunk.toList.count '\n' := by
  obtain ⟨head, hTemplate, hFree⟩ := chunkTemplate_split
  have hKeys : ∀ entry ∈ [("classes_generator_definitions", chunk), ("module_name", m.name)],
      '\n' ∉ placeholder entry.1 := by
    simp only [List.forall_mem_cons]
    exact ⟨by decide, by decide, List.forall_mem_nil _⟩
  have hNames : ∀ entry ∈ [("module_name", m.name)],
      '\n' ∉ placeholder entry.1 ∧ '\n' ∉ entry.2.toList := by
    simpa using ⟨by decide, hName⟩
  have hHead : refill [("classes_generator_definitions", chunk), ("module_name", m.name)] head =
      refill [("module_name", m.name)] head := by
    rw [refill, List.foldl_cons, replaceFrom_eq_self hFree]
    rfl
  have hChunk : refill [("classes_generator_definitions", chunk), ("module_name", m.name)]
      (placeholder "classes_generator_definitions") =
        refill [("module_name", m.name)] chunk.toList :=
    @refill_placeholder [] _ _ _ (List.forall_mem_nil _)
  have hRendered : (m.renderChunk chunk).toList =
      refill [("module_name", m.name)] head ++
        '\n' :: refill [("module_name", m.name)] chunk.toList ++ ['\n'] := by
    rw [renderChunk_eq, String.toList_ofList, hTemplate, refill_append_cons hKeys,
      refill_append_cons hKeys, refill_nil, hHead, hChunk]
    simp
  have hTemplateEnds : EndsLine chunkTemplate.toList := endsLine_lines _
  have hNone : '\n' ∉ placeholder "classes_generator_definitions" := by decide
  rw [lineCount_of_endsLine (.inr ⟨_, hRendered.symm⟩), lineCount_of_endsLine hTemplateEnds,
    hRendered, hTemplate]
  simp only [List.count_append, List.count_cons, List.count_nil, count_newline_refill hNames,
    List.count_eq_zero_of_not_mem hNone]
  omega

/-- What a run counts towards its file: the lines of its definitions, and one more for each. -/
def counted (run : List String) : Nat :=
  (run.map fun d => lineCount d + 1).sum

/-- A run that is not below the limit has no second definition. -/
def BelowLimit (limit : Nat) (run : List String) : Prop :=
  1 < run.length → lineCount chunkTemplate + counted run ≤ limit

theorem belowLimit_of_length_le {run : List String} (h : run.length ≤ 1) : BelowLimit limit run :=
  fun hMany => absurd hMany (Nat.not_lt.mpr h)

theorem counted_reverse (run : List String) : counted run.reverse = counted run := by
  rw [counted, List.map_reverse, List.sum_reverse]
  rfl

theorem BelowLimit.reverse {run : List String} (h : BelowLimit limit run) :
    BelowLimit limit run.reverse := by
  rw [BelowLimit, List.length_reverse, counted_reverse]
  exact h

/-- The loop carries what its run counts, and closes the run before it would leave the limit. -/
theorem belowLimit_runsGo {definitions run : List String} (hRun : BelowLimit limit run) :
    ∀ r ∈ runs.go limit run (counted run) definitions, r ≠ [] ∧ BelowLimit limit r := by
  -- On what is left, from any run: the next definition joins the run or closes it.
  induction definitions generalizing run with
  | nil =>
    rw [runs.go]
    split
    · exact List.forall_mem_nil _
    · rename_i hSome
      rw [List.isEmpty_iff] at hSome
      exact List.forall_mem_singleton.mpr ⟨by simpa using hSome, hRun.reverse⟩
  | cons d definitions ih =>
    rw [runs.go]
    split
    · rename_i hClose
      simp only [Bool.and_eq_true, Bool.not_eq_true', List.isEmpty_eq_false_iff] at hClose
      refine List.forall_mem_cons.mpr ⟨⟨by simpa using hClose.1, hRun.reverse⟩, ?_⟩
      have hOne : counted [d] = lineCount d + 1 := by simp [counted]
      rw [← hOne]
      exact ih (belowLimit_of_length_le (Nat.le_refl 1))
    · rename_i hOpen
      have hMore : counted (d :: run) = counted run + (lineCount d + 1) := by
        simp only [counted, List.map_cons, List.sum_cons]
        omega
      have hBelow : BelowLimit limit (d :: run) := by
        intro hMany
        have hSome : run.isEmpty = false := by
          cases run with
          | nil => simp at hMany
          | cons e run => rfl
        simp only [hSome, Bool.not_false, Bool.true_and, decide_eq_true_eq, Nat.not_lt] at hOpen
        rw [hMore]
        omega
      rw [← hMore]
      exact ih hBelow

theorem belowLimit_runs (definitions : List String) :
    ∀ r ∈ runs limit definitions, r ≠ [] ∧ BelowLimit limit r :=
  @belowLimit_runsGo _ _ [] (belowLimit_of_length_le (Nat.zero_le 1))

theorem lineCount_renderChunk_join_lt (hName : '\n' ∉ m.name.toList) {run : List String}
    (hSome : run ≠ []) :
    lineCount (m.renderChunk (Text.join "\n" run)) < lineCount chunkTemplate + counted run := by
  have hCount : (run.map fun d => d.toList.count '\n' + 1).sum ≤ counted run :=
    List.sum_le_sum fun d _ => Nat.succ_le_succ (count_newline_le_lineCount d)
  have hJoin := count_newline_join hSome
  rw [lineCount_renderChunk hName]
  omega

/-- A module spread over files, its definitions cut into runs. -/
structure Spread (m : Module) (limit : Nat) (files : FileSet) (runs : List (List String)) :
    Prop where
  definitions : runs.flatten =
    m.records.map RecordBinding.source ++ m.classes.map ClassBinding.source
  nonempty : ∀ run ∈ runs, run ≠ []
  names : files.names.Perm ("surface.json" :: "module.rs" ::
    (List.range runs.length).map fun i => "classes_" ++ Text.natural i ++ ".rs")
  chunk : ∀ i run, runs[i]? = some run →
    files.text? ("classes_" ++ Text.natural i ++ ".rs") =
      some (m.renderChunk (Text.join "\n" run))
  root : files.text? "module.rs" = some (m.renderRoot
    (String.join (m.library.headers.map fun header => "// native header: " ++ header ++ "\n") ++
      String.join ((List.range runs.length).map fun i =>
        "mod classes_" ++ Text.natural i ++ ";\n" ++
          "pub use classes_" ++ Text.natural i ++ "::*;\n")) "")
  bounded : ∀ i run text, runs[i]? = some run → 1 < run.length →
    files.text? ("classes_" ++ Text.natural i ++ ".rs") = some text → lineCount text ≤ limit

theorem lines_flatMap {α : Type} (f : α → List String) (xs : List α) :
    lines (xs.flatMap f) = String.join (xs.map fun x => lines (f x)) := by
  induction xs with
  | nil => rfl
  | cons x xs ih =>
    rw [List.map_cons, String.join_cons, ← ih]
    simp [lines, String.join_append]

theorem includes_eq (m : Module) (count : Nat) :
    m.includes count =
      String.join (m.library.headers.map fun header => "// native header: " ++ header ++ "\n") ++
        String.join ((List.range count).map fun i =>
          "mod classes_" ++ Text.natural i ++ ";\n" ++
            "pub use classes_" ++ Text.natural i ++ "::*;\n") := by
  have hHeaders : m.headerComments =
      String.join (m.library.headers.map fun header => "// native header: " ++ header ++ "\n") := by
    rw [headerComments, lines, List.map_map]
    rfl
  have hPair (i : Nat) :
      lines ["mod " ++ chunkName i ++ ";", "pub use " ++ chunkName i ++ "::*;"] =
        "mod classes_" ++ Text.natural i ++ ";\n" ++
          "pub use classes_" ++ Text.natural i ++ "::*;\n" :=
    String.toList_injective (by simp [lines, chunkName])
  simp only [includes, hHeaders, lines_flatMap, hPair]

theorem sourceFiles_of_lt (h : limit < lineCount m.source) :
    m.sourceFiles limit =
      (rootFile, m.renderRoot (m.includes (runs limit m.definitions).length) "") ::
        (runs limit m.definitions).zipIdx.map fun (run, i) =>
          (chunkFile i, m.renderChunk (Text.join "\n" run)) := by
  simp only [sourceFiles, if_neg (Nat.not_le.mpr h), chunks, List.length_map, List.zipIdx_map,
    List.map_map]
  rfl

/-- A module whose source is over the line limit is spread over numbered files. -/
theorem spread_of_generate {model : Model} {options : GeneratorOptions} {maxLines : Nat}
    (hGenerated : generate model options = .ok m)
    (hLong : max maxLines 200 < lineCount m.source) :
    ∃ runs, m.Spread (max maxLines 200) (m.toFiles maxLines) runs := by
  have hName : '\n' ∉ m.name.toList :=
    Text.notMem_of_isIdentifier (name_of_generate hGenerated) (by decide)
  have hFiles := sourceFiles_of_lt hLong
  have hFound {name text : String} (h : (name, text) ∈ m.sourceFiles (max maxLines 200)) :
      (m.toFiles maxLines).text? name = some text := text?_toFiles (List.mem_cons_of_mem _ h)
  have hChunk {i : Nat} {run : List String}
      (hRun : (runs (max maxLines 200) m.definitions)[i]? = some run) :
      (m.toFiles maxLines).text? (chunkFile i) = some (m.renderChunk (Text.join "\n" run)) := by
    refine hFound ?_
    rw [hFiles]
    exact List.mem_cons_of_mem _ (List.mem_map.mpr
      ⟨(run, i), List.mem_zipIdx_iff_getElem?.mpr hRun, rfl⟩)
  refine ⟨runs (max maxLines 200) m.definitions, flatten_runs _, fun run hRun => ?_, ?_,
    fun i run => hChunk, ?_, fun i run text hRun hMany hText => ?_⟩
  · exact (belowLimit_runs _ run hRun).1
  · have hNumbered : (List.range (runs (max maxLines 200) m.definitions).length).map chunkFile =
        ((runs (max maxLines 200) m.definitions).zipIdx.map fun (run, i) =>
          (chunkFile i, m.renderChunk (Text.join "\n" run))).map Prod.fst := by
      rw [List.range_eq_range', ← List.zipIdx_map_snd 0, List.map_map, List.map_map]
      rfl
    refine ((List.mergeSort_perm _ _).map Prod.fst).trans (.of_eq ?_)
    rw [List.map_cons, leastLinesPerFile, hFiles, List.map_cons, ← hNumbered]
    rfl
  · refine hFound ?_
    rw [hFiles, includes_eq]
    exact List.mem_cons_self
  · obtain ⟨hSome, hBelowLimit⟩ := belowLimit_runs _ run (List.mem_of_getElem? hRun)
    obtain rfl := Option.some.inj ((hChunk hRun).symm.trans hText)
    have hLess := lineCount_renderChunk_join_lt (m := m) hName hSome
    have hCounted := hBelowLimit hMany
    omega

def sampleStructs : List StructDecl :=
  [⟨"Quote", [⟨"bid", .scalar .f64⟩]⟩, ⟨"Level", [⟨"price", .scalar .f64⟩]⟩]

def sampleRecords : List RecordBinding :=
  sampleStructs.map fun s =>
    .rendered { structName := s.name, exposedName := s.name, fields := s.fields }

def sampleBanner (headers : List String) : Model where
  library := { name := "sample", headers }
  structs := sampleStructs

def sampleBannerGenerator (headers : List String) : Generator where
  model := sampleBanner headers
  options := { moduleName := some "sample" }
  filter := { isIgnored := fun _ => false, isNoCallback := fun _ => false }

def sampleBannerBindings (headers : List String) : Module where
  name := "sample"
  library := { name := "sample", headers }
  modelFingerprint := (sampleBanner headers).fingerprint
  records := sampleRecords
  classes := []
  constants := []

theorem generate_sampleBanner (headers : List String) :
    generate (sampleBanner headers) { moduleName := some "sample" } =
      .ok (sampleBannerBindings headers) := by
  have hNew : Model.new { name := "sample", headers } sampleStructs [] =
      .ok (sampleBanner headers) := rfl
  have hGenerator : Generator.new (sampleBanner headers) { moduleName := some "sample" } =
      .ok (sampleBannerGenerator headers) := rfl
  -- Neither name check reads the headers, and both are evaluated without them.
  have hName : ({ moduleName := some "sample" } : GeneratorOptions).moduleNameFor "sample" =
      .ok "sample" := rfl
  have hNames : checkNames (ownItems.map (·, "module"))
      (sampleBannerBindings []).exposedNames = .ok () := rfl
  rw [generate_of_accepted (.new hNew)]
  exact bind_eq_ok_iff.mpr ⟨_, hGenerator, bind_eq_ok_iff.mpr ⟨[], rfl, bind_eq_ok_iff.mpr
    ⟨_, hName, bind_eq_ok_iff.mpr ⟨(), hNames, rfl⟩⟩⟩⟩

theorem count_headerComments_le {part : List Char} {last : Char}
    (hText : m.headerComments.toList = part ++ [last] ++ ['\n'])
    (hLast : Text.isBlank last = false)
    (hLibrary : '\n' ∉ (m.library.name ++ " " ++ m.library.version.getD "unversioned").toList) :
    m.headerComments.toList.count '\n' ≤ lineCount m.source := by
  have hValue : Stands (part ++ [last]) (trimmedEnd m.headerComments).toList := by
    rw [trimmedEnd, String.toList_ofList]
    exact .trimEnd hLast ⟨[], ['\n'], by simpa using hText, .inl rfl, .inr (List.prefix_refl _)⟩
  obtain ⟨texts, hTemplate, hLine⟩ :
      ∃ texts, moduleTemplate = lines texts ∧ "$includes" ∈ texts := ⟨_, rfl, by simp⟩
  let before : List (String × String) :=
    [("classes_generator_definitions", trimmedEnd (Text.join "\n" m.definitions)),
      ("generator_version", generatorVersion), ("model_fingerprint", m.modelFingerprint),
      ("module_body", trimmedEnd m.body), ("module_name", m.name)]
  have hFilled : refill
      [("library", m.library.name ++ " " ++ m.library.version.getD "unversioned")]
        (part ++ [last] ++ ['\n']) <:+: m.source.toList := by
    have hSource : m.source = String.ofList (refill (before ++ ("includes", _) :: [("library", _)])
        moduleTemplate.toList) := renderRoot_eq _ _
    rw [hSource, String.toList_ofList, hTemplate]
    exact infix_refill before _ "includes" _ "$includes" rfl hLine hValue
      ["classes_generator_definitions", "generator_version", "model_fingerprint", "module_body",
        "module_name"] ["library"] rfl rfl (by decide +kernel) (by decide) (by decide)
  have hKey : '\n' ∉ placeholder "library" := by decide
  have hLines : (refill
      [("library", m.library.name ++ " " ++ m.library.version.getD "unversioned")]
        (part ++ [last] ++ ['\n'])).count '\n' = m.headerComments.toList.count '\n' := by
    rw [hText]
    refine count_newline_refill (fun entry hEntry => ?_) _
    obtain rfl := List.mem_singleton.mp hEntry
    exact ⟨hKey, hLibrary⟩
  rw [← hLines]
  exact (hFilled.sublist.count_le '\n').trans (count_newline_le_lineCount _)

theorem sampleBanner_long :
    max 0 200 < lineCount (sampleBannerBindings (List.replicate 201 "api.h")).source := by
  have hComments (n : Nat) : (sampleBannerBindings (List.replicate n "api.h")).headerComments =
      lines (List.replicate n "// native header: api.h") := by
    rw [headerComments, sampleBannerBindings, List.map_replicate]
    rfl
  have hSplit (n : Nat) : (lines (List.replicate (n + 1) "// native header: api.h")).toList =
      (lines (List.replicate n "// native header: api.h")).toList ++
        "// native header: api.".toList ++ ['h'] ++ ['\n'] := by
    simp [lines, String.join_append, List.replicate_succ']
  have hCount : (lines (List.replicate 201 "// native header: api.h")).toList.count '\n' = 201 :=
    (count_newline_lines fun text hText => by
      rw [List.eq_of_mem_replicate hText]
      decide).trans List.length_replicate
  have hText := hSplit 200
  rw [← hComments] at hText
  have hLines := count_headerComments_le hText (by decide) (by decide)
  rw [hComments, hCount] at hLines
  exact Nat.lt_of_lt_of_le (by decide) hLines

theorem spread_sample :
    generate (sampleBanner (List.replicate 201 "api.h")) { moduleName := some "sample" } =
        .ok (sampleBannerBindings (List.replicate 201 "api.h")) ∧
      max 0 200 < lineCount (sampleBannerBindings (List.replicate 201 "api.h")).source ∧
      ∃ runs, (sampleBannerBindings (List.replicate 201 "api.h")).Spread (max 0 200)
        ((sampleBannerBindings (List.replicate 201 "api.h")).toFiles 0) runs :=
  ⟨generate_sampleBanner _, sampleBanner_long,
    spread_of_generate (generate_sampleBanner _) sampleBanner_long⟩

end Module

end NativeBinding
