import NativeBinding.Proofs.Module.Chunks

/-! # The length of the root file

When a module is split, only its definitions leave the root file. The header comments, the constants
and the tables of exposed names stay, and two lines come for each numbered file, so that the root
file of a large library is over any line limit.
-/

set_option autoImplicit false

namespace NativeBinding

open Source

namespace Digest.Sha256

theorem notMem_ofText {mark : Char} (hMark : mark ∉ Text.Quoted.escapeChars) (text : String) :
    mark ∉ (ofText text).toList := by
  have hByte (b : UInt8) : mark ∉ Text.Quoted.hexByte b := by
    intro hMem
    have hDigit {n : Nat} (h : n < 16) : mark ≠ Text.Quoted.hexDigit n := by
      rintro rfl
      exact hMark (Text.Quoted.hexDigit_mem h)
    have hLess := b.toNat_lt
    simp only [Text.Quoted.hexByte, List.mem_cons, List.not_mem_nil, or_false] at hMem
    rcases hMem with hHigh | hLow
    · exact hDigit (by omega) hHigh
    · exact hDigit (by omega) hLow
  rw [ofText, hex, String.toList_ofList, List.mem_flatMap]
  rintro ⟨b, -, hMem⟩
  exact hByte b hMem

end Digest.Sha256

namespace Module

variable {m : Module}

/-- The lines of the root file that take headers and numbered files in. -/
def includeLines (m : Module) (chunks : Nat) : List String :=
  m.library.headers.map ("// native header: " ++ ·) ++
    (List.range chunks).flatMap fun i =>
      ["mod " ++ chunkName i ++ ";", "pub use " ++ chunkName i ++ "::*;"]

def tableLines (item : String) (names : List String) : List String :=
  ["pub const " ++ item ++ ": &[&str] = &["] ++
    names.map (fun name => "    " ++ Text.Quoted.encode name ++ ",") ++ ["];"]

def constantLines (m : Module) : List String :=
  if m.constants.isEmpty then []
  else ["// Declared constants."] ++ m.constants.map ConstDecl.line ++ [""]

/-- The lines of the body of a module but the last one. -/
def bodyLines (m : Module) : List String :=
  ["pub const MODULE_NAME: &str = " ++ Text.Quoted.encode m.name ++ ";",
    "pub const MODEL_FINGERPRINT: &str = " ++ Text.Quoted.encode m.modelFingerprint ++ ";", ""] ++
  m.constantLines ++ ["/// Exposed records in registration order."] ++
  tableLines "RECORDS" (m.records.map (·.exposedName)) ++
  ["", "/// Exposed classes in registration order."] ++
  tableLines "CLASSES" (m.classes.map (·.exposedName)) ++
  ["", "/// Surface description for `LoadedModule::load`."]

def surfaceLine : String :=
  "pub const SURFACE_JSON: &str = include_str!(" ++ Text.Quoted.encode surfaceFile ++ ");"

/-- What the root file of a split module has to hold: 29 lines of its template and its body, one for
each header, constant, record and class, and two for each numbered file. -/
def leastRootLines (m : Module) (chunks : Nat) : Nat :=
  29 + (m.library.headers.length + 2 * chunks - 1) +
    (if m.constants.isEmpty then 0 else m.constants.length + 2) +
      m.records.length + m.classes.length

/-- Nothing in a module brings ends of lines or placeholders of its own. -/
structure Plain (m : Module) : Prop where
  library : '\n' ∉ (m.library.name ++ " " ++ m.library.version.getD "unversioned").toList
  headers : ∀ header ∈ m.library.headers, '\n' ∉ header.toList
  constants : ∀ c ∈ m.constants, ¬ c.value.HasDollar

theorem includes_eq_lines (m : Module) (chunks : Nat) :
    m.includes chunks = lines (m.includeLines chunks) := by
  rw [includes, headerComments, includeLines, lines_append]

theorem lines_constantLines (m : Module) :
    lines m.constantLines = if m.constants.isEmpty then ""
      else
        "// Declared constants.\n" ++ String.join (m.constants.map ConstDecl.source) ++ "\n" := by
  have hSources (constants : List ConstDecl) :
      lines (constants.map ConstDecl.line) = String.join (constants.map ConstDecl.source) := by
    induction constants with
    | nil => rfl
    | cons c constants ih =>
      have hOne : lines (c.line :: constants.map ConstDecl.line) =
          c.source ++ lines (constants.map ConstDecl.line) :=
        String.toList_injective (by simp [ConstDecl.source_eq, lines])
      rw [List.map_cons, List.map_cons, String.join_cons, hOne, ih]
  unfold constantLines
  split
  · rfl
  · rw [lines_append, lines_append, hSources]
    rfl

theorem body_eq_lines (m : Module) : m.body = lines (m.bodyLines ++ [surfaceLine]) := by
  have hBody : m.body =
      lines ["pub const MODULE_NAME: &str = " ++ Text.Quoted.encode m.name ++ ";",
        "pub const MODEL_FINGERPRINT: &str = " ++ Text.Quoted.encode m.modelFingerprint ++ ";",
        ""] ++
      (if m.constants.isEmpty then "" else "// Declared constants.\n" ++
        String.join (m.constants.map ConstDecl.source) ++ "\n") ++
      lines (["/// Exposed records in registration order."] ++
        tableLines "RECORDS" (m.records.map (·.exposedName)) ++
        ["", "/// Exposed classes in registration order."] ++
        tableLines "CLASSES" (m.classes.map (·.exposedName)) ++
        ["", "/// Surface description for `LoadedModule::load`.", surfaceLine]) := rfl
  rw [hBody, ← lines_constantLines, ← lines_append, ← lines_append, bodyLines]
  simp only [List.append_assoc, List.cons_append, List.nil_append]

theorem length_includeLines (m : Module) (chunks : Nat) :
    (m.includeLines chunks).length = m.library.headers.length + 2 * chunks := by
  have hPairs (numbers : List Nat) :
      (numbers.flatMap fun i =>
        ["mod " ++ chunkName i ++ ";", "pub use " ++ chunkName i ++ "::*;"]).length =
        2 * numbers.length := by
    induction numbers with
    | nil => rfl
    | cons i numbers ih =>
      rw [List.flatMap_cons, List.length_append, ih, List.length_cons]
      simp only [List.length_cons, List.length_nil]
      omega
  rw [includeLines, List.length_append, List.length_map, hPairs, List.length_range]

theorem length_bodyLines (m : Module) :
    m.bodyLines.length = 12 + (if m.constants.isEmpty then 0 else m.constants.length + 2) +
      m.records.length + m.classes.length := by
  have hConstants : m.constantLines.length =
      if m.constants.isEmpty then 0 else m.constants.length + 2 := by
    unfold constantLines
    split
    · rfl
    · simp
  simp only [bodyLines, tableLines, List.length_append, List.length_cons, List.length_nil,
    List.length_map, hConstants]
  omega

theorem exists_of_mem_includeLines {chunks : Nat} {line : String}
    (h : line ∈ m.includeLines chunks) : ∃ c ∈ line.toList, Text.isBlank c = false := by
  simp only [includeLines, List.mem_append, List.mem_map, List.mem_flatMap, List.mem_cons,
    List.not_mem_nil, or_false] at h
  rcases h with ⟨header, -, rfl⟩ | ⟨i, -, rfl | rfl⟩
  · exact ⟨'/', by simp, by decide⟩
  · exact ⟨'m', by simp, by decide⟩
  · exact ⟨'p', by simp, by decide⟩

theorem newline_notMem_includeLines (hHeaders : ∀ header ∈ m.library.headers, '\n' ∉ header.toList)
    {chunks : Nat} {line : String} (h : line ∈ m.includeLines chunks) : '\n' ∉ line.toList := by
  have hNumber (i : Nat) : '\n' ∉ (chunkName i).toList := by
    have hDigits : '\n' ∉ (Text.natural i).toList := by
      rw [Text.natural, String.toList_ofList]
      intro hMem
      have hInteger : '\n' ∈ Text.integerChars (i : Int) := by
        rw [Text.integerChars, if_neg (Int.not_lt.mpr (Int.natCast_nonneg i))]
        exact hMem
      have hMark := Ieee.Spelling.isMark_of_mem_integerChars hInteger
      exact absurd hMark (by decide)
    simp [chunkName, hDigits]
  simp only [includeLines, List.mem_append, List.mem_map, List.mem_flatMap, List.mem_cons,
    List.not_mem_nil, or_false] at h
  rcases h with ⟨header, hMem, rfl⟩ | ⟨i, -, rfl | rfl⟩
  · simp [hHeaders header hMem]
  · simp [hNumber i]
  · simp [hNumber i]

theorem identifier_of_generate {model : Model} {options : GeneratorOptions}
    (h : generate model options = .ok m) {n : String × String} (hn : n ∈ m.exposedNames) :
    Text.isIdentifier n.1 = true :=
  (isItemName_iff.mp ((checkNames_eq_ok_iff.mp (checkNames_of_generate h)).1 n hn).2).1

/-- A line that has neither an end of line nor a placeholder. -/
def IsClean (line : String) : Prop :=
  '\n' ∉ line.toList ∧ '$' ∉ line.toList

/-- The characters of a text that is written out are read off it, and not decoded from its bytes. -/
theorem isClean_ofList {text : String} {chars : List Char} (hText : text = String.ofList chars)
    (hChars : '\n' ∉ chars ∧ '$' ∉ chars) : IsClean text := by
  rw [IsClean, hText, String.toList_ofList]
  exact hChars

theorem isClean_quoted {before name after : String} (hBefore : IsClean before)
    (hAfter : IsClean after) (hName : '$' ∉ name.toList) :
    IsClean (before ++ Text.Quoted.encode name ++ after) := by
  have hLine := Text.Quoted.newline_notMem_encode name
  have hDollar := Text.Quoted.dollar_notMem_encode hName
  simp [IsClean, hBefore.1, hBefore.2, hAfter.1, hAfter.2, hLine, hDollar]

theorem isClean_tableLines (item : String) (hItem : IsClean item) {names : List String}
    (hNames : ∀ name ∈ names, Text.isIdentifier name = true) :
    ∀ line ∈ tableLines item names, IsClean line := by
  simp only [tableLines, List.forall_mem_append, List.forall_mem_singleton, List.forall_mem_map]
  refine ⟨⟨?_, fun name hName => ?_⟩, isClean_ofList rfl (by decide)⟩
  · simp [IsClean, hItem.1, hItem.2]
  · exact isClean_quoted (isClean_ofList rfl (by decide)) (isClean_ofList rfl (by decide))
      (Text.notMem_of_isIdentifier (hNames name hName) (by decide))

theorem identifier_of_mem_records {model : Model} {options : GeneratorOptions}
    (h : generate model options = .ok m) :
    ∀ name ∈ m.records.map (·.exposedName), Text.isIdentifier name = true := by
  rw [List.forall_mem_map]
  intro r hr
  refine identifier_of_generate h (n := (r.exposedName, r.structName)) ?_
  simp only [exposedNames, List.mem_append]
  exact .inl (.inl (List.mem_map_of_mem hr))

theorem identifier_of_mem_classes {model : Model} {options : GeneratorOptions}
    (h : generate model options = .ok m) :
    ∀ name ∈ m.classes.map (·.exposedName), Text.isIdentifier name = true := by
  rw [List.forall_mem_map]
  intro c hc
  refine identifier_of_generate h (n := (c.exposedName, c.className)) ?_
  simp only [exposedNames, List.mem_append]
  exact .inl (.inr (List.mem_map_of_mem hc))

theorem identifier_of_mem_constants {model : Model} {options : GeneratorOptions}
    (h : generate model options = .ok m) {c : ConstDecl} (hc : c ∈ m.constants) :
    Text.isIdentifier c.name = true := by
  refine identifier_of_generate h (n := (c.name, c.name)) ?_
  simp only [exposedNames, List.mem_append]
  exact .inr (List.mem_map_of_mem hc)

theorem dollar_notMem_fingerprint {model : Model} {options : GeneratorOptions}
    (h : generate model options = .ok m) : '$' ∉ m.modelFingerprint.toList := by
  obtain ⟨_, _, -, -, -, -, hModel⟩ := generate_eq_ok h
  rw [hModel]
  exact Digest.Sha256.notMem_ofText (by decide) _

/-- A line without an end of line, and without a placeholder if no constant has one. -/
def IsBodyLine (m : Module) (line : String) : Prop :=
  '\n' ∉ line.toList ∧ ((∀ c ∈ m.constants, ¬ c.value.HasDollar) → '$' ∉ line.toList)

theorem IsClean.isBodyLine {line : String} (h : IsClean line) : m.IsBodyLine line :=
  ⟨h.1, fun _ => h.2⟩

theorem isClean_empty : IsClean "" :=
  ⟨by decide, by decide⟩

theorem isBodyLine_constantLines {model : Model} {options : GeneratorOptions}
    (h : generate model options = .ok m) : ∀ line ∈ m.constantLines, m.IsBodyLine line := by
  unfold constantLines
  split
  · exact List.forall_mem_nil _
  · simp only [List.forall_mem_append, List.forall_mem_singleton, List.forall_mem_map]
    refine ⟨⟨(isClean_ofList rfl (by decide)).isBodyLine, fun c hc => ?_⟩, isClean_empty.isBodyLine⟩
    obtain ⟨hLine, hDollar⟩ := ConstDecl.notMem_line (identifier_of_mem_constants h hc)
    exact ⟨hLine, fun hPlain => hDollar (hPlain c hc)⟩

theorem isBodyLine_bodyLines {model : Model} {options : GeneratorOptions}
    (h : generate model options = .ok m) :
    ∀ line ∈ m.bodyLines ++ [surfaceLine], m.IsBodyLine line := by
  have hEmpty : m.IsBodyLine "" := isClean_empty.isBodyLine
  have hRecordTable := isClean_tableLines "RECORDS" (isClean_ofList rfl (by decide))
    (identifier_of_mem_records h)
  have hClassTable := isClean_tableLines "CLASSES" (isClean_ofList rfl (by decide))
    (identifier_of_mem_classes h)
  have hNameLine : IsClean ("pub const MODULE_NAME: &str = " ++ Text.Quoted.encode m.name ++ ";") :=
    isClean_quoted (isClean_ofList rfl (by decide)) (isClean_ofList rfl (by decide))
      (Text.notMem_of_isIdentifier (name_of_generate h) (by decide))
  have hFingerprintLine : IsClean
      ("pub const MODEL_FINGERPRINT: &str = " ++ Text.Quoted.encode m.modelFingerprint ++ ";") :=
    isClean_quoted (isClean_ofList rfl (by decide)) (isClean_ofList rfl (by decide))
      (dollar_notMem_fingerprint h)
  have hFile : IsClean surfaceFile := isClean_ofList rfl (by decide)
  have hSurface : IsClean surfaceLine :=
    isClean_quoted (isClean_ofList rfl (by decide)) (isClean_ofList rfl (by decide)) hFile.2
  simp only [bodyLines, List.forall_mem_append, List.forall_mem_cons, List.not_mem_nil,
    false_implies, implies_true, and_true]
  exact ⟨⟨⟨⟨⟨⟨⟨⟨hNameLine.isBodyLine, hFingerprintLine.isBodyLine, hEmpty⟩,
    isBodyLine_constantLines h⟩, (isClean_ofList rfl (by decide)).isBodyLine⟩,
    fun line hLine => (hRecordTable line hLine).isBodyLine⟩,
    hEmpty, (isClean_ofList rfl (by decide)).isBodyLine⟩,
    fun line hLine => (hClassTable line hLine).isBodyLine⟩, hEmpty,
    (isClean_ofList rfl (by decide)).isBodyLine⟩, hSurface.isBodyLine⟩

/-- The lines of the root template: two with placeholders in them, three that are placeholders. -/
theorem moduleTemplate_split : ∃ plain : List String,
    moduleTemplate = lines
      (["//! Bindings for the `$library` native library, module `$module_name`.", "//!",
        "//! Generated by spibind $generator_version from declarations $model_fingerprint."] ++
        plain ++ ["$includes", "", "$classes_generator_definitions", "", "$module_body"]) ∧
      plain.length = 9 ∧ ∀ text ∈ plain, IsClean text := by
  refine ⟨[_, _, _, _, _, _, _, _, _], rfl, rfl, ?_⟩
  simp only [List.forall_mem_cons, List.not_mem_nil, false_implies, implies_true, and_true]
  exact ⟨isClean_ofList rfl (by decide), isClean_ofList rfl (by decide),
    isClean_ofList rfl (by decide), isClean_ofList rfl (by decide),
    isClean_ofList rfl (by decide), isClean_ofList rfl (by decide),
    isClean_ofList rfl (by decide), isClean_ofList rfl (by decide),
    isClean_ofList rfl (by decide)⟩

section Root

variable {includes : String}

/-- The placeholders of a root file that holds no definitions, in the order they are filled. -/
def rootValues (m : Module) (includes : String) : List (String × String) :=
  ("classes_generator_definitions", trimmedEnd "") :: m.afterDefinitions includes

theorem notMem_rootKeys {mark : Char} (hMark : mark ∈ ['\n', '\x60', ' ', '.']) :
    ∀ entry ∈ m.rootValues includes, mark ∉ placeholder entry.1 := by
  have hKeys : ∀ key ∈ "classes_generator_definitions" :: keysAfterDefinitions,
      ∀ c ∈ ['\n', '\x60', ' ', '.'], c ∉ placeholder key := by
    simp [placeholder, keysAfterDefinitions, keysAfterBody]
  intro entry hEntry
  exact hKeys entry.1 (List.mem_map_of_mem (f := Prod.fst) hEntry) mark hMark

theorem refill_includes : refill (m.rootValues includes) "$includes".toList =
    refill [("library", m.library.name ++ " " ++ m.library.version.getD "unversioned")]
      (trimmedEnd includes).toList :=
  @refill_placeholder_of_keys [_, _, _, _, _] _ _ _ ["classes_generator_definitions",
    "generator_version", "model_fingerprint", "module_body", "module_name"] rfl (by decide)
    (by decide)

theorem refill_body : refill (m.rootValues includes) "$module_body".toList =
    refill (m.afterBody includes) (trimmedEnd m.body).toList :=
  @refill_placeholder_of_keys [_, _, _] _ _ _ ["classes_generator_definitions",
    "generator_version", "model_fingerprint"] rfl (by decide) (by decide)

theorem refill_definitions :
    refill (m.rootValues includes) "$classes_generator_definitions".toList = [] :=
  (@refill_placeholder_of_keys [] (m.afterDefinitions includes) "classes_generator_definitions"
    (trimmedEnd "") [] rfl (by decide) (List.forall_mem_nil _)).trans refill_nil

theorem refill_library : refill (m.rootValues includes) "$library".toList =
    (m.library.name ++ " " ++ m.library.version.getD "unversioned").toList :=
  @refill_placeholder_of_keys [_, _, _, _, _, _] [] _ _ ["classes_generator_definitions",
    "generator_version", "model_fingerprint", "module_body", "module_name", "includes"] rfl
    (by decide) (by decide)

theorem refill_moduleName (hName : '$' ∉ m.name.toList) :
    refill (m.rootValues includes) "$module_name".toList = m.name.toList :=
  (@refill_placeholder_of_keys [_, _, _, _] _ _ _ ["classes_generator_definitions",
    "generator_version", "model_fingerprint", "module_body"] rfl (by decide)
    (by decide)).trans (refill_of_dollar_notMem hName)

theorem refill_version :
    refill (m.rootValues includes) "$generator_version".toList = generatorVersion.toList :=
  (@refill_placeholder_of_keys [_] _ _ _ ["classes_generator_definitions"] rfl (by decide)
    (by decide)).trans (refill_of_dollar_notMem (by decide))

theorem refill_fingerprint (hFingerprint : '$' ∉ m.modelFingerprint.toList) :
    refill (m.rootValues includes) "$model_fingerprint".toList = m.modelFingerprint.toList :=
  (@refill_placeholder_of_keys [_, _] _ _ _ ["classes_generator_definitions",
    "generator_version"] rfl (by decide) (by decide)).trans (refill_of_dollar_notMem hFingerprint)

theorem refill_banner (hName : '$' ∉ m.name.toList) :
    refill (m.rootValues includes)
        "//! Bindings for the `$library` native library, module `$module_name`.".toList =
      "//! Bindings for the `".toList ++
        (m.library.name ++ " " ++ m.library.version.getD "unversioned").toList ++
        "` native library, module `".toList ++ m.name.toList ++ "`.".toList := by
  have hMark := @notMem_rootKeys m includes '\x60' (by decide)
  have hSplit : "//! Bindings for the `$library` native library, module `$module_name`.".toList =
      "//! Bindings for the ".toList ++ '\x60' :: ("$library".toList ++ '\x60' ::
        (" native library, module ".toList ++ '\x60' :: ("$module_name".toList ++ '\x60' ::
          ".".toList))) := by decide +kernel
  rw [hSplit, refill_append_cons hMark, refill_append_cons hMark, refill_append_cons hMark,
    refill_append_cons hMark, refill_library, refill_moduleName hName,
    refill_of_dollar_notMem (by decide), refill_of_dollar_notMem (by decide),
    refill_of_dollar_notMem (by decide)]
  simp

theorem refill_origin (hFingerprint : '$' ∉ m.modelFingerprint.toList) :
    refill (m.rootValues includes)
        "//! Generated by spibind $generator_version from declarations $model_fingerprint.".toList =
      "//! Generated by spibind ".toList ++ generatorVersion.toList ++
        " from declarations ".toList ++ m.modelFingerprint.toList ++ ".".toList := by
  have hSpace := @notMem_rootKeys m includes ' ' (by decide)
  have hPoint := @notMem_rootKeys m includes '.' (by decide)
  have hSplit :
      "//! Generated by spibind $generator_version from declarations $model_fingerprint.".toList =
        "//! Generated by spibind".toList ++ ' ' :: ("$generator_version".toList ++ ' ' ::
          ("from declarations".toList ++ ' ' :: ("$model_fingerprint".toList ++ '.' :: []))) := by
    decide +kernel
  rw [hSplit, refill_append_cons hSpace, refill_append_cons hSpace, refill_append_cons hSpace,
    refill_append_cons hPoint, refill_version, refill_fingerprint hFingerprint, refill_nil,
    refill_of_dollar_notMem (by decide), refill_of_dollar_notMem (by decide)]
  simp

theorem lineCount_renderRoot : lineCount (m.renderRoot includes "") =
    17 + (refill (m.rootValues includes)
        "//! Bindings for the `$library` native library, module `$module_name`.".toList
        ).count '\n' +
      (refill (m.rootValues includes)
        "//! Generated by spibind $generator_version from declarations $model_fingerprint.".toList
        ).count '\n' +
      (refill (m.rootValues includes) "$includes".toList).count '\n' +
      (refill (m.rootValues includes) "$module_body".toList).count '\n' := by
  obtain ⟨plain, hTemplate, hLength, hPlain⟩ := moduleTemplate_split
  have hKeys := @notMem_rootKeys m includes '\n' (by decide)
  have hRoot : m.renderRoot includes "" =
      String.ofList (refill (m.rootValues includes) moduleTemplate.toList) := renderRoot_eq _ _
  have hEnds : EndsLine (refill (m.rootValues includes) moduleTemplate.toList) := by
    obtain ⟨init, hInit⟩ : ∃ init, moduleTemplate.toList = init ++ '\n' :: [] := by
      rw [hTemplate, lines_append, String.toList_append]
      exact ⟨_, (List.append_assoc _
        "$includes\n\n$classes_generator_definitions\n\n$module_body".toList ['\n']).symm⟩
    rw [hInit, refill_append_cons hKeys, refill_nil]
    exact .inr ⟨_, rfl⟩
  have hPlainCount : (plain.map fun text =>
      (refill (m.rootValues includes) text.toList).count '\n' + 1).sum = 9 := by
    have hOne : ∀ text ∈ plain,
        (refill (m.rootValues includes) text.toList).count '\n' + 1 = 1 := by
      intro text hText
      rw [refill_of_dollar_notMem (hPlain text hText).2,
        List.count_eq_zero_of_not_mem (hPlain text hText).1]
    rw [List.map_congr_left hOne, List.map_const', List.sum_replicate, hLength]
    rfl
  rw [hRoot, lineCount_of_endsLine (by rwa [String.toList_ofList]), String.toList_ofList, hTemplate,
    count_newline_refill_lines hKeys]
  simp only [List.map_append, List.sum_append, hPlainCount, List.map_cons, List.map_nil,
    List.sum_cons, List.sum_nil, refill_definitions, List.count_nil]
  rw [refill_of_dollar_notMem (by decide : '$' ∉ "//!".toList),
    refill_of_dollar_notMem (by decide : '$' ∉ "".toList)]
  have hBar : "//!".toList.count '\n' = 0 := rfl
  have hEmpty : "".toList.count '\n' = 0 := rfl
  omega

end Root

theorem count_newline_includes (chunks : Nat) :
    m.library.headers.length + 2 * chunks - 1 ≤
        (trimmedEnd (m.includes chunks)).toList.count '\n' ∧
      ((∀ header ∈ m.library.headers, '\n' ∉ header.toList) →
        (trimmedEnd (m.includes chunks)).toList.count '\n' =
          m.library.headers.length + 2 * chunks - 1) := by
  rw [trimmedEnd, String.toList_ofList, includes_eq_lines, ← length_includeLines]
  rcases List.eq_nil_or_concat' (m.includeLines chunks) with hNone | ⟨init, last, hSome⟩
  · rw [hNone]
    exact ⟨Nat.le_refl 0, fun _ => rfl⟩
  · have hLast : last ∈ m.includeLines chunks := by rw [hSome]; simp
    obtain ⟨hLeast, hExact⟩ :=
      @count_newline_trimEnd_lines init last (exists_of_mem_includeLines hLast)
    rw [hSome, List.length_append, List.length_singleton, Nat.add_sub_cancel]
    refine ⟨hLeast, fun hHeaders => hExact fun text hText => ?_⟩
    exact newline_notMem_includeLines hHeaders (hSome ▸ hText)

theorem dollar_notMem_body {model : Model} {options : GeneratorOptions}
    (h : generate model options = .ok m) (hPlain : ∀ c ∈ m.constants, ¬ c.value.HasDollar) :
    '$' ∉ (trimmedEnd m.body).toList := by
  have hLines (texts : List String) (hTexts : ∀ text ∈ texts, '$' ∉ text.toList) :
      '$' ∉ (lines texts).toList := by
    induction texts with
    | nil => exact List.not_mem_nil
    | cons text texts ih =>
      rw [List.forall_mem_cons] at hTexts
      rw [toList_lines_cons, List.mem_append, List.mem_cons]
      rintro (hHere | hEnd | hRest)
      · exact hTexts.1 hHere
      · exact absurd hEnd (by decide)
      · exact ih hTexts.2 hRest
  rw [trimmedEnd, String.toList_ofList, body_eq_lines]
  intro hMem
  exact hLines _ (fun line hLine => (isBodyLine_bodyLines h line hLine).2 hPlain)
    ((Text.prefix_trimEnd _).subset hMem)

theorem count_newline_body :
    m.bodyLines.length ≤ (trimmedEnd m.body).toList.count '\n' ∧
      ((∀ line ∈ m.bodyLines ++ [surfaceLine], '\n' ∉ line.toList) →
        (trimmedEnd m.body).toList.count '\n' = m.bodyLines.length) := by
  rw [trimmedEnd, String.toList_ofList, body_eq_lines]
  exact count_newline_trimEnd_lines ⟨'p', by decide, by decide⟩

theorem leastRootLines_le (m : Module) (chunks : Nat) :
    m.leastRootLines chunks ≤ lineCount (m.renderRoot (m.includes chunks) "") := by
  have hKeys := @notMem_rootKeys m (m.includes chunks) '\n' (by decide)
  have hBodyKeys : ∀ entry ∈ m.afterBody (m.includes chunks), '\n' ∉ placeholder entry.1 :=
    fun entry hEntry => hKeys entry
      (List.mem_cons_of_mem _ (List.mem_append_right _ hEntry))
  have hIncludes := (@count_newline_includes m chunks).1
  have hBody := (@count_newline_body m).1
  have hLibrary : '\n' ∉ placeholder "library" := by decide
  have hLibraryKey : ∀ entry ∈
      [("library", m.library.name ++ " " ++ m.library.version.getD "unversioned")],
      '\n' ∉ placeholder entry.1 := List.forall_mem_singleton.mpr hLibrary
  have hFilledIncludes :=
    count_newline_le_refill hLibraryKey (trimmedEnd (m.includes chunks)).toList
  have hFilledBody := count_newline_le_refill hBodyKeys (trimmedEnd m.body).toList
  rw [length_bodyLines] at hBody
  rw [lineCount_renderRoot, refill_includes, refill_body, leastRootLines]
  omega

theorem lineCount_root_of_plain {model : Model} {options : GeneratorOptions}
    (h : generate model options = .ok m) (hPlain : m.Plain) (chunks : Nat) :
    lineCount (m.renderRoot (m.includes chunks) "") = m.leastRootLines chunks := by
  have hName : '\n' ∉ m.name.toList :=
    Text.notMem_of_isIdentifier (name_of_generate h) (by decide)
  have hNameDollar : '$' ∉ m.name.toList :=
    Text.notMem_of_isIdentifier (name_of_generate h) (by decide)
  have hFingerprint : '\n' ∉ m.modelFingerprint.toList ∧ '$' ∉ m.modelFingerprint.toList := by
    obtain ⟨_, _, -, -, -, -, hModel⟩ := generate_eq_ok h
    rw [hModel]
    exact ⟨Digest.Sha256.notMem_ofText (by decide) _, Digest.Sha256.notMem_ofText (by decide) _⟩
  have hBanner : (refill (m.rootValues (m.includes chunks))
      "//! Bindings for the `$library` native library, module `$module_name`.".toList).count '\n' =
        0 := by
    rw [refill_banner hNameDollar]
    simp only [List.count_append, List.count_eq_zero_of_not_mem hPlain.library,
      List.count_eq_zero_of_not_mem hName]
    rfl
  have hOrigin : (refill (m.rootValues (m.includes chunks))
      "//! Generated by spibind $generator_version from declarations $model_fingerprint.".toList
      ).count '\n' = 0 := by
    rw [refill_origin hFingerprint.2]
    simp only [List.count_append, List.count_eq_zero_of_not_mem hFingerprint.1]
    rfl
  have hIncludes : (refill (m.rootValues (m.includes chunks)) "$includes".toList).count '\n' =
      m.library.headers.length + 2 * chunks - 1 := by
    rw [refill_includes, count_newline_refill, (@count_newline_includes m chunks).2 hPlain.headers]
    intro entry hEntry
    obtain rfl := List.mem_singleton.mp hEntry
    exact ⟨(by decide : '\n' ∉ placeholder "library"), hPlain.library⟩
  have hBody : (refill (m.rootValues (m.includes chunks)) "$module_body".toList).count '\n' =
      m.bodyLines.length := by
    rw [refill_body, refill_of_dollar_notMem (dollar_notMem_body h hPlain.constants)]
    exact (@count_newline_body m).2 fun line hLine => (isBodyLine_bodyLines h line hLine).1
  rw [lineCount_renderRoot, hBanner, hOrigin, hIncludes, hBody, length_bodyLines, leastRootLines]
  omega

theorem text?_root {maxLines : Nat} (hLong : max maxLines 200 < lineCount m.source) :
    (m.toFiles maxLines).text? "module.rs" = some (m.renderRoot
      (m.includes (runs (max maxLines 200) m.definitions).length) "") := by
  refine text?_toFiles (List.mem_cons_of_mem _ ?_)
  rw [leastLinesPerFile, sourceFiles_of_lt hLong]
  exact List.mem_cons_self

/-- The root file is the source of the module when this is within the limit. Otherwise it has a line
for each header, constant, record and class, and two for each numbered file, whatever the limit. -/
theorem rootFile_lines {model : Model} {options : GeneratorOptions} {maxLines : Nat}
    (hGenerated : generate model options = .ok m) :
    ∃ root, (m.toFiles maxLines).text? "module.rs" = some root ∧
      (lineCount m.source ≤ max maxLines 200 → lineCount root ≤ max maxLines 200) ∧
      (max maxLines 200 < lineCount m.source →
        let chunks := (runs (max maxLines 200) m.definitions).length
        m.leastRootLines chunks ≤ lineCount root ∧
          (m.Plain → lineCount root = m.leastRootLines chunks)) := by
  by_cases hShort : lineCount m.source ≤ max maxLines 200
  · have hWhole : (m.toFiles maxLines).text? "module.rs" = some m.source := by
      refine text?_toFiles (List.mem_cons_of_mem _ ?_)
      rw [leastLinesPerFile, sourceFiles, if_pos hShort]
      exact List.mem_cons_self
    exact ⟨m.source, hWhole, fun _ => hShort, fun hLong => absurd hShort (Nat.not_le.mpr hLong)⟩
  · exact ⟨_, text?_root (Nat.not_le.mp hShort), fun hHere => absurd hHere hShort, fun _ =>
      ⟨leastRootLines_le _ _, fun hPlain => lineCount_root_of_plain hGenerated hPlain _⟩⟩

theorem leastRootLines_sampleBanner (headers : List String) (chunks : Nat) :
    (sampleBannerBindings headers).leastRootLines chunks =
      31 + (headers.length + 2 * chunks - 1) := by
  have hConstants : (sampleBannerBindings headers).constants.isEmpty = true := rfl
  have hRecords : (sampleBannerBindings headers).records.length = 2 := rfl
  have hClasses : (sampleBannerBindings headers).classes.length = 0 := rfl
  have hHeaders : (sampleBannerBindings headers).library.headers = headers := rfl
  rw [leastRootLines, if_pos hConstants, hRecords, hClasses, hHeaders]
  omega

theorem rootFile_lines_sample :
    generate (sampleBanner (List.replicate 201 "api.h")) { moduleName := some "sample" } =
        .ok (sampleBannerBindings (List.replicate 201 "api.h")) ∧
      ∃ root, ((sampleBannerBindings (List.replicate 201 "api.h")).toFiles 0).text? "module.rs" =
        some root ∧ lineCount root = 231 + 2 * (runs (max 0 200)
          (sampleBannerBindings (List.replicate 201 "api.h")).definitions).length := by
  obtain ⟨root, hText, -, hLong⟩ :=
    @rootFile_lines _ _ _ 0 (generate_sampleBanner (List.replicate 201 "api.h"))
  have hHeaders : ∀ header ∈ List.replicate 201 "api.h", '\n' ∉ header.toList := by
    intro header hHeader
    rw [List.eq_of_mem_replicate hHeader]
    decide
  have hPlain : (sampleBannerBindings (List.replicate 201 "api.h")).Plain :=
    ⟨by decide, hHeaders, List.forall_mem_nil _⟩
  refine ⟨generate_sampleBanner _, root, hText, ((hLong sampleBanner_long).2 hPlain).trans ?_⟩
  rw [leastRootLines_sampleBanner, List.length_replicate]
  omega

/-- The headers alone take the root file over the least limit. -/
theorem root_over_limit : ∃ m root,
    generate (sampleBanner (List.replicate 201 "api.h")) { moduleName := some "sample" } = .ok m ∧
      (m.toFiles 0).text? "module.rs" = some root ∧ max 0 200 < lineCount root := by
  refine ⟨_, _, generate_sampleBanner _, text?_root sampleBanner_long,
    Nat.lt_of_lt_of_le ?_ (leastRootLines_le _ _)⟩
  rw [leastRootLines_sampleBanner, List.length_replicate]
  omega

end Module

end NativeBinding
