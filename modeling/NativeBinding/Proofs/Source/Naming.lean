import NativeBinding.Proofs.Module.ItemNames
import NativeBinding.Proofs.Source.OneLine
import NativeBinding.Proofs.Text.Utf8

/-! # Native names as identifiers

A name is put in lower case with an underscore between its words. So two names have the same
identifier if they have the same words. An identifier is legal unless the name is qualified or comes
out as a word that cannot stand as a name: of those, only the keywords in use get the raw form.
-/

set_option autoImplicit false

namespace NativeBinding.Source

section Words

/-- The words of a name in lower case: the parts between underscores, each cut before the capitals
that begin a word. -/
def nameWordsFrom (before : Option Char) : List Char → List (List Char)
  | [] => [[]]
  | c :: rest =>
    let more := nameWordsFrom (some c) rest
    if c = '_' then [] :: more
    else
      let word := more.modifyHead (Text.lowerAscii c :: ·)
      if isUpper c && beginsWord before rest.head? then [] :: word else word

def nameWords (name : String) : List (List Char) :=
  nameWordsFrom none name.toList

variable {a b name : String} {before : Option Char} {c : Char} {rest text : List Char}
  {words : List (List Char)}

theorem lowerAscii_of_not_upper (h : isUpper c = false) : Text.lowerAscii c = c := by
  rw [isUpper] at h
  rw [Text.lowerAscii, h]
  rfl

theorem lowerAscii_of_upper (h : isUpper c = true) :
    (Text.lowerAscii c).toNat = c.toNat + 32 ∧ 65 ≤ c.toNat ∧ c.toNat ≤ 90 := by
  rw [isUpper] at h
  have hBounds := h
  simp only [Bool.and_eq_true, decide_eq_true_eq] at hBounds
  have hLow : 65 ≤ c.toNat := hBounds.1
  have hHigh : c.toNat ≤ 90 := hBounds.2
  refine ⟨?_, hLow, hHigh⟩
  rw [Text.lowerAscii, if_pos h]
  exact Text.Utf8.toNat_ofNat (.inl (by omega))

theorem lowerAscii_eq_iff {d : Char} (hd : d.toNat < 97) (hc : isUpper d = false) :
    Text.lowerAscii c = d ↔ c = d := by
  cases hUpper : isUpper c with
  | false => rw [lowerAscii_of_not_upper hUpper]
  | true =>
    obtain ⟨hLower, hLow, -⟩ := lowerAscii_of_upper hUpper
    refine iff_of_false ?_ ?_
    · rintro rfl
      omega
    · rintro rfl
      rw [hc] at hUpper
      cases hUpper

theorem snakeFrom_cons (before : Option Char) (c : Char) (rest : List Char) :
    snakeFrom before (c :: rest) =
      (if isUpper c && beginsWord before rest.head? then ['_'] else []) ++
        Text.lowerAscii c :: snakeFrom (some c) rest := by
  rw [snakeFrom]
  cases hUpper : isUpper c with
  | false => rw [lowerAscii_of_not_upper hUpper]; rfl
  | true => rfl

theorem nameWordsFrom_ne_nil (before : Option Char) (text : List Char) :
    nameWordsFrom before text ≠ [] := by
  induction text generalizing before with
  | nil => simp [nameWordsFrom]
  | cons c rest ih =>
    have hMore := ih (some c)
    simp only [nameWordsFrom]
    split_ifs <;> simp [hMore]

theorem underscore_notMem (before : Option Char) (text : List Char) :
    ∀ word ∈ nameWordsFrom before text, '_' ∉ word := by
  induction text generalizing before with
  | nil => simp [nameWordsFrom]
  | cons c rest ih =>
    obtain ⟨word, more, hMore⟩ := List.exists_cons_of_ne_nil (nameWordsFrom_ne_nil (some c) rest)
    have hRest := ih (some c)
    rw [hMore, List.forall_mem_cons] at hRest
    simp only [nameWordsFrom, hMore, List.modifyHead_cons]
    by_cases hc : c = '_'
    · rw [if_pos hc]
      simpa using hRest
    · have hLower : '_' ≠ Text.lowerAscii c := by
        intro hEq
        exact hc ((lowerAscii_eq_iff (by decide) (by decide)).mp hEq.symm)
      rw [if_neg hc]
      split_ifs <;> simpa [hLower] using hRest

theorem intercalate_nil_cons (mark : Char) (h : words ≠ []) :
    [mark].intercalate ([] :: words) = mark :: [mark].intercalate words := by
  obtain ⟨word, more, rfl⟩ := List.exists_cons_of_ne_nil h
  simp [List.intercalate]

theorem intercalate_modifyHead (mark c : Char) (h : words ≠ []) :
    [mark].intercalate (words.modifyHead (c :: ·)) = c :: [mark].intercalate words := by
  obtain ⟨word, more, rfl⟩ := List.exists_cons_of_ne_nil h
  cases more <;> simp [List.intercalate]

theorem snakeFrom_eq_intercalate (before : Option Char) (text : List Char) :
    snakeFrom before text = ['_'].intercalate (nameWordsFrom before text) := by
  induction text generalizing before with
  | nil => rfl
  | cons c rest ih =>
    have hMore := nameWordsFrom_ne_nil (some c) rest
    rw [snakeFrom_cons, ih, nameWordsFrom]
    dsimp only
    by_cases hc : c = '_'
    · subst hc
      rw [if_pos rfl, intercalate_nil_cons '_' hMore]
      rfl
    · have hWord : (nameWordsFrom (some c) rest).modifyHead (Text.lowerAscii c :: ·) ≠ [] := by
        simpa using hMore
      rw [if_neg hc]
      split_ifs
      · rw [intercalate_nil_cons '_' hWord, intercalate_modifyHead '_' _ hMore]
        rfl
      · rw [intercalate_modifyHead '_' _ hMore]
        rfl

theorem snakeCase_eq_iff : snakeCase a = snakeCase b ↔ nameWords a = nameWords b := by
  rw [snakeCase, snakeCase, String.ofList_inj, snakeFrom_eq_intercalate, snakeFrom_eq_intercalate]
  constructor
  · intro hJoined
    have hSplit := congrArg (List.splitOn '_') hJoined
    rwa [List.splitOn_intercalate '_' (underscore_notMem _ _) (nameWordsFrom_ne_nil _ _),
      List.splitOn_intercalate '_' (underscore_notMem _ _) (nameWordsFrom_ne_nil _ _)] at hSplit
  · intro hWords
    rw [← nameWords, ← nameWords, hWords]

end Words

section Legal

/-- A name that generated source can have: an identifier that is not reserved, or the raw form of
one that has a raw form. -/
inductive Legal : String → Prop where
  | plain {name : String} (hIdentifier : Text.isIdentifier name = true) (hFree : name ∉ reserved) :
      Legal name
  | raw {name : String} (hIdentifier : Text.isIdentifier name = true)
      (hSpellable : name ∉ unspellable) : Legal ("r#" ++ name)

/-- A native name whose identifier is legal. -/
def Spellable (name : String) : Prop :=
  ':' ∉ name.toList ∧ snakeCase name ∉ unspellable ++ laterKeywords

instance (name : String) : Decidable (Spellable name) :=
  inferInstanceAs (Decidable (_ ∧ _))

variable {a b name : String} {before : Option Char} {c d : Char} {rest text : List Char}

theorem mem_snakeFrom (h : d ∈ snakeFrom before text) :
    d = '_' ∨ ∃ c ∈ text, d = Text.lowerAscii c := by
  induction text generalizing before with
  | nil => cases h
  | cons c rest ih =>
    rw [snakeFrom_cons, List.mem_append, List.mem_cons] at h
    rcases h with hMark | rfl | hRest
    · split_ifs at hMark
      · exact .inl (List.mem_singleton.mp hMark)
      · cases hMark
    · exact .inr ⟨c, List.mem_cons_self, rfl⟩
    · refine (ih hRest).imp_right ?_
      rintro ⟨e, he, rfl⟩
      exact ⟨e, List.mem_cons_of_mem _ he, rfl⟩

theorem lowerAscii_mem_snakeFrom (h : c ∈ text) : Text.lowerAscii c ∈ snakeFrom before text := by
  induction text generalizing before with
  | nil => cases h
  | cons e rest ih =>
    rw [snakeFrom_cons, List.mem_append, List.mem_cons]
    rcases List.mem_cons.mp h with rfl | hRest
    · exact .inr (.inl rfl)
    · exact .inr (.inr (ih hRest))

theorem mem_snakeCase_iff (hd : d.toNat < 97) (hUpper : isUpper d = false) (hMark : d ≠ '_') :
    d ∈ (snakeCase name).toList ↔ d ∈ name.toList := by
  rw [snakeCase, String.toList_ofList]
  constructor
  · intro hMem
    obtain ⟨c, hc, hEq⟩ := (mem_snakeFrom hMem).resolve_left hMark
    rwa [← (lowerAscii_eq_iff hd hUpper).mp hEq.symm]
  · intro hMem
    have hLower : Text.lowerAscii d ∈ snakeFrom none name.toList := lowerAscii_mem_snakeFrom hMem
    rwa [lowerAscii_of_not_upper hUpper] at hLower

theorem isAsciiLetter_lowerAscii (h : isUpper c = true) :
    Text.isAsciiLetter (Text.lowerAscii c) = true := by
  obtain ⟨hLower, hLow, hHigh⟩ := lowerAscii_of_upper h
  have hLeast : 'a' ≤ Text.lowerAscii c := by
    have hBound : 97 ≤ (Text.lowerAscii c).toNat := by omega
    exact hBound
  have hMost : Text.lowerAscii c ≤ 'z' := by
    have hBound : (Text.lowerAscii c).toNat ≤ 122 := by omega
    exact hBound
  simp [Text.isAsciiLetter, hLeast, hMost]

theorem startsIdentifier_lowerAscii (h : Text.startsIdentifier c = true) :
    Text.startsIdentifier (Text.lowerAscii c) = true := by
  cases hUpper : isUpper c with
  | false => rwa [lowerAscii_of_not_upper hUpper]
  | true => simp [Text.startsIdentifier, isAsciiLetter_lowerAscii hUpper]

theorem continuesIdentifier_lowerAscii (h : Text.continuesIdentifier c = true) :
    Text.continuesIdentifier (Text.lowerAscii c) = true := by
  cases hUpper : isUpper c with
  | false => rwa [lowerAscii_of_not_upper hUpper]
  | true => simp [Text.continuesIdentifier, isAsciiLetter_lowerAscii hUpper]

section Qualified

variable (hName : Text.isQualifiedName name = true)

include hName

theorem exists_chars_of_isQualifiedName : ∃ c rest, name.toList = c :: rest ∧
    Text.startsIdentifier c = true ∧ ∀ d ∈ rest, Text.continuesIdentifier d = true ∨ d = ':' := by
  unfold Text.isQualifiedName at hName
  split at hName
  · cases hName
  · rename_i c rest hChars
    rw [Bool.and_eq_true, List.all_eq_true] at hName
    refine ⟨c, rest, hChars, hName.1, fun d hd => ?_⟩
    simpa using hName.2 d hd

theorem isIdentifier_snakeCase_iff :
    Text.isIdentifier (snakeCase name) = true ↔ ':' ∉ name.toList := by
  rw [← mem_snakeCase_iff (d := ':') (by decide) (by decide) (by decide)]
  constructor
  · intro hIdentifier
    exact Text.notMem_of_isIdentifier hIdentifier (by decide)
  · intro hColon
    obtain ⟨c, rest, hChars, hFirst, hRest⟩ := exists_chars_of_isQualifiedName hName
    have hText : (snakeCase name).toList = Text.lowerAscii c :: snakeFrom (some c) rest := by
      rw [snakeCase, String.toList_ofList, hChars, snakeFrom_cons]
      simp [beginsWord]
    rw [hText] at hColon
    unfold Text.isIdentifier
    rw [hText, Bool.and_eq_true, List.all_eq_true]
    refine ⟨startsIdentifier_lowerAscii hFirst, fun d hd => ?_⟩
    rcases mem_snakeFrom hd with rfl | ⟨e, he, rfl⟩
    · decide
    · rcases hRest e he with hContinues | rfl
      · exact continuesIdentifier_lowerAscii hContinues
      · exact absurd (List.mem_cons_of_mem _ hd) hColon

theorem sharp_notMem_snakeCase : '#' ∉ (snakeCase name).toList := by
  rw [mem_snakeCase_iff (by decide) (by decide) (by decide)]
  obtain ⟨c, rest, hChars, hFirst, hRest⟩ := exists_chars_of_isQualifiedName hName
  rw [hChars]
  intro hMem
  rcases List.mem_cons.mp hMem with rfl | hMem
  · exact absurd hFirst (by decide)
  · exact absurd (hRest '#' hMem) (by decide)

theorem snakeCase_ne_raw (word : String) : snakeCase name ≠ "r#" ++ word := by
  intro hEq
  refine sharp_notMem_snakeCase hName ?_
  rw [hEq, String.toList_append]
  exact List.mem_append_left _ (by decide)

end Qualified

theorem identifier_eq (name : String) : identifier name = snakeCase name ∨
    snakeCase name ∈ keywords ∧ identifier name = "r#" ++ snakeCase name := by
  unfold identifier rawIdentifier
  split
  · rename_i hKeyword
    exact .inr ⟨List.contains_iff_mem.mp hKeyword, rfl⟩
  · exact .inl rfl

/-- Names have the same identifier if they have the same words. -/
theorem identifier_eq_iff (ha : Text.isQualifiedName a = true)
    (hb : Text.isQualifiedName b = true) :
    identifier a = identifier b ↔ nameWords a = nameWords b := by
  rw [← snakeCase_eq_iff]
  constructor
  · intro hSame
    rcases identifier_eq a with hA | ⟨-, hA⟩ <;> rcases identifier_eq b with hB | ⟨-, hB⟩ <;>
      rw [hA, hB] at hSame
    · exact hSame
    · exact absurd hSame (snakeCase_ne_raw ha _)
    · exact absurd hSame.symm (snakeCase_ne_raw hb _)
    · simpa using hSame
  · intro hSame
    rw [identifier, identifier, hSame]

theorem isIdentifier_raw (word : String) : Text.isIdentifier ("r#" ++ word) = false := by
  unfold Text.isIdentifier
  rw [String.toList_append]
  rfl

/-- Only keywords in use have the raw form, so a name that comes out as another word that cannot
stand as a name has no legal identifier. -/
theorem legal_identifier_iff (hName : Text.isQualifiedName name = true) :
    Legal (identifier name) ↔ Spellable name := by
  have hLater : ∀ word ∈ keywords, word ∉ laterKeywords := by decide
  rw [Spellable, ← isIdentifier_snakeCase_iff hName, List.mem_append, not_or]
  unfold identifier rawIdentifier
  split
  · rename_i hKeyword
    rw [List.contains_iff_mem] at hKeyword
    constructor
    · intro hLegal
      generalize hRaw : "r#" ++ snakeCase name = raw at hLegal
      cases hLegal with
      | plain hIdentifier =>
        rw [← hRaw, isIdentifier_raw] at hIdentifier
        cases hIdentifier
      | raw hIdentifier hSpellable =>
        obtain rfl : snakeCase name = _ := by simpa using hRaw
        exact ⟨hIdentifier, hSpellable, hLater _ hKeyword⟩
    · rintro ⟨hIdentifier, hSpellable, -⟩
      exact .raw hIdentifier hSpellable
  · rename_i hOther
    rw [List.contains_iff_mem] at hOther
    constructor
    · intro hLegal
      generalize hPlain : snakeCase name = plain at hLegal
      cases hLegal with
      | plain hIdentifier hFree =>
        simp only [reserved, List.mem_append, not_or] at hFree
        exact ⟨hIdentifier, hFree.1.2, hFree.2⟩
      | raw => exact absurd hPlain (snakeCase_ne_raw hName _)
    · rintro ⟨hIdentifier, hSpellable, hFree⟩
      refine .plain hIdentifier ?_
      simp only [reserved, List.mem_append, not_or]
      exact ⟨⟨hOther, hSpellable⟩, hFree⟩

end Legal

end NativeBinding.Source
