import NativeBinding.Proofs.Header.Canonical
import NativeBinding.Proofs.Header.Parts

/-! # The optional `int`

Behind `short`, and behind `short`, `long` and `long long` with a sign, the word `int` changes
nothing: the same type, field, return type or parameter is read with it and without it. Behind
`long` and `long long` alone it is taken for the declared name.
-/

set_option autoImplicit false

namespace NativeBinding.Header

/-- Words of integers that are read with an `int` behind them, and their bases. -/
def finished : List (List String × String) :=
  [(["short"], "short"), (["signed", "short"], "short"), (["unsigned", "short"], "unsigned short"),
    (["signed", "long"], "long"), (["unsigned", "long"], "unsigned long"),
    (["signed", "long", "long"], "long long"), (["unsigned", "long", "long"], "unsigned long long")]

/-- Words of integers that leave an `int` behind them unread, and their bases. -/
def unfinished : List (List String × String) :=
  [(["long"], "long"), (["long", "long"], "long long")]

section Base

variable {words : List String} {base : String} {tokens rest : List Token}

theorem front_integer (h : (words, base) ∈ finished ++ unfinished) (rest : List Token) :
    Avoids qualifying (words.map Token.word ++ rest) := by
  have hAll : ∀ entry ∈ finished ++ unfinished,
      ∃ first ∈ entry.1.head?, first ∉ qualifying := by decide
  obtain ⟨first, hFirst, hFree⟩ := hAll _ h
  cases words with
  | nil => cases hFirst
  | cons word words =>
    cases hFirst
    exact avoids_name hFree

theorem readBase_finished (h : (words, base) ∈ finished) (hRest : Avoids continuing rest) :
    readBase (words.map Token.word ++ rest) = .ok (base, rest) ∧
      readBase (words.map Token.word ++ .word "int" :: rest) = .ok (base, rest) := by
  have hDrop := dropInt_of_avoids hRest
  have hInt : dropInt (.word "int" :: rest) = rest := rfl
  have hLong (isUnsigned : Bool) := readSigned_long isUnsigned hRest
  simp only [finished, List.mem_cons, Prod.mk.injEq, List.not_mem_nil, or_false] at h
  rcases h with ⟨rfl, rfl⟩ | ⟨rfl, rfl⟩ | ⟨rfl, rfl⟩ | ⟨rfl, rfl⟩ | ⟨rfl, rfl⟩ | ⟨rfl, rfl⟩ |
    ⟨rfl, rfl⟩
  · simp [readBase, hDrop, hInt]
  · simp [readBase, readSigned, hDrop, hInt]
  · simp [readBase, readSigned, hDrop, hInt]
  · constructor
    · simp [readBase, hLong]
    · simp [readBase, readSigned, hInt]
  · constructor
    · simp [readBase, hLong]
    · simp [readBase, readSigned, hInt]
  · simp [readBase, readSigned, hDrop, hInt]
  · simp [readBase, readSigned, hDrop, hInt]

theorem readBase_unfinished (h : (words, base) ∈ unfinished) (hRest : Avoids continuing rest) :
    readBase (words.map Token.word ++ rest) = .ok (base, rest) ∧
      readBase (words.map Token.word ++ .word "int" :: rest) =
        .ok (base, .word "int" :: rest) := by
  simp only [unfinished, List.mem_cons, Prod.mk.injEq, List.not_mem_nil, or_false] at h
  rcases h with ⟨rfl, rfl⟩ | ⟨rfl, rfl⟩
  · exact ⟨readBase_long hRest, by simp [readBase]⟩
  · simp [readBase]

end Base

section Declarator

variable {d made : Declarator} {tokens : List Token}

theorem readDeclarator_keeps (h : readDeclarator d tokens = .ok made) :
    (∀ x, d.name = some x → made.name = some x) ∧
      ∀ x, made.name = some x → d.name = some x ∨ Text.isQualifiedName x = true := by
  fun_induction readDeclarator d tokens with
  | case1 =>
    cases h
    exact ⟨fun _ hx => hx, fun _ hx => .inl hx⟩
  | case2 _ _ ih => exact ih h
  | case3 _ _ ih => exact ih h
  | case4 _ _ ih => exact ih h
  | case7 _ _ _ _ _ _ ih => exact ih h
  | case11 d token rest _ _ _ _ _ _ hNew ih =>
    simp only [Bool.or_eq_true, not_or, Bool.not_eq_true, Option.isSome_eq_false_iff,
      Option.isNone_iff_eq_none, Bool.not_eq_false'] at hNew
    obtain ⟨-, hNames⟩ := ih h
    refine ⟨fun x hx => ?_, fun x hx => .inr ?_⟩
    · rw [hNew.1] at hx
      cases hx
    · rcases hNames x hx with hSame | hQualified
      · cases hSame
        exact hNew.2
      · exact hQualified
  | _ => cases h

theorem readDeclarator_named (h : readDeclarator d tokens = .ok made) (hNone : d.name = none)
    (name : String) :
    readDeclarator { d with name := some name } tokens =
      match made.name with
      | none => .ok { made with name := some name }
      | some second => .error (.unexpectedToken second) := by
  fun_induction readDeclarator d tokens with
  | case1 =>
    cases h
    rw [hNone]
    rfl
  | case2 _ _ ih =>
    rw [readDeclarator]
    exact ih h hNone
  | case3 _ _ ih =>
    rw [readDeclarator]
    exact ih h hNone
  | case4 _ _ ih =>
    rw [readDeclarator]
    exact ih h hNone
  | case7 _ _ _ hSome _ hExtent ih =>
    rw [readDeclarator, if_neg hSome, hExtent]
    exact ih h hNone
  | case11 d token rest _ _ _ _ _ _ hNew ih =>
    rw [(readDeclarator_keeps h).1 _ rfl, readDeclarator]
    · exact if_pos rfl
    all_goals assumption
  | _ => cases h

end Declarator

/-- The text of a declaration that starts with an integer, in parts: qualifiers and the words of the
integer in front, and its declarator behind white space or a mark. -/
structure IntegerText where
  qualifiers : List String
  words : List String
  front : List Char
  gap : List Char
  declarator : List Char
  hQualifiers : qualifiers ⊆ ["const", "volatile"]
  hFront : Token.Spells ((qualifiers ++ words).map Token.word) front
  hGap : Text.AllBlank gap ∧ gap ≠ []
  hEnd : Token.EndsWord declarator
  hDeclarator : Avoids ("const" :: continuing) (Token.scan declarator)

namespace IntegerText

variable {t : IntegerText} {base : String}

def bare (t : IntegerText) : List Char :=
  t.front ++ t.declarator

def fullFront (t : IntegerText) : List Char :=
  t.front ++ (t.gap ++ "int".toList)

def full (t : IntegerText) : List Char :=
  t.fullFront ++ t.declarator

theorem spells_fullFront (t : IntegerText) :
    Token.Spells ((t.qualifiers ++ (t.words ++ ["int"])).map Token.word) t.fullFront := by
  have hInt : PlainWord "int" := by decide
  have hWord := Token.spells_plain hInt Token.endsWord_nil .nil
  rw [List.append_nil] at hWord
  have hSpells := t.hFront.append (hWord.blanks t.hGap.1) (Token.endsWord_blanks t.hGap.1 t.hGap.2)
  rw [← List.append_assoc, List.map_append]
  exact hSpells

theorem scan_bare (t : IntegerText) : Token.scan t.bare =
    t.qualifiers.map Token.word ++ (t.words.map Token.word ++ Token.scan t.declarator) := by
  have hSpells := t.hFront.append (Token.spells_scan t.declarator) t.hEnd
  rw [bare, Token.scan_of_spells hSpells, List.map_append, List.append_assoc]

theorem scan_full (t : IntegerText) : Token.scan t.full = t.qualifiers.map Token.word ++
    (t.words.map Token.word ++ .word "int" :: Token.scan t.declarator) := by
  have hSpells := t.spells_fullFront.append (Token.spells_scan t.declarator) t.hEnd
  rw [full, Token.scan_of_spells hSpells]
  simp

theorem readQualifiers_qualified {qualifiers : List String} {rest : List Token}
    (hQualifiers : qualifiers ⊆ ["const", "volatile"]) (hRest : Avoids qualifying rest) :
    readQualifiers (qualifiers.map Token.word ++ rest) = (qualifiers.contains "const", rest) := by
  induction qualifiers with
  | nil => exact readQualifiers_of_avoids hRest
  | cons word qualifiers ih =>
    rw [List.cons_subset] at hQualifiers
    have hWord := hQualifiers.1
    simp only [List.mem_cons, List.not_mem_nil, or_false] at hWord
    rw [List.map_cons, List.cons_append]
    rcases hWord with rfl | rfl
    · rw [readQualifiers, ih hQualifiers.2]
      simp
    · rw [readQualifiers, ih hQualifiers.2]
      simp

theorem readSpecifiers_integer {rest after : List Token} (t : IntegerText)
    (h : (t.words, base) ∈ finished ++ unfinished)
    (hBase : readBase (t.words.map Token.word ++ rest) = .ok (base, after))
    (hAfter : Avoids ["const"] after) :
    readSpecifiers (t.qualifiers.map Token.word ++ (t.words.map Token.word ++ rest)) =
      .ok ({ base, isConst := t.qualifiers.contains "const" }, after) := by
  have hFree := front_integer h rest
  exact readSpecifiers_of_readBase (readQualifiers_qualified t.hQualifiers hFree) hFree hBase hAfter

theorem readDeclaration_finished (t : IntegerText) (h : (t.words, base) ∈ finished) :
    readDeclaration (Token.scan t.full) = readDeclaration (Token.scan t.bare) := by
  have hMem : (t.words, base) ∈ finished ++ unfinished := List.mem_append_left _ h
  have hConst := t.hDeclarator.mono (List.cons_subset_cons _ (List.nil_subset continuing))
  obtain ⟨hBare, hFull⟩ := readBase_finished h (t.hDeclarator.mono (List.subset_cons_self _ _))
  rw [scan_bare, scan_full, readDeclaration, readDeclaration,
    t.readSpecifiers_integer hMem hBare hConst, t.readSpecifiers_integer hMem hFull hConst]

/-- A declaration with `int` taken for its name. -/
def namedInt (type : TypeSpelling) :
    Option String → Except SignatureError (TypeSpelling × Option String)
  | none => .ok (type, some "int")
  | some second => .error (.unexpectedToken second)

theorem readDeclaration_unfinished (t : IntegerText) (h : (t.words, base) ∈ unfinished)
    {type : TypeSpelling} {name : Option String}
    (hBare : readDeclaration (Token.scan t.bare) = .ok (type, name)) :
    readDeclaration (Token.scan t.full) = namedInt type name := by
  have hMem : (t.words, base) ∈ finished ++ unfinished := List.mem_append_right _ h
  have hConst := t.hDeclarator.mono (List.cons_subset_cons _ (List.nil_subset continuing))
  obtain ⟨hBase, hBaseFull⟩ :=
    readBase_unfinished h (t.hDeclarator.mono (List.subset_cons_self _ _))
  have hInt : readDeclarator {} (.word "int" :: Token.scan t.declarator) =
      readDeclarator { name := some "int" } (Token.scan t.declarator) := by
    rw [readDeclarator]
    · exact if_neg (by decide)
    all_goals simp
  rw [scan_bare, readDeclaration, t.readSpecifiers_integer hMem hBase hConst] at hBare
  obtain ⟨_, hSpecified, hBare⟩ := bind_eq_ok_iff.mp hBare
  cases hSpecified
  obtain ⟨made, hMade, hBare⟩ := bind_eq_ok_iff.mp hBare
  cases hBare
  have hAvoids : Avoids ["const"] (.word "int" :: Token.scan t.declarator) :=
    avoids_name (by decide)
  have hNamed : readDeclarator { name := some "int" } (Token.scan t.declarator) = _ :=
    readDeclarator_named hMade rfl "int"
  rw [scan_full, readDeclaration, t.readSpecifiers_integer hMem hBaseFull hAvoids]
  simp only [bind, Except.bind, hInt, hNamed]
  cases made.name <;> rfl

section Punctuation

variable {words : List String} {front : List Char}

theorem nested_words (h : Token.Spells (words.map Token.word) front)
    (hPlain : ∀ word, .word word ∈ words.map Token.word → PlainWord word) :
    nested [',', '='] 0 0 0 none front = true := by
  have hWords : ∀ token ∈ words.map Token.word, IsPlainWord token := by
    intro token hMem
    obtain ⟨word, -, rfl⟩ := List.mem_map.mp hMem
    exact ⟨word, rfl, hPlain word hMem⟩
  have hClosed : closed 0 (words.map Token.word ++ []) = true := closed_words hWords 0
  rw [List.append_nil] at hClosed
  exact nested_of_spells h hPlain hClosed

theorem isMarked_words (h : Token.Spells (words.map Token.word) front) {word : String}
    (hWord : word ∈ words) (hMarked : IsMarked word.toList) : IsMarked front := by
  obtain ⟨c, hc, hMark⟩ := hMarked
  exact ⟨c, h.mem_of_word (List.mem_map_of_mem hWord) hc, hMark⟩

end Punctuation

section Integer

variable (h : (t.words, base) ∈ finished ++ unfinished)
include h

theorem exists_first : ∃ first more,
    t.qualifiers ++ t.words = first :: more ∧ first ∉ ["virtual", "static", "inline"] := by
  have hAll : ∀ entry ∈ finished ++ unfinished, ∃ first ∈ entry.1.head?,
      first ∉ ["virtual", "static", "inline"] := by decide
  obtain ⟨first, hFirst, hFree⟩ := hAll _ h
  obtain ⟨more, hWords⟩ := List.head?_eq_some_iff.mp hFirst
  have hQualifiers := t.hQualifiers
  cases hHere : t.qualifiers with
  | nil => exact ⟨first, more, hWords, hFree⟩
  | cons word qualifiers =>
    rw [hHere, List.cons_subset] at hQualifiers
    refine ⟨word, _, rfl, ?_⟩
    have hNone : ∀ word ∈ ["const", "volatile"], word ∉ ["virtual", "static", "inline"] := by decide
    exact hNone word hQualifiers.1

theorem plain_fullFront : ∀ word,
    .word word ∈ (t.qualifiers ++ (t.words ++ ["int"])).map Token.word → PlainWord word := by
  have hAll : ∀ entry ∈ finished ++ unfinished, ∀ word ∈ entry.1, PlainWord word := by decide
  have hQualified : ∀ word ∈ ["const", "volatile"], PlainWord word := by decide
  intro word hMem
  obtain ⟨_, hWord, ⟨⟩⟩ := List.mem_map.mp hMem
  rw [List.mem_append, List.mem_append, List.mem_singleton] at hWord
  rcases hWord with hWord | hWord | rfl
  · exact hQualified word (t.hQualifiers hWord)
  · exact hAll _ h word hWord
  · decide

theorem plain_front :
    ∀ word, .word word ∈ (t.qualifiers ++ t.words).map Token.word → PlainWord word := by
  intro word hMem
  apply plain_fullFront h
  rw [← List.append_assoc, List.map_append]
  exact List.mem_append_left _ hMem

theorem isMarked_texts : IsMarked t.bare ∧ IsMarked t.full := by
  have hAll : ∀ entry ∈ finished ++ unfinished, "short" ∈ entry.1 ∨ "long" ∈ entry.1 := by decide
  have hShort : IsMarked "short".toList := ⟨'s', by decide, by decide, by decide⟩
  have hLong : IsMarked "long".toList := ⟨'l', by decide, by decide, by decide⟩
  obtain ⟨word, hWord, hMarked⟩ : ∃ word ∈ t.words, IsMarked word.toList := by
    rcases hAll _ h with hWord | hWord
    · exact ⟨_, hWord, hShort⟩
    · exact ⟨_, hWord, hLong⟩
  constructor
  · exact (isMarked_words t.hFront (by simp [hWord]) hMarked).append _
  · exact (isMarked_words t.spells_fullFront (by simp [hWord]) hMarked).append _

theorem notMem_texts {c : Char} (hMark : c ∈ punctuation) (hNone : Token.ofMark? c = none)
    (hDeclarator : c ∉ t.declarator) : c ∉ t.bare ∧ c ∉ t.full := by
  have hBare : c ∉ t.front := notMem_of_spells t.hFront (plain_front h) hMark hNone
  have hFull : c ∉ t.fullFront :=
    notMem_of_spells t.spells_fullFront (plain_fullFront h) hMark hNone
  simp [bare, full, hBare, hFull, hDeclarator]

theorem nested_texts (hDeclarator : nested [',', '='] 0 0 0 none t.declarator = true) :
    nested [',', '='] 0 0 0 none t.bare = true ∧ nested [',', '='] 0 0 0 none t.full = true := by
  have hBare := nested_words t.hFront (plain_front h)
  have hFull := nested_words t.spells_fullFront (plain_fullFront h)
  exact ⟨nested_append hBare hDeclarator, nested_append hFull hDeclarator⟩

theorem scan_texts : ∃ first bare full, first ∉ ["virtual", "static", "inline"] ∧
    Token.scan t.bare = .word first :: bare ∧ Token.scan t.full = .word first :: full := by
  obtain ⟨first, more, hWords, hFirst⟩ := exists_first h
  have hFront (rest : List Token) :
      t.qualifiers.map Token.word ++ (t.words.map Token.word ++ rest) =
        .word first :: (more.map Token.word ++ rest) := by
    rw [← List.append_assoc, ← List.map_append, hWords, List.map_cons, List.cons_append]
  exact ⟨first, _, _, hFirst, t.scan_bare.trans (hFront _), t.scan_full.trans (hFront _)⟩

end Integer

/-- The same is read with `int` and without it, but for the text that an error quotes. -/
structure Unchanged (t : IntegerText) : Prop where
  type : Agree (TypeSpelling.parse (String.ofList t.full))
    (TypeSpelling.parse (String.ofList t.bare))
  field : ∀ after, ';' ∉ t.declarator → EndsStatement after →
    Agree (FieldSignature.parse (String.ofList (t.full ++ after)))
      (FieldSignature.parse (String.ofList (t.bare ++ after)))
  returnType : ∀ specifiers lead rest, '(' ∉ t.declarator → SpellsKeywords specifiers lead →
    Agree (MethodSignature.parse (String.ofList (lead ++ t.full ++ '(' :: rest)))
      (MethodSignature.parse (String.ofList (lead ++ t.bare ++ '(' :: rest)))
  param : ∀ head before after ending rest, nested [',', '='] 0 0 0 none t.declarator = true →
    '(' ∉ head → (∀ part ∈ before ++ after, nested [','] 0 0 0 none part = true) →
    EndsParam ending →
    Agree (MethodSignature.parse (methodText head (before ++ (t.full ++ ending) :: after) rest))
      (MethodSignature.parse (methodText head (before ++ (t.bare ++ ending) :: after) rest))

theorem unchanged_of_finished (h : (t.words, base) ∈ finished) : t.Unchanged := by
  have hMem : (t.words, base) ∈ finished ++ unfinished := List.mem_append_left _ h
  obtain ⟨first, bare, full, hFirst, hBare, hFull⟩ := scan_texts hMem
  have hAlike : Alike t.full t.bare := by
    refine ⟨t.readDeclaration_finished h, ?_, ?_⟩
    · rw [hFull]
      exact List.cons_ne_nil _ _
    · rw [hBare]
      exact List.cons_ne_nil _ _
  refine ⟨hAlike.parseType, ?_, ?_, ?_⟩
  · intro after hDeclarator hAfter
    obtain ⟨hBare, hFull⟩ := notMem_texts hMem (by decide) rfl hDeclarator
    exact hAlike.parseField hFull hBare hAfter
  · intro specifiers lead rest hDeclarator hLead
    obtain ⟨hFree, hFreeFull⟩ := notMem_texts hMem (by decide) rfl hDeclarator
    refine hAlike.parseReturn hLead ?_ ?_ hFirst hFull hBare
    · exact List.not_mem_append hLead.notMem_open hFreeFull
    · exact List.not_mem_append hLead.notMem_open hFree
  · intro head before after ending rest hDeclarator hHead hOthers hEnding
    obtain ⟨hNested, hNestedFull⟩ := nested_texts hMem hDeclarator
    obtain ⟨hMarked, hMarkedFull⟩ := isMarked_texts hMem
    exact hAlike.parseParam hHead hOthers hNestedFull hNested hMarkedFull hMarked hEnding

section Taken

variable {text : List Char} {type : TypeSpelling} {name : String} {e : SignatureError}

theorem readTypeAndName_eq_ok_iff : readTypeAndName text = .ok (type, name) ↔
    readDeclaration (Token.scan text) = .ok (type, some name) := by
  rw [readTypeAndName]
  generalize Token.scan text = tokens
  cases tokens with
  | nil =>
    constructor
    · intro hRead
      cases hRead
    · intro hRead
      cases hRead
  | cons token tokens =>
    simp only [List.isEmpty_cons, Bool.false_eq_true, if_false, bind_eq_ok_iff]
    constructor
    · rintro ⟨⟨type, _ | name⟩, hRead, hName⟩
      · cases hName
      · cases hName
        exact hRead
    · intro hRead
      exact ⟨_, hRead, rfl⟩

theorem readTypeAndName_error (hSome : Token.scan text ≠ [])
    (h : readDeclaration (Token.scan text) = .error e) : readTypeAndName text = .error e := by
  simp only [readTypeAndName, List.isEmpty_eq_false_iff.mpr hSome, Bool.false_eq_true, if_false, h]
  rfl

theorem isQualifiedName_of_readDeclaration {tokens : List Token}
    (h : readDeclaration tokens = .ok (type, some name)) : Text.isQualifiedName name = true := by
  obtain ⟨⟨specified, rest⟩, -, h⟩ := bind_eq_ok_iff.mp h
  obtain ⟨made, hMade, h⟩ := bind_eq_ok_iff.mp h
  have hName : made.name = some name := congrArg Prod.snd (Except.ok.inj h)
  exact ((readDeclarator_keeps hMade).2 name hName).resolve_left nofun

end Taken

/-- The word `int` is taken for the name: what had no name gets this one, and a name that was there
is unexpected. -/
structure TakenForName (t : IntegerText) : Prop where
  type : ∀ type, TypeSpelling.parse (String.ofList t.bare) = .ok type →
    TypeSpelling.parse (String.ofList t.full) = .error (.nameInType "int" (String.ofList t.full))
  field : ∀ after f, ';' ∉ t.declarator → EndsStatement after →
    FieldSignature.parse (String.ofList (t.bare ++ after)) = .ok f →
    FieldSignature.parse (String.ofList (t.full ++ after)) = .error (.unexpectedToken f.name)
  returnType : ∀ specifiers lead rest m, '(' ∉ t.declarator → SpellsKeywords specifiers lead →
    MethodSignature.parse (String.ofList (lead ++ t.bare ++ '(' :: rest)) = .ok m →
    MethodSignature.parse (String.ofList (lead ++ t.full ++ '(' :: rest)) =
      .error (.unexpectedToken m.name)
  param : ∀ head before after ending rest m p, nested [',', '='] 0 0 0 none t.declarator = true →
    '(' ∉ head → (∀ part ∈ before ++ after, nested [','] 0 0 0 none part = true) →
    EndsParam ending →
    MethodSignature.parse (methodText head (before ++ (t.bare ++ ending) :: after) rest) = .ok m →
    m.params[before.length]? = some p →
    MethodSignature.parse (methodText head (before ++ (t.full ++ ending) :: after) rest) =
      if p.name = "" then .ok (m.setParam before.length { p with name := "int" })
      else .error (.unexpectedToken p.name)

section Sites

variable (h : (t.words, base) ∈ unfinished)
include h

theorem scan_ne_nil : Token.scan t.bare ≠ [] ∧ Token.scan t.full ≠ [] := by
  obtain ⟨first, bare, full, -, hBare, hFull⟩ := scan_texts (List.mem_append_right finished h)
  rw [hBare, hFull]
  exact ⟨List.cons_ne_nil _ _, List.cons_ne_nil _ _⟩

theorem parseType_taken {type : TypeSpelling}
    (hParse : TypeSpelling.parse (String.ofList t.bare) = .ok type) :
    TypeSpelling.parse (String.ofList t.full) =
      .error (.nameInType "int" (String.ofList t.full)) := by
  rw [TypeSpelling.parse_eq_ok_iff, String.toList_ofList] at hParse
  have hTaken := t.readDeclaration_unfinished h hParse
  simp only [TypeSpelling.parse, String.toList_ofList, Token.scan_trim,
    List.isEmpty_eq_false_iff.mpr (scan_ne_nil h).2, Bool.false_eq_true, if_false, hTaken]
  rfl

theorem parseField_taken {after : List Char} {f : FieldSignature} (hDeclarator : ';' ∉ t.declarator)
    (hAfter : EndsStatement after)
    (hParse : FieldSignature.parse (String.ofList (t.bare ++ after)) = .ok f) :
    FieldSignature.parse (String.ofList (t.full ++ after)) = .error (.unexpectedToken f.name) := by
  obtain ⟨hSome, hSomeFull⟩ := scan_ne_nil h
  obtain ⟨hFree, hFreeFull⟩ :=
    notMem_texts (List.mem_append_right finished h) (by decide) rfl hDeclarator
  rw [FieldSignature.parse, statement_of_spells (Token.spells_scan _) hSome hFree hAfter
    String.toList_ofList] at hParse
  obtain ⟨⟨type, name⟩, hRead, hParse⟩ := bind_eq_ok_iff.mp hParse
  have hName : f.name = name := by
    dsimp only at hParse
    split at hParse
    · cases hParse
    · cases hParse
      rfl
  rw [readTypeAndName_eq_ok_iff, Token.scan_trim] at hRead
  have hTaken : readTypeAndName (Text.trim t.full) = .error (.unexpectedToken name) := by
    apply readTypeAndName_error
    · rwa [Token.scan_trim]
    · rw [Token.scan_trim, t.readDeclaration_unfinished h hRead]
      rfl
  rw [FieldSignature.parse, statement_of_spells (Token.spells_scan _) hSomeFull hFreeFull hAfter
    String.toList_ofList, hTaken, hName]
  rfl

theorem parseReturn_taken {specifiers : List Specifier} {lead rest : List Char}
    {m : MethodSignature} (hDeclarator : '(' ∉ t.declarator)
    (hLead : SpellsKeywords specifiers lead)
    (hParse : MethodSignature.parse (String.ofList (lead ++ t.bare ++ '(' :: rest)) = .ok m) :
    MethodSignature.parse (String.ofList (lead ++ t.full ++ '(' :: rest)) =
      .error (.unexpectedToken m.name) := by
  have hMem := List.mem_append_right finished h
  obtain ⟨hFree, hFreeFull⟩ := notMem_texts hMem (by decide) rfl hDeclarator
  obtain ⟨first, bare, full, hFirst, hBare, hFull⟩ := scan_texts hMem
  obtain ⟨body, hKeywords, hBody⟩ := readKeywords_trim hLead hFirst hBare
  obtain ⟨body', hKeywords', hBody'⟩ := readKeywords_trim hLead hFirst hFull
  rw [MethodSignature.parse_eq (List.not_mem_append hLead.notMem_open hFree)
    String.toList_ofList] at hParse
  rw [MethodSignature.parse_eq (List.not_mem_append hLead.notMem_open hFreeFull)
    String.toList_ofList]
  cases hClose : splitAtClose 0 none (ended rest) with
  | none =>
    rw [hClose] at hParse
    cases hParse
  | some parts =>
    rw [hClose] at hParse
    dsimp only at hParse ⊢
    rw [MethodSignature.readParts, hKeywords] at hParse
    obtain ⟨tail, hTail, hParse⟩ := bind_eq_ok_iff.mp hParse
    dsimp only at hParse
    obtain ⟨⟨type, name⟩, hRead, hParse⟩ := bind_eq_ok_iff.mp hParse
    obtain ⟨params, -, hParse⟩ := bind_eq_ok_iff.mp hParse
    cases hParse
    rw [readTypeAndName_eq_ok_iff, hBody] at hRead
    have hTaken : readTypeAndName body' = .error (.unexpectedToken name) := by
      apply readTypeAndName_error
      · rw [hBody']
        exact (scan_ne_nil h).2
      · rw [hBody', t.readDeclaration_unfinished h hRead]
        rfl
    rw [MethodSignature.readParts, hKeywords', (agree_readTail _ _ _).ok hTail]
    simp only [bind, Except.bind, hTaken]

theorem parseParam_taken {head ending rest : List Char} {before after : List (List Char)}
    {m : MethodSignature} {p : ParamSignature}
    (hDeclarator : nested [',', '='] 0 0 0 none t.declarator = true) (hHead : '(' ∉ head)
    (hOthers : ∀ part ∈ before ++ after, nested [','] 0 0 0 none part = true)
    (hEnding : EndsParam ending)
    (hParse : MethodSignature.parse
      (methodText head (before ++ (t.bare ++ ending) :: after) rest) = .ok m)
    (hParam : m.params[before.length]? = some p) :
    MethodSignature.parse (methodText head (before ++ (t.full ++ ending) :: after) rest) =
      if p.name = "" then .ok (m.setParam before.length { p with name := "int" })
      else .error (.unexpectedToken p.name) := by
  have hMem := List.mem_append_right finished h
  obtain ⟨hNested, hNestedFull⟩ := nested_texts hMem hDeclarator
  obtain ⟨hMarked, hMarkedFull⟩ := isMarked_texts hMem
  obtain ⟨hRead, hReplace⟩ := MethodSignature.parse_replace hHead hOthers (hEnding.nested hNested)
    hParse hParam
  obtain ⟨default, hPieces⟩ := hEnding.readParam_append
  rw [hPieces _ hNested hMarked] at hRead
  obtain ⟨name, hDeclaration, hVoid, hMade⟩ := readPieces_eq_ok_iff.mp hRead
  rw [Token.scan_trim] at hDeclaration
  have hTaken := t.readDeclaration_unfinished h hDeclaration
  rw [hReplace _ (hEnding.nested hNestedFull) (hMarkedFull.append ending),
    hPieces _ hNestedFull hMarkedFull]
  cases name with
  | none =>
    have hNamed : readPieces (Text.trim t.full) default = .ok { p with name := "int" } := by
      refine readPieces_eq_ok_iff.mpr ⟨some "int", ?_, hVoid, ?_⟩
      · rw [Token.scan_trim]
        exact hTaken
      · rw [hMade]
        rfl
    have hNone : p.name = "" := congrArg ParamSignature.name hMade
    rw [if_pos hNone, hNamed]
    rfl
  | some second =>
    have hSecond : p.name = second := congrArg ParamSignature.name hMade
    have hSome : p.name ≠ "" := by
      rw [hSecond]
      rintro rfl
      exact absurd (isQualifiedName_of_readDeclaration hDeclaration) (by decide)
    rw [if_neg hSome, hSecond]
    simp only [readPieces, Token.scan_trim, List.isEmpty_eq_false_iff.mpr (scan_ne_nil h).2,
      Bool.false_eq_true, if_false, hTaken]
    rfl

end Sites

/-- In every place of a header, the word `int` behind an integer that may go without it changes
nothing, except behind `long` and `long long` alone: there it is taken for the name. -/
theorem optional_int (t : IntegerText) :
    ((∃ base, (t.words, base) ∈ finished) → t.Unchanged) ∧
      ((∃ base, (t.words, base) ∈ unfinished) → t.TakenForName) := by
  constructor
  · rintro ⟨base, h⟩
    exact unchanged_of_finished h
  · rintro ⟨base, h⟩
    exact
      { type := fun _ hParse => parseType_taken h hParse
        field := fun _ _ hDeclarator hAfter hParse => parseField_taken h hDeclarator hAfter hParse
        returnType := fun _ _ _ _ hDeclarator hLead hParse =>
          parseReturn_taken h hDeclarator hLead hParse
        param := fun _ _ _ _ _ _ _ hDeclarator hHead hOthers hEnding hParse hParam =>
          parseParam_taken h hDeclarator hHead hOthers hEnding hParse hParam }

def identifiers : IntegerText where
  qualifiers := ["const"]
  words := ["unsigned", "long"]
  front := "const unsigned long".toList
  gap := [' ']
  declarator := " ids[4]".toList
  hQualifiers := by decide
  hFront := Token.spells_of_scan (by decide +kernel)
  hGap := by decide
  hEnd := Token.endsWord_blank (by decide)
  hDeclarator := by decide +kernel

def volume : IntegerText where
  qualifiers := []
  words := ["long"]
  front := "long".toList
  gap := [' ']
  declarator := " volume".toList
  hQualifiers := by decide
  hFront := Token.spells_of_scan (by decide +kernel)
  hGap := by decide
  hEnd := Token.endsWord_blank (by decide)
  hDeclarator := by decide +kernel

theorem optional_int_sample :
    FieldSignature.parse "const unsigned long int ids[4];" = .ok
        ⟨"ids", { base := "unsigned long", isConst := true, arrayLength := some 4 }⟩ ∧
      FieldSignature.parse "long int volume;" = .error (.unexpectedToken "volume") := by
  have hAfter : EndsStatement [';'] := .run (List.forall_mem_nil _) 1 (List.forall_mem_nil _)
  constructor
  · have hUnchanged := (optional_int identifiers).1 ⟨"unsigned long", by decide⟩
    have hBare : FieldSignature.parse (String.ofList (identifiers.bare ++ [';'])) = .ok
        ⟨"ids", { base := "unsigned long", isConst := true, arrayLength := some 4 }⟩ := by
      decide +kernel
    exact Agree.ok (hUnchanged.field _ (by decide) hAfter).symm hBare
  · have hTaken := (optional_int volume).2 ⟨"long", by decide⟩
    have hBare : FieldSignature.parse (String.ofList (volume.bare ++ [';'])) =
        .ok ⟨"volume", { base := "long" }⟩ := by decide +kernel
    exact hTaken.field _ _ (by decide) hAfter hBare

/-- A field of type `long` is not read with an `int`, and one of type `signed long` is. -/
theorem long_int_unread :
    FieldSignature.parse "long x" = .ok ⟨"x", { base := "long" }⟩ ∧
      FieldSignature.parse "long int x" = .error (.unexpectedToken "x") ∧
      FieldSignature.parse "signed long int x" = .ok ⟨"x", { base := "long" }⟩ := by
  decide +kernel

end IntegerText

end NativeBinding.Header
