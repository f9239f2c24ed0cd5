import NativeBinding.Proofs.Header.Spelling
import NativeBinding.Proofs.Success

/-! # Methods in parts

A method is read from the parts of its text, and each text between its commas is read alone. White
space around a part does not matter.
-/

set_option autoImplicit false

namespace NativeBinding.Header

section Trim

variable {delimiter c : Char} {depth : Int} {quote : Option Char} {text blanks : List Char}

theorem splitFrom_append (part before text : List Char) :
    splitFrom delimiter depth quote (part ++ before) text =
      (splitFrom delimiter depth quote part text).modifyHead (before.reverse ++ ·) := by
  induction text generalizing depth quote part with
  | nil => simp [splitFrom]
  | cons c text ih =>
    rw [splitFrom_step, splitFrom_step]
    split_ifs
    · simp
    · exact ih (c :: part)

variable (hDelimiter : Text.isBlank delimiter = false)
include hDelimiter

theorem splitFrom_blank (hBlank : Text.isBlank c = true) (part text : List Char) :
    splitFrom delimiter depth none part (c :: text) =
      splitFrom delimiter depth none (c :: part) text := by
  have hPlain := notMem_punctuation_of_isBlank hBlank
  simp only [punctuation, List.mem_cons, List.not_mem_nil, or_false, not_or] at hPlain
  have hOther : (c == delimiter) = false := by
    rw [beq_eq_false_iff_ne]
    rintro rfl
    rw [hBlank] at hDelimiter
    cases hDelimiter
  simp [splitFrom, isQuote, isOpening, isClosing, hPlain, hOther]

theorem splitFrom_blanks (hBlanks : Text.AllBlank blanks) (part : List Char) :
    splitFrom delimiter depth quote part blanks = [part.reverse ++ blanks] := by
  induction blanks generalizing quote part with
  | nil => simp [splitFrom]
  | cons c blanks ih =>
    rw [Text.AllBlank, List.forall_mem_cons] at hBlanks
    have hPart : part.reverse ++ c :: blanks = (c :: part).reverse ++ blanks := by simp
    rw [hPart]
    cases quote with
    | some q => exact ih hBlanks.2 (c :: part)
    | none =>
      rw [splitFrom_blank hDelimiter hBlanks.1]
      exact ih hBlanks.2 (c :: part)

theorem map_trim_splitTopLevel_trimStart (text : List Char) :
    (splitTopLevel delimiter (Text.trimStart text)).map Text.trim =
      (splitTopLevel delimiter text).map Text.trim := by
  induction text with
  | nil => rfl
  | cons c text ih =>
    by_cases hBlank : Text.isBlank c = true
    · have hHead : splitTopLevel delimiter (c :: text) =
          (splitTopLevel delimiter text).modifyHead (c :: ·) := by
        rw [splitTopLevel, splitFrom_blank hDelimiter hBlank]
        exact splitFrom_append [] [c] text
      rw [Text.trimStart_blank hBlank, ih, hHead]
      cases splitTopLevel delimiter text with
      | nil => rfl
      | cons part parts =>
        rw [List.modifyHead_cons, List.map_cons, List.map_cons, Text.trim_blank hBlank]
    · rw [Bool.not_eq_true] at hBlank
      rw [Text.trimStart_cons hBlank]

theorem map_trim_splitFrom_blanks (hBlanks : Text.AllBlank blanks) (part text : List Char) :
    (splitFrom delimiter depth quote part (text ++ blanks)).map Text.trim =
      (splitFrom delimiter depth quote part text).map Text.trim := by
  induction text generalizing depth quote part with
  | nil =>
    rw [List.nil_append, splitFrom_blanks hDelimiter hBlanks, splitFrom, List.map_singleton,
      List.map_singleton, Text.trim_append_blanks hBlanks]
  | cons c text ih =>
    rw [List.cons_append, splitFrom_step, splitFrom_step]
    split_ifs
    · rw [List.map_cons, List.map_cons, ih]
    · exact ih (c :: part)

theorem map_trim_splitTopLevel_trim (text : List Char) :
    (splitTopLevel delimiter (Text.trim text)).map Text.trim =
      (splitTopLevel delimiter text).map Text.trim := by
  obtain ⟨blanks, hBlanks, hText⟩ := Text.exists_blanks_trimEnd (Text.trimStart text)
  have hEnd : (splitTopLevel delimiter (Text.trim text ++ blanks)).map Text.trim =
      (splitTopLevel delimiter (Text.trim text)).map Text.trim :=
    map_trim_splitFrom_blanks hDelimiter hBlanks [] (Text.trim text)
  rw [← hEnd, Text.trim, hText, map_trim_splitTopLevel_trimStart hDelimiter]

end Trim

section Params

def commaSeparated : List (List Char) → List Char
  | [] => []
  | [part] => part
  | part :: parts => part ++ ',' :: commaSeparated parts

variable {parts : List (List Char)} (hParts : ∀ part ∈ parts, nested [','] 0 0 0 none part = true)
include hParts

theorem splitTopLevel_commaSeparated (hSome : parts ≠ []) :
    splitTopLevel ',' (commaSeparated parts) = parts := by
  induction parts with
  | nil => exact absurd rfl hSome
  | cons part parts ih =>
    rw [List.forall_mem_cons] at hParts
    cases parts with
    | nil => exact splitTopLevel_nested (List.mem_singleton_self ',') hParts.1
    | cons next parts =>
      rw [commaSeparated, splitTopLevel_cons (List.mem_singleton_self ',') (by decide) hParts.1,
        ih hParts.2 (List.cons_ne_nil _ _)]
      exact List.cons_ne_nil _ _

theorem nested_commaSeparated : nested [] 0 0 0 none (commaSeparated parts) = true := by
  induction parts with
  | nil => rfl
  | cons part parts ih =>
    rw [List.forall_mem_cons] at hParts
    have hPart := nested_mono (List.nil_subset _) hParts.1
    cases parts with
    | nil => exact hPart
    | cons next parts =>
      have hRest := ih hParts.2
      rw [commaSeparated]
      · exact nested_append hPart (by simpa [nested, isQuote] using hRest)
      · exact List.cons_ne_nil _ _

omit hParts

/-- Reads a parameter of its declaration and its default. -/
def readPieces (declaration : List Char) (default : Option String) :
    Except SignatureError ParamSignature := do
  let tokens := Token.scan declaration
  if tokens.isEmpty then throw .emptyParameter
  let (type, name) ← readDeclaration tokens
  if type.isVoid then throw .voidParameter
  pure { name := name.getD "", type, default }

theorem readPieces_eq_ok_iff {text : List Char} {default : Option String} {p : ParamSignature} :
    readPieces text default = .ok p ↔ ∃ name,
      readDeclaration (Token.scan text) = .ok (p.type, name) ∧ p.type.isVoid = false ∧
        p = { name := name.getD "", type := p.type, default } := by
  rw [readPieces]
  generalize Token.scan text = tokens
  cases tokens with
  | nil => exact ⟨nofun, nofun⟩
  | cons token tokens =>
    simp only [List.isEmpty_cons, Bool.false_eq_true, if_false, bind_eq_ok_iff]
    constructor
    · rintro ⟨⟨type, name⟩, hRead, hMade⟩
      dsimp only at hMade
      split at hMade
      · cases hMade
      · rename_i hVoid
        cases hMade
        exact ⟨name, hRead, by simpa using hVoid, rfl⟩
    · rintro ⟨name, hRead, hVoid, hMade⟩
      refine ⟨_, hRead, ?_⟩
      rw [hMade]
      simp only [hVoid, Bool.false_eq_true, if_false]
      rfl

/-- A text with a character that neither `void` nor an ellipsis has. -/
def IsMarked (text : List Char) : Prop :=
  ∃ c ∈ text, Text.isBlank c = false ∧ c ∉ ['v', 'o', 'i', 'd', '.']

theorem IsMarked.append {text : List Char} (h : IsMarked text) (after : List Char) :
    IsMarked (text ++ after) := by
  obtain ⟨c, hc, hMark⟩ := h
  exact ⟨c, List.mem_append_left _ hc, hMark⟩

theorem IsMarked.trim_notMem {text : List Char} (h : IsMarked text) :
    Text.trim text ∉ [[], ['v', 'o', 'i', 'd'], ['.', '.', '.']] := by
  obtain ⟨c, hc, hBlank, hNone⟩ := h
  have hKept := Text.mem_trim hBlank hc
  intro hMem
  simp only [List.mem_cons, List.not_mem_nil, or_false] at hMem hNone
  rcases hMem with hNil | hVoid | hDots
  · rw [hNil] at hKept
    cases hKept
  · rw [hVoid] at hKept
    simp only [List.mem_cons, List.not_mem_nil, or_false] at hKept
    tauto
  · rw [hDots] at hKept
    simp only [List.mem_cons, List.not_mem_nil, or_false] at hKept
    tauto

theorem mem_commaSeparated {part : List Char} {c : Char} (hPart : part ∈ parts) (hc : c ∈ part) :
    c ∈ commaSeparated parts := by
  fun_induction commaSeparated parts with
  | case1 => cases hPart
  | case2 part => rwa [List.mem_singleton.mp hPart] at hc
  | case3 part parts _ ih =>
    rw [List.mem_append]
    rcases List.mem_cons.mp hPart with rfl | hPart
    · exact .inl hc
    · exact .inr (List.mem_cons_of_mem _ (ih hPart))

theorem IsMarked.commaSeparated {part : List Char} (h : IsMarked part) (hPart : part ∈ parts) :
    IsMarked (commaSeparated parts) := by
  obtain ⟨c, hc, hMark⟩ := h
  exact ⟨c, mem_commaSeparated hPart hc, hMark⟩

theorem readParam_eq (text : List Char) : readParam text =
    if Text.trim text = ['.', '.', '.'] then .error .variadic
    else
      readPieces (((splitTopLevel '=' text).map Text.trim).headD [])
        (((splitTopLevel '=' text).map Text.trim)[1]?.map String.ofList) := by
  have hBlank : Text.isBlank '=' = false := by decide
  have hPieces := map_trim_splitTopLevel_trim hBlank text
  have hHead (pieces : List (List Char)) :
      (pieces.map Text.trim).headD [] = Text.trim (pieces.headD []) := by
    cases pieces <;> rfl
  have hDefault (pieces : List (List Char)) : (pieces.map Text.trim)[1]?.map String.ofList =
      pieces[1]?.map fun piece => String.ofList (Text.trim piece) := by
    rw [List.getElem?_map, Option.map_map]
    rfl
  rw [← hPieces, hHead, hDefault, readParam]
  simp only [beq_iff_eq]
  split
  · rfl
  · rfl

theorem readParam_bare {text : List Char} (hText : nested [',', '='] 0 0 0 none text = true)
    (hDots : Text.trim text ≠ ['.', '.', '.']) :
    readParam text = readPieces (Text.trim text) none := by
  have hPieces : splitTopLevel '=' text = [text] := splitTopLevel_nested (by decide) hText
  rw [readParam_eq, if_neg hDots, hPieces]
  rfl

theorem readParam_withDefault {text : List Char}
    (hText : nested [',', '='] 0 0 0 none text = true) (value : List Char) :
    readParam (text ++ '=' :: value) = readPieces (Text.trim text)
      (((splitTopLevel '=' value).map Text.trim).head?.map String.ofList) := by
  have hPieces : splitTopLevel '=' (text ++ '=' :: value) = text :: splitTopLevel '=' value :=
    splitTopLevel_cons (by decide) (by decide) hText value
  have hDots : Text.trim (text ++ '=' :: value) ≠ ['.', '.', '.'] := by
    intro hDots
    have hMem : '=' ∈ Text.trim (text ++ '=' :: value) := Text.mem_trim (by decide) (by simp)
    rw [hDots] at hMem
    exact absurd hMem (by decide)
  rw [readParam_eq, if_neg hDots, hPieces, List.map_cons, List.headD_cons,
    List.getElem?_cons_succ, ← List.head?_eq_getElem?]

theorem readParam_trim (text : List Char) : readParam (Text.trim text) = readParam text := by
  have hBlank : Text.isBlank '=' = false := by decide
  rw [readParam_eq, readParam_eq, Text.trim_trim, map_trim_splitTopLevel_trim hBlank]

theorem mapM_readParam_map_trim (parts : List (List Char)) :
    (parts.map Text.trim).mapM readParam = parts.mapM readParam := by
  induction parts with
  | nil => rfl
  | cons part parts ih => rw [List.map_cons, List.mapM_cons, List.mapM_cons, ih, readParam_trim]

theorem readParams_commaSeparated {parts : List (List Char)} (hSome : parts ≠ [])
    (hParts : ∀ part ∈ parts, nested [','] 0 0 0 none part = true) :
    readParams (commaSeparated parts) =
      if Text.trim (commaSeparated parts) ∈ [[], ['v', 'o', 'i', 'd']] then .ok []
      else parts.mapM readParam := by
  have hBlank : Text.isBlank ',' = false := by decide
  have hRead : (splitTopLevel ',' (Text.trim (commaSeparated parts))).mapM readParam =
      parts.mapM readParam := by
    rw [← mapM_readParam_map_trim, map_trim_splitTopLevel_trim hBlank, mapM_readParam_map_trim,
      splitTopLevel_commaSeparated hParts hSome]
  have hVoid (text : List Char) : (text.isEmpty || String.ofList text == "void") = true ↔
      text ∈ [[], ['v', 'o', 'i', 'd']] := by
    have hText : String.ofList text = "void" ↔ text = ['v', 'o', 'i', 'd'] := by
      rw [← String.toList_inj, String.toList_ofList]
      rfl
    simp [hText]
  rw [readParams]
  simp only [hVoid, hRead]

end Params

section Agree

/-- An error without the text that it quotes. -/
def SignatureError.unquoted : SignatureError → SignatureError
  | nameInType name _ => nameInType name ""
  | missingOpen _ => missingOpen ""
  | missingClose _ => missingClose ""
  | unterminatedBody _ => unterminatedBody ""
  | unexpectedQualifier word _ => unexpectedQualifier word ""
  | missingName _ => missingName ""
  | e => e

/-- The same result, but for the text that an error quotes. -/
def Agree {α : Type} (x y : Except SignatureError α) : Prop :=
  x.mapError SignatureError.unquoted = y.mapError SignatureError.unquoted

namespace Agree

variable {α β : Type} {x y : Except SignatureError α} {f g : α → Except SignatureError β} {a : α}

theorem bind (h : Agree x y) (hNext : ∀ a, Agree (f a) (g a)) : Agree (x >>= f) (y >>= g) := by
  cases x with
  | error e =>
    cases y with
    | error e' => exact congrArg Except.error (Except.error.inj h)
    | ok b => cases h
  | ok a =>
    cases y with
    | error e => cases h
    | ok b =>
      cases h
      exact hNext a

theorem ok (h : Agree x y) (hx : x = .ok a) : y = .ok a := by
  cases hx
  cases y <;> cases h
  rfl

end Agree

theorem agree_readQualifierWords (input other : String) (tail : Tail) (words : List (List Char)) :
    Agree (readQualifierWords input tail words) (readQualifierWords other tail words) := by
  induction words generalizing tail with
  | nil => rfl
  | cons word words ih =>
    simp only [readQualifierWords]
    split
    · exact ih _
    · exact ih _
    · exact ih _
    · exact ih _
    · rfl

theorem agree_readTail (input other : String) (text : List Char) :
    Agree (readTail input text) (readTail other text) := by
  refine Agree.bind ?_ fun text => agree_readQualifierWords input other _ _
  unfold dropBody
  split_ifs <;> rfl

/-- Two texts with tokens that are read as one declaration. -/
structure Alike (text other : List Char) : Prop where
  same : readDeclaration (Token.scan text) = readDeclaration (Token.scan other)
  some : Token.scan text ≠ []
  other : Token.scan other ≠ []

namespace Alike

variable {text other : List Char}

theorem trim (h : Alike text other) : Alike (Text.trim text) (Text.trim other) := by
  obtain ⟨hSame, hSome, hOther⟩ := h
  rw [← Token.scan_trim] at hSame hSome hOther
  rw [← Token.scan_trim other] at hSame
  exact ⟨hSame, hSome, hOther⟩

theorem readTypeAndName (h : Alike text other) :
    Agree (Header.readTypeAndName text) (Header.readTypeAndName other) := by
  rw [Header.readTypeAndName, Header.readTypeAndName, h.same]
  simp only [List.isEmpty_eq_false_iff.mpr h.some, List.isEmpty_eq_false_iff.mpr h.other,
    Bool.false_eq_true, if_false]
  refine Agree.bind rfl ?_
  rintro ⟨type, _ | name⟩ <;> rfl

theorem readPieces (h : Alike text other) (default : Option String) :
    Header.readPieces text default = Header.readPieces other default := by
  rw [Header.readPieces, Header.readPieces, h.same]
  simp only [List.isEmpty_eq_false_iff.mpr h.some, List.isEmpty_eq_false_iff.mpr h.other]

theorem parseType (h : Alike text other) :
    Agree (TypeSpelling.parse (String.ofList text)) (TypeSpelling.parse (String.ofList other)) := by
  rw [TypeSpelling.parse, TypeSpelling.parse, String.toList_ofList, String.toList_ofList,
    h.trim.same]
  simp only [List.isEmpty_eq_false_iff.mpr h.trim.some, List.isEmpty_eq_false_iff.mpr h.trim.other,
    Bool.false_eq_true, if_false]
  refine Agree.bind rfl ?_
  rintro ⟨type, _ | name⟩ <;> rfl

theorem parseField {after : List Char} (h : Alike text other) (hText : ';' ∉ text)
    (hOther : ';' ∉ other) (hAfter : EndsStatement after) :
    Agree (FieldSignature.parse (String.ofList (text ++ after)))
      (FieldSignature.parse (String.ofList (other ++ after))) := by
  rw [FieldSignature.parse, FieldSignature.parse,
    statement_of_spells (Token.spells_scan text) h.some hText hAfter String.toList_ofList,
    statement_of_spells (Token.spells_scan other) h.other hOther hAfter String.toList_ofList]
  exact Agree.bind h.trim.readTypeAndName fun _ => rfl

end Alike

end Agree

section Method

variable {head : List Char}

/-- A method with given texts between its commas. -/
def methodText (head : List Char) (parts : List (List Char)) (rest : List Char) : String :=
  String.ofList (head ++ '(' :: (commaSeparated parts ++ ')' :: rest))

theorem MethodSignature.parse_methodText {parts : List (List Char)} (hHead : '(' ∉ head)
    (hParts : ∀ part ∈ parts, nested [','] 0 0 0 none part = true) (rest : List Char) :
    MethodSignature.parse (methodText head parts rest) =
      MethodSignature.readParts (methodText head parts rest) head (commaSeparated parts)
        (ended rest) := by
  have hClose : splitAtClose 0 none (ended (commaSeparated parts ++ ')' :: rest)) =
      some (commaSeparated parts, ended rest) := by
    rw [ended_append_cons (by decide) (by decide),
      splitAtClose_nested (nested_commaSeparated hParts)]
    simp [splitAtClose, isQuote]
  have hInput : (methodText head parts rest).toList =
      head ++ '(' :: (commaSeparated parts ++ ')' :: rest) := String.toList_ofList
  rw [MethodSignature.parse_eq hHead hInput, hClose]

theorem MethodSignature.readParts_eq {input : String} {inner after : List Char}
    {m : MethodSignature} (h : readParts input head inner after = .ok m) :
    readParams inner = .ok m.params ∧ ∀ other inner', readParts other head inner' after =
      (readParams inner').map fun params => { m with params } := by
  obtain ⟨tail, hTail, h⟩ := bind_eq_ok_iff.mp h
  dsimp only at h
  obtain ⟨⟨type, name⟩, hType, h⟩ := bind_eq_ok_iff.mp h
  obtain ⟨params, hParams, h⟩ := bind_eq_ok_iff.mp h
  cases h
  refine ⟨hParams, fun other inner' => ?_⟩
  have hTail' : readTail other after = .ok tail := (agree_readTail input other after).ok hTail
  simp only [readParts, hTail', hType, bind, Except.bind]
  cases readParams inner' <;> rfl

def MethodSignature.setParam (m : MethodSignature) (i : Nat) (p : ParamSignature) :
    MethodSignature :=
  { m with params := m.params.set i p }

theorem nested_parts {before after : List (List Char)} {part : List Char}
    (hOthers : ∀ part ∈ before ++ after, nested [','] 0 0 0 none part = true)
    (hPart : nested [','] 0 0 0 none part = true) :
    ∀ other ∈ before ++ part :: after, nested [','] 0 0 0 none other = true := by
  simp only [List.mem_append, List.mem_cons] at hOthers ⊢
  rintro other (hMem | rfl | hMem)
  · exact hOthers other (.inl hMem)
  · exact hPart
  · exact hOthers other (.inr hMem)

theorem readParams_marked {before after : List (List Char)} {part : List Char}
    (hOthers : ∀ part ∈ before ++ after, nested [','] 0 0 0 none part = true)
    (hPart : nested [','] 0 0 0 none part = true) (hMarked : IsMarked part) :
    readParams (commaSeparated (before ++ part :: after)) =
      (before ++ part :: after).mapM readParam := by
  have hSome : before ++ part :: after ≠ [] := by simp
  have hHere : part ∈ before ++ part :: after := by simp
  rw [readParams_commaSeparated hSome (nested_parts hOthers hPart), if_neg]
  have hWord := (hMarked.commaSeparated hHere).trim_notMem
  simp only [List.mem_cons, List.not_mem_nil, or_false, not_or] at hWord ⊢
  exact ⟨hWord.1, hWord.2.1⟩

theorem MethodSignature.parse_replace {before after : List (List Char)} {part rest : List Char}
    {m : MethodSignature} {p : ParamSignature} (hHead : '(' ∉ head)
    (hOthers : ∀ part ∈ before ++ after, nested [','] 0 0 0 none part = true)
    (hPart : nested [','] 0 0 0 none part = true)
    (h : MethodSignature.parse (methodText head (before ++ part :: after) rest) = .ok m)
    (hParam : m.params[before.length]? = some p) :
    readParam part = .ok p ∧
      ∀ part', nested [','] 0 0 0 none part' = true → IsMarked part' →
        MethodSignature.parse (methodText head (before ++ part' :: after) rest) =
          (readParam part').map (m.setParam before.length) := by
  have hSome : before ++ part :: after ≠ [] := by simp
  rw [parse_methodText hHead (nested_parts hOthers hPart)] at h
  obtain ⟨hParams, hReplace⟩ := readParts_eq h
  rw [readParams_commaSeparated hSome (nested_parts hOthers hPart)] at hParams
  split at hParams
  · rw [← Except.ok.inj hParams] at hParam
    cases hParam
  · obtain ⟨p', hRead, hAt, hOther⟩ := mapM_replace hParams
    cases hParam.symm.trans hAt
    refine ⟨hRead, fun part' hPart' hMarked => ?_⟩
    rw [parse_methodText hHead (nested_parts hOthers hPart'), hReplace,
      readParams_marked hOthers hPart' hMarked, hOther]
    cases readParam part' <;> rfl

section Alike

variable {text other : List Char}

theorem readKeywords_trim {specifiers : List Specifier} {lead : List Char} {first : String}
    {tokens : List Token} (hLead : SpellsKeywords specifiers lead)
    (hFirst : first ∉ ["virtual", "static", "inline"])
    (hScan : Token.scan text = .word first :: tokens) :
    ∃ rest, readKeywords (Text.trim (lead ++ text)) = (specifiers, rest) ∧
      Token.scan rest = Token.scan text := by
  have hText := Token.spells_of_scan hScan
  have hTrim : Text.trim (lead ++ text) = Text.trimStart (lead ++ Text.trimEnd text) := by
    obtain ⟨before, c, rest, rfl, hMark⟩ := hText.exists_mark (List.cons_ne_nil _ _)
    rw [Text.trimEnd_append_cons hMark, ← List.append_assoc, Text.trim_append_cons hMark,
      ← List.append_assoc, Text.trimStart_append_cons hMark]
  obtain ⟨rest, hRead, hRest⟩ := readKeywords_append hLead hFirst hText.trimEnd
  exact ⟨rest, hTrim ▸ hRead, (Token.scan_of_spells hRest).trans hScan.symm⟩

theorem Alike.parseReturn {specifiers : List Specifier} {lead rest : List Char}
    {first : String} {tokens others : List Token} (h : Alike text other)
    (hLead : SpellsKeywords specifiers lead) (hText : '(' ∉ lead ++ text)
    (hOther : '(' ∉ lead ++ other) (hFirst : first ∉ ["virtual", "static", "inline"])
    (hScan : Token.scan text = .word first :: tokens)
    (hOtherScan : Token.scan other = .word first :: others) :
    Agree (MethodSignature.parse (String.ofList (lead ++ text ++ '(' :: rest)))
      (MethodSignature.parse (String.ofList (lead ++ other ++ '(' :: rest))) := by
  obtain ⟨body, hRead, hBody⟩ := readKeywords_trim hLead hFirst hScan
  obtain ⟨body', hRead', hBody'⟩ := readKeywords_trim hLead hFirst hOtherScan
  have hAlike : Alike body body' := by
    refine ⟨?_, ?_, ?_⟩
    · rw [hBody, hBody', h.same]
    · rw [hBody]
      exact h.some
    · rw [hBody']
      exact h.other
  rw [MethodSignature.parse_eq hText String.toList_ofList,
    MethodSignature.parse_eq hOther String.toList_ofList]
  cases splitAtClose 0 none (ended rest) with
  | none => rfl
  | some parts =>
    dsimp only
    rw [MethodSignature.readParts, MethodSignature.readParts, hRead, hRead']
    refine Agree.bind (agree_readTail _ _ _) fun tail => ?_
    exact Agree.bind hAlike.readTypeAndName fun _ => rfl

/-- What may stand behind the declaration of a parameter. -/
inductive EndsParam : List Char → Prop
  | bare : EndsParam []
  | withDefault {value} (hValue : nested [','] 0 0 0 none value = true) :
      EndsParam ('=' :: value)

theorem EndsParam.nested {ending : List Char} (hEnding : EndsParam ending)
    (hText : Header.nested [',', '='] 0 0 0 none text = true) :
    Header.nested [','] 0 0 0 none (text ++ ending) = true := by
  have hComma : Header.nested [','] 0 0 0 none text = true :=
    nested_mono (List.cons_subset_cons _ (List.nil_subset _)) hText
  cases hEnding with
  | bare => rwa [List.append_nil]
  | withDefault hValue =>
    exact nested_append hComma (by simpa [Header.nested, isQuote] using hValue)

theorem EndsParam.readParam_append {ending : List Char} (hEnding : EndsParam ending) :
    ∃ default, ∀ text, Header.nested [',', '='] 0 0 0 none text = true → IsMarked text →
      readParam (text ++ ending) = readPieces (Text.trim text) default := by
  cases hEnding with
  | bare =>
    refine ⟨none, fun text hText hMarked => ?_⟩
    have hDots := hMarked.trim_notMem
    simp only [List.mem_cons, List.not_mem_nil, or_false, not_or] at hDots
    rw [List.append_nil, readParam_bare hText hDots.2.2]
  | withDefault => exact ⟨_, fun text hText _ => readParam_withDefault hText _⟩

theorem Alike.parseParam {before after : List (List Char)} {ending rest : List Char}
    (h : Alike text other) (hHead : '(' ∉ head)
    (hOthers : ∀ part ∈ before ++ after, Header.nested [','] 0 0 0 none part = true)
    (hText : Header.nested [',', '='] 0 0 0 none text = true)
    (hOther : Header.nested [',', '='] 0 0 0 none other = true) (hMarked : IsMarked text)
    (hMarkedOther : IsMarked other) (hEnding : EndsParam ending) :
    Agree (MethodSignature.parse (methodText head (before ++ (text ++ ending) :: after) rest))
      (MethodSignature.parse (methodText head (before ++ (other ++ ending) :: after) rest)) := by
  obtain ⟨default, hRead⟩ := hEnding.readParam_append
  have hSame : readParam (text ++ ending) = readParam (other ++ ending) := by
    rw [hRead text hText hMarked, hRead other hOther hMarkedOther, h.trim.readPieces]
  rw [MethodSignature.parse_methodText hHead (nested_parts hOthers (hEnding.nested hText)),
    MethodSignature.parse_methodText hHead (nested_parts hOthers (hEnding.nested hOther)),
    MethodSignature.readParts, MethodSignature.readParts]
  rw [readParams_marked hOthers (hEnding.nested hText) (hMarked.append ending),
    readParams_marked hOthers (hEnding.nested hOther) (hMarkedOther.append ending),
    List.mapM_append, List.mapM_append, List.mapM_cons, List.mapM_cons, hSame]
  exact Agree.bind (agree_readTail _ _ _) fun tail => rfl

end Alike

end Method

end NativeBinding.Header
