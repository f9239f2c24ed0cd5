import NativeBinding.Proofs.Header.Nesting
import NativeBinding.Proofs.Header.Types

/-! # Parameter lists

How the parameters of a method are spelled, and that they are read as they were declared: each text
between two commas is one parameter, however commas stand inside of its default.
-/

set_option autoImplicit false

namespace NativeBinding.Header

theorem plainWord_of_isQualifiedName {name : String} (h : Text.isQualifiedName name = true) :
    PlainWord name := by
  unfold Text.isQualifiedName at h
  split at h
  · cases h
  · rename_i first rest hCons
    rw [Bool.and_eq_true, List.all_eq_true] at h
    rw [PlainWord, hCons, List.forall_mem_cons]
    refine ⟨List.cons_ne_nil _ _, ?_, h.2⟩
    have hFirst := h.1
    rw [Text.startsIdentifier, Bool.or_eq_true] at hFirst
    rw [Text.continuesIdentifier]
    rcases hFirst with hLetter | hUnderscore
    · simp [hLetter]
    · simp [hUnderscore]

theorem plainWord_natural (n : Nat) : PlainWord (Text.natural n) := by
  obtain ⟨c, digits, hChars, -⟩ := Ieee.exists_naturalChars n
  rw [PlainWord, Text.natural, String.toList_ofList]
  constructor
  · rw [hChars]
    exact List.cons_ne_nil _ _
  · intro c hc
    obtain ⟨d, hd, rfl⟩ := List.mem_map.mp hc
    have hDigit := Text.isAsciiDigit_digitChar (Text.lt_ten_of_mem_decimalDigits hd)
    simp [Text.continuesIdentifier, hDigit]

section Declaration

variable {type : TypeSpelling} {name : Option String} {tokens rest : List Token}

/-- A word of plain characters, as a token. -/
def IsPlainWord (token : Token) : Prop :=
  ∃ word, token = .word word ∧ PlainWord word

theorem plain_base {base : String} (h : SpellsBase base tokens) :
    ∀ token ∈ tokens, IsPlainWord token := by
  cases h with
  | builtin hWords =>
    have hAll : ∀ entry ∈ builtins, ∀ word ∈ entry.2, PlainWord word := by decide +kernel
    intro token hMem
    obtain ⟨word, hWord, rfl⟩ := List.mem_map.mp hMem
    exact ⟨word, rfl, hAll _ hWords word hWord⟩
  | name hName =>
    exact List.forall_mem_singleton.mpr ⟨base, rfl, plainWord_of_isQualifiedName hName.1⟩

theorem plain_specifiers (h : type.SpellsSpecifiers tokens) :
    ∀ token ∈ tokens, IsPlainWord token := by
  have hConst : IsPlainWord (.word "const") :=
    ⟨"const", rfl, plainWord_of_isQualifiedName (by decide)⟩
  cases h with
  | unqualified _ hBase => exact plain_base hBase
  | constBefore _ hBase => exact List.forall_mem_cons.mpr ⟨hConst, plain_base hBase⟩
  | constAfter _ hBase =>
    exact List.forall_mem_append.mpr ⟨plain_base hBase, List.forall_mem_singleton.mpr hConst⟩

theorem closed_words (h : ∀ token ∈ tokens, IsPlainWord token) (squares : Nat) :
    closed squares (tokens ++ rest) = closed squares rest := by
  induction tokens with
  | nil => rfl
  | cons token tokens ih =>
    rw [List.forall_mem_cons] at h
    obtain ⟨word, rfl, -⟩ := h.1
    rw [List.cons_append, closed, ih h.2]
    · intro hSame
      cases hSame
    · intro hSame
      cases hSame

theorem closed_indirections (squares : Nat) :
    closed squares (type.indirections ++ rest) = closed squares rest := by
  have hStars (n : Nat) (rest : List Token) :
      closed squares (List.replicate n .star ++ rest) = closed squares rest := by
    induction n with
    | zero => rfl
    | succ n ih =>
      rw [List.replicate_succ, List.cons_append, closed, ih]
      · intro hSame
        cases hSame
      · intro hSame
        cases hSame
  rw [TypeSpelling.indirections, List.append_assoc, hStars]
  cases type.isReference with
  | true => rfl
  | false => rfl

theorem closed_extent (squares : Nat) :
    closed squares (type.extent ++ rest) = closed squares rest := by
  rw [TypeSpelling.extent]
  cases type.arrayLength with
  | none => rfl
  | some n => simp [closed]

theorem IsPlainWord.plain {word : String} (h : IsPlainWord (.word word)) : PlainWord word := by
  obtain ⟨_, hSame, hPlain⟩ := h
  cases hSame
  exact hPlain

theorem plain_names (hName : ∀ n, name = some n → IsName n) :
    ∀ token ∈ name.toList.map Token.word, IsPlainWord token := by
  intro token hMem
  obtain ⟨n, hn, rfl⟩ := List.mem_map.mp hMem
  exact ⟨n, rfl, plainWord_of_isQualifiedName (hName n (Option.mem_toList.mp hn)).1⟩

theorem word_notMem_indirections (word : String) : .word word ∉ type.indirections := by
  rw [TypeSpelling.indirections]
  cases type.isReference <;> simp

theorem plain_of_mem_extent {word : String} (h : .word word ∈ type.extent) : PlainWord word := by
  rw [TypeSpelling.extent] at h
  cases hLength : type.arrayLength with
  | none => simp [hLength] at h
  | some n =>
    rw [hLength] at h
    simp only [List.mem_cons, Token.word.injEq, List.not_mem_nil, or_false, reduceCtorEq,
      false_or] at h
    rw [h]
    exact plainWord_natural n

theorem plain_of_mem_parts {specifiers : List Token} (h : type.SpellsSpecifiers specifiers)
    (hName : ∀ n, name = some n → IsName n) {word : String}
    (hMem : .word word ∈ specifiers ∨ .word word ∈ type.indirections ∨
      .word word ∈ name.toList.map Token.word ∨ .word word ∈ type.extent) : PlainWord word := by
  rcases hMem with hMem | hMem | hMem | hMem
  · exact (plain_specifiers h _ hMem).plain
  · exact absurd hMem (word_notMem_indirections word)
  · exact (plain_names hName _ hMem).plain
  · exact plain_of_mem_extent hMem

theorem plain_declaration (h : type.SpellsDeclaration name tokens)
    (hName : ∀ n, name = some n → IsName n) :
    (∀ word, .word word ∈ tokens → PlainWord word) ∧ closed 0 tokens = true := by
  cases h with
  | extentLast hSpecifiers =>
    constructor
    · intro word hMem
      refine plain_of_mem_parts hSpecifiers hName ?_
      simp only [List.mem_append] at hMem
      tauto
    · rw [List.append_assoc, List.append_assoc, closed_words (plain_specifiers hSpecifiers),
        closed_indirections, closed_words (plain_names hName), ← List.append_nil type.extent,
        closed_extent]
      rfl
  | extentFirst hSpecifiers =>
    constructor
    · intro word hMem
      refine plain_of_mem_parts hSpecifiers hName ?_
      simp only [List.mem_append] at hMem
      tauto
    · rw [List.append_assoc, List.append_assoc, closed_words (plain_specifiers hSpecifiers),
        closed_indirections, closed_extent, ← List.append_nil (name.toList.map Token.word),
        closed_words (plain_names hName)]
      rfl

end Declaration

namespace ParamSignature

def named (p : ParamSignature) : Option String :=
  if p.name = "" then none else some p.name

/-- A parameter that a header can declare. Its default is trimmed, closes its quotes and brackets,
and has commas and equals signs inside of them only. -/
structure Declarable (p : ParamSignature) : Prop where
  type : p.type.Declarable
  notVoid : p.type.isVoid = false
  name : ∀ n, p.named = some n → IsName n
  trimmed : ∀ value, p.default = some value → Text.trim value.toList = value.toList
  nested : ∀ value, p.default = some value → nested [',', '='] 0 0 0 none value.toList = true

inductive Spells (p : ParamSignature) : List Char → Prop
  | bare {tokens text} (hNone : p.default = none)
      (hTokens : p.type.SpellsDeclaration p.named tokens) (hText : Token.Spells tokens text) :
      Spells p text
  | withDefault {value tokens text before after} (hValue : p.default = some value)
      (hTokens : p.type.SpellsDeclaration p.named tokens) (hText : Token.Spells tokens text)
      (hBefore : Text.AllBlank before) (hAfter : Text.AllBlank after) :
      Spells p (text ++ '=' :: (before ++ value.toList ++ after))

variable {p : ParamSignature} {text : List Char}

theorem Spells.trimStart (h : p.Spells text) : p.Spells (Text.trimStart text) := by
  cases h with
  | bare hNone hTokens hText => exact .bare hNone hTokens hText.trimStart
  | withDefault hValue hTokens hText hBefore hAfter =>
    rw [Text.trimStart_append_cons (by decide)]
    exact .withDefault hValue hTokens hText.trimStart hBefore hAfter

theorem Spells.trimEnd (hp : p.Declarable) (h : p.Spells text) :
    p.Spells (Text.trimEnd text) := by
  cases h with
  | bare hNone hTokens hText => exact .bare hNone hTokens hText.trimEnd
  | @withDefault value tokens text before after hValue hTokens hText hBefore hAfter =>
    have hNil : Text.AllBlank [] := List.forall_mem_nil _
    have hTrimmed := hp.trimmed value hValue
    rw [Text.trimEnd_append_cons (by decide), Text.trimEnd_blanks hAfter]
    by_cases hEmpty : value.toList = []
    · have hBlank : Text.trimEnd (before ++ value.toList) = [] := by
        rw [hEmpty, List.append_nil, ← List.nil_append before, Text.trimEnd_blanks hBefore]
        rfl
      have hSpelled := Spells.withDefault hValue hTokens hText hNil hNil
      rw [hEmpty] at hSpelled
      rw [hBlank]
      exact hSpelled
    · have hSpelled := Spells.withDefault hValue hTokens hText hBefore hNil
      rw [List.append_nil] at hSpelled
      rw [Text.trimEnd_append_of_trim hTrimmed hEmpty]
      exact hSpelled

section Declared

variable {type : TypeSpelling} {name : Option String} {tokens : List Token}
  (hTokens : type.SpellsDeclaration name tokens) (hName : ∀ n, name = some n → IsName n)
  (hText : Token.Spells tokens text)
include hTokens hName hText

theorem nested_declared : nested [',', '='] 0 0 0 none text = true :=
  have hPlain := plain_declaration hTokens hName
  nested_of_spells hText hPlain.1 hPlain.2

theorem notMem_declared {c : Char} (hMark : c ∈ ['(', ',', '=', '.']) : c ∉ text := by
  have hPunctuation : c ∈ punctuation ∧ Token.ofMark? c = none := by
    simp only [List.mem_cons, List.not_mem_nil, or_false] at hMark
    rcases hMark with rfl | rfl | rfl | rfl <;> decide
  exact notMem_of_spells hText (plain_declaration hTokens hName).1 hPunctuation.1 hPunctuation.2

end Declared

theorem named_getD (p : ParamSignature) : p.named.getD "" = p.name := by
  unfold named
  split
  · exact (‹p.name = ""›).symm
  · rfl

theorem readParam_of_pieces {tokens : List Token} {declaration : List Char} (hp : p.Declarable)
    (hTokens : p.type.SpellsDeclaration p.named tokens) (hText : Token.Spells tokens declaration)
    (hDots : Text.trim text ≠ ['.', '.', '.'])
    (hHead : (splitTopLevel '=' (Text.trim text)).headD [] = declaration)
    (hDefault : (splitTopLevel '=' (Text.trim text))[1]?.map
      (fun piece => String.ofList (Text.trim piece)) = p.default) : readParam text = .ok p := by
  have hScan : Token.scan (Text.trim declaration) = tokens :=
    Token.scan_of_spells hText.trimStart.trimEnd
  have hSome : tokens.isEmpty = false := by
    obtain ⟨first, more, rfl, -⟩ := hTokens.exists_first
    rfl
  have hRead : readDeclaration tokens = .ok (p.type, p.named) :=
    readDeclaration_of_spells hTokens hp.type hp.name
  have hDots' : (Text.trim text == ['.', '.', '.']) = false := by simpa using hDots
  simp only [readParam, hDots', Bool.false_eq_true, if_false, hHead, hDefault, hScan, hSome, hRead,
    bind, Except.bind, hp.notVoid, named_getD]
  rfl

theorem readParam_of_spells (hp : p.Declarable) (h : p.Spells text) : readParam text = .ok p := by
  have hTrim : p.Spells (Text.trim text) := h.trimStart.trimEnd hp
  generalize hTrimmed : Text.trim text = trimmed at hTrim
  cases hTrim with
  | bare hNone hTokens hText =>
    have hPieces : splitTopLevel '=' trimmed = [trimmed] :=
      splitTopLevel_nested (by decide) (nested_declared hTokens hp.name hText)
    refine readParam_of_pieces hp hTokens hText ?_ ?_ ?_
    · rw [hTrimmed]
      rintro rfl
      exact notMem_declared hTokens hp.name hText (by decide) List.mem_cons_self
    · rw [hTrimmed, hPieces]
      rfl
    · rw [hTrimmed, hPieces, hNone]
      rfl
  | @withDefault value tokens declaration before after hValue hTokens hText hBefore hAfter =>
    have hNested := nested_around (hp.nested value hValue) hBefore hAfter
    have hPieces : splitTopLevel '=' (declaration ++ '=' :: (before ++ value.toList ++ after)) =
        [declaration, before ++ value.toList ++ after] := by
      rw [splitTopLevel_cons (by decide) (by decide) (nested_declared hTokens hp.name hText),
        splitTopLevel_nested (by decide) hNested]
    refine readParam_of_pieces hp hTokens hText ?_ ?_ ?_
    · rw [hTrimmed]
      intro hDots
      have hMem : '=' ∈ ['.', '.', '.'] := by
        rw [← hDots]
        simp
      exact absurd hMem (by decide)
    · rw [hTrimmed, hPieces]
      rfl
    · have hAround := Text.trim_around (hp.trimmed value hValue) hBefore hAfter
      rw [hTrimmed, hPieces, hValue, List.getElem?_cons_succ, List.getElem?_cons_zero,
        Option.map_some, hAround, String.ofList_toList]

theorem Spells.nested (hp : p.Declarable) (h : p.Spells text) :
    nested [','] 0 0 0 none text = true := by
  have hComma : [','] ⊆ [',', '='] := by decide
  cases h with
  | bare _ hTokens hText => exact nested_mono hComma (nested_declared hTokens hp.name hText)
  | @withDefault value tokens declaration before after hValue hTokens hText hBefore hAfter =>
    have hRest := nested_mono hComma (nested_around (hp.nested value hValue) hBefore hAfter)
    exact nested_append (nested_mono hComma (nested_declared hTokens hp.name hText))
      (by simpa [Header.nested, isQuote] using hRest)

end ParamSignature

/-- Texts of parameters with commas between them. -/
inductive SpellsParams : List ParamSignature → List Char → Prop
  | single {p text} (hParam : p.Spells text) : SpellsParams [p] text
  | cons {p params text rest} (hParam : p.Spells text) (hRest : SpellsParams params rest) :
      SpellsParams (p :: params) (text ++ ',' :: rest)

/-- The text between the parentheses of a method. -/
inductive SpellsList : List ParamSignature → List Char → Prop
  | blank {text} (hBlank : Text.AllBlank text) : SpellsList [] text
  | params {params text} (hParams : SpellsParams params text) : SpellsList params text

variable {params : List ParamSignature} {text : List Char}

namespace SpellsParams

theorem trimStart (h : SpellsParams params text) : SpellsParams params (Text.trimStart text) := by
  cases h with
  | single hParam => exact .single hParam.trimStart
  | cons hParam hRest =>
    rw [Text.trimStart_append_cons (by decide)]
    exact .cons hParam.trimStart hRest

theorem trimEnd (hParams : ∀ p ∈ params, p.Declarable) (h : SpellsParams params text) :
    SpellsParams params (Text.trimEnd text) := by
  induction h with
  | single hParam => exact .single (hParam.trimEnd (hParams _ List.mem_cons_self))
  | cons hParam _ ih =>
    rw [List.forall_mem_cons] at hParams
    rw [Text.trimEnd_append_cons (by decide)]
    exact .cons hParam (ih hParams.2)

theorem mapM_readParam (hParams : ∀ p ∈ params, p.Declarable) (h : SpellsParams params text) :
    (splitTopLevel ',' text).mapM readParam = .ok params := by
  induction h with
  | single hParam =>
    have hHere := hParams _ List.mem_cons_self
    rw [splitTopLevel_nested (List.mem_singleton_self ',') (hParam.nested hHere), List.mapM_cons,
      ParamSignature.readParam_of_spells hHere hParam]
    rfl
  | cons hParam _ ih =>
    rw [List.forall_mem_cons] at hParams
    rw [splitTopLevel_cons (List.mem_singleton_self ',') (by decide) (hParam.nested hParams.1),
      List.mapM_cons, ParamSignature.readParam_of_spells hParams.1 hParam, ih hParams.2]
    rfl

theorem nested (hParams : ∀ p ∈ params, p.Declarable) (h : SpellsParams params text) :
    nested [] 0 0 0 none text = true := by
  induction h with
  | single hParam =>
    exact nested_mono (List.nil_subset _) (hParam.nested (hParams _ List.mem_cons_self))
  | cons hParam _ ih =>
    rw [List.forall_mem_cons] at hParams
    have hComma := ih hParams.2
    exact nested_append (nested_mono (List.nil_subset _) (hParam.nested hParams.1))
      (by simpa [Header.nested, isQuote] using hComma)

end SpellsParams

theorem SpellsList.nested (hParams : ∀ p ∈ params, p.Declarable) (h : SpellsList params text) :
    Header.nested [] 0 0 0 none text = true := by
  cases h with
  | blank hBlank =>
    have hNested : Header.nested [',', '='] 0 0 0 none text = true := by
      rw [← List.append_nil text, nested_blanks hBlank]
      rfl
    exact nested_mono (List.nil_subset _) hNested
  | params h => exact h.nested hParams

theorem readParams_of_spells (hParams : ∀ p ∈ params, p.Declarable) (h : SpellsList params text) :
    readParams text = .ok params := by
  cases h with
  | blank hBlank =>
    have hTrim : Text.trim text = [] := by
      rw [← List.append_nil text, Text.trim, Text.trimStart_blanks hBlank]
      rfl
    rw [readParams, hTrim]
    rfl
  | params h =>
    have hTrim : SpellsParams params (Text.trim text) := h.trimStart.trimEnd hParams
    have hRead := hTrim.mapM_readParam hParams
    have hSome : Text.trim text ≠ [] := by
      intro hNil
      rw [hNil] at hRead
      cases hRead
    have hVoid : Text.trim text ≠ "void".toList := by
      intro hHere
      rw [hHere] at hRead
      cases hRead
    have hChecks :
        ((Text.trim text).isEmpty || String.ofList (Text.trim text) == "void") = false := by
      rw [Bool.or_eq_false_iff, List.isEmpty_eq_false_iff, beq_eq_false_iff_ne]
      refine ⟨hSome, fun hEq => hVoid ?_⟩
      rw [← hEq, String.toList_ofList]
    rw [readParams]
    simp only [hChecks, Bool.false_eq_true, if_false]
    exact hRead

end NativeBinding.Header
