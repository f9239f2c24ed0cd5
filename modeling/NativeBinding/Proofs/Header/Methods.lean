import NativeBinding.Proofs.Header.Params

/-! # Fields and methods

How a method is spelled: keywords, the return type and the name, the parameters, and what follows
them. Every such text of a method that a header can declare is read as this method; so is that of
a field.
-/

set_option autoImplicit false

namespace NativeBinding.Header

section Statement

variable {text after : List Char} {c : Char}

def ended (text : List Char) : List Char :=
  Text.trimEnd (Text.dropEndWhile (· == ';') (Text.trimEnd text))

theorem ended_append_cons (hMark : Text.isBlank c = false) (hSemicolon : c ≠ ';')
    (before after : List Char) : ended (before ++ c :: after) = before ++ c :: ended after := by
  rw [ended, Text.trimEnd_append_cons hMark,
    Text.dropEndWhile_append_cons (by simpa using hSemicolon), Text.trimEnd_append_cons hMark,
    ended]

/-- White space and semicolons, as they may follow a declaration. -/
inductive EndsStatement : List Char → Prop
  | run {before behind} (hBefore : Text.AllBlank before) (count : Nat)
      (hBehind : Text.AllBlank behind) :
      EndsStatement (before ++ List.replicate count ';' ++ behind)

theorem ended_of_ends (hText : ';' ∉ text) (h : EndsStatement after) :
    ended (text ++ after) = Text.trimEnd text := by
  have hFree {part : List Char} (hPart : ';' ∉ part) : ∀ c ∈ part, (c == ';') = false := by
    intro c hc
    rw [beq_eq_false_iff_ne]
    rintro rfl
    exact hPart hc
  have hBlank {blanks : List Char} (hBlanks : Text.AllBlank blanks) : ';' ∉ blanks :=
    fun hMem => absurd (hBlanks _ hMem) (by decide)
  obtain @⟨before, behind, hBefore, count, hAfter⟩ := h
  rw [← List.append_assoc, ← List.append_assoc, ended, Text.trimEnd_blanks hAfter]
  cases count with
  | zero =>
    have hTrimmed : ';' ∉ Text.trimEnd text :=
      fun hMem => hText ((Text.prefix_trimEnd _).subset hMem)
    rw [List.replicate_zero, List.append_nil, Text.trimEnd_blanks hBefore,
      Text.dropEndWhile_of_forall (hFree hTrimmed), Text.trimEnd_trimEnd]
  | succ count =>
    have hKept : Text.trimEnd (text ++ before ++ List.replicate (count + 1) ';') =
        text ++ before ++ List.replicate (count + 1) ';' := by
      rw [List.replicate_succ', ← List.append_assoc, Text.trimEnd_append_cons (by decide)]
      rfl
    have hRun : ∀ c ∈ List.replicate (count + 1) ';', (c == ';') = true := by
      intro c hc
      rw [List.eq_of_mem_replicate hc]
      rfl
    have hBoth : ';' ∉ text ++ before := by
      rw [List.mem_append]
      exact fun hMem => hMem.elim hText (hBlank hBefore)
    rw [hKept, Text.dropEndWhile_append hRun, Text.dropEndWhile_of_forall (hFree hBoth),
      Text.trimEnd_blanks hBefore]

end Statement

section Head

/-- Keywords, then the return type and the name. -/
inductive SpellsHead (type : TypeSpelling) (name : String) : List Specifier → List Char → Prop
  | declaration {tokens text} (hTokens : type.SpellsDeclaration (some name) tokens)
      (hText : Token.Spells tokens text) : SpellsHead type name [] text
  | specifier {s specifiers blanks text} (hBlanks : Text.AllBlank blanks) (hSome : blanks ≠ [])
      (hRest : SpellsHead type name specifiers text) :
      SpellsHead type name (s :: specifiers) (s.keyword ++ blanks ++ text)

variable {type : TypeSpelling} {name : String} {specifiers : List Specifier} {text rest : List Char}
  {tokens : List Token}

theorem Specifier.exists_first (s : Specifier) :
    ∃ c more, s.keyword = c :: more ∧ Text.isBlank c = false := by
  cases s <;> exact ⟨_, _, rfl, by decide⟩

theorem Specifier.trimStart_keyword (s : Specifier) (blanks text : List Char) :
    Text.trimStart (s.keyword ++ blanks ++ text) = s.keyword ++ blanks ++ text := by
  obtain ⟨c, more, hKeyword, hMark⟩ := s.exists_first
  rw [hKeyword]
  exact Text.trimStart_cons hMark

namespace SpellsHead

theorem trimStart (h : SpellsHead type name specifiers text) :
    SpellsHead type name specifiers (Text.trimStart text) := by
  cases h with
  | declaration hTokens hText => exact .declaration hTokens hText.trimStart
  | @specifier s specifiers blanks text hBlanks hSome hRest =>
    rw [s.trimStart_keyword]
    exact .specifier hBlanks hSome hRest

theorem trimEnd_ne_nil (h : SpellsHead type name specifiers text) : Text.trimEnd text ≠ [] := by
  induction h with
  | declaration hTokens hText =>
    intro hNil
    have hScan := Token.scan_of_spells hText.trimEnd
    obtain ⟨first, more, rfl, -⟩ := hTokens.exists_first
    rw [hNil] at hScan
    cases hScan
  | specifier hBlanks hSome hRest ih =>
    rw [Text.trimEnd_append ih]
    simp [ih]

theorem trimEnd (h : SpellsHead type name specifiers text) :
    SpellsHead type name specifiers (Text.trimEnd text) := by
  induction h with
  | declaration hTokens hText => exact .declaration hTokens hText.trimEnd
  | specifier hBlanks hSome hRest ih =>
    rw [Text.trimEnd_append hRest.trimEnd_ne_nil]
    exact .specifier hBlanks hSome ih

end SpellsHead

def Specifier.word (s : Specifier) : String :=
  String.ofList s.keyword

theorem dropKeyword?_eq_none {first : String} (h : Token.Spells (.word first :: tokens) text)
    {s : Specifier} (hFirst : first ≠ s.word) : dropKeyword? s text = none := by
  have hKeyword : s.keyword ≠ [] ∧ ∀ c ∈ s.keyword, Token.IsWordChar c := by cases s <;> decide
  unfold dropKeyword?
  split
  · rename_i c rest hLead
    refine if_neg fun hBlank => hFirst ?_
    have hEnd : Token.EndsWord (c :: rest) := Token.endsWord_blank hBlank
    have hScan := Token.scan_of_spells h
    rw [Text.eq_of_dropLead? hLead, Token.scan_word hKeyword.1 hKeyword.2 hEnd] at hScan
    exact (Token.word.inj (List.cons.inj hScan).1).symm
  · rfl

theorem dropSpecifier?_eq_none {first : String}
    (hFirst : first ∉ ["virtual", "static", "inline"])
    (hText : Token.Spells (.word first :: tokens) text) : dropSpecifier? text = none := by
  have hNone (s : Specifier) : dropKeyword? s text = none := by
    refine dropKeyword?_eq_none hText fun hSame => hFirst ?_
    rw [hSame]
    cases s <;> decide
  simp [dropSpecifier?, hNone]

theorem dropSpecifier?_keyword (s : Specifier) {blanks : List Char}
    (hBlanks : Text.AllBlank blanks) (hSome : blanks ≠ []) (text : List Char) :
    dropSpecifier? (s.keyword ++ blanks ++ text) = some (s, Text.trimStart text) := by
  obtain ⟨blank, more, rfl⟩ := List.exists_cons_of_ne_nil hSome
  rw [Text.AllBlank, List.forall_mem_cons] at hBlanks
  have hDrop : dropKeyword? s (s.keyword ++ blank :: more ++ text) =
      some (Text.trimStart text) := by
    rw [dropKeyword?, List.append_assoc, Text.dropLead?_append, List.cons_append]
    simp only [hBlanks.1, if_true, Text.trimStart_blanks hBlanks.2]
  have hOther {t : Specifier} (hFirst : t.keyword.head? ≠ s.keyword.head?) :
      dropKeyword? t (s.keyword ++ blank :: more ++ text) = none := by
    unfold dropKeyword?
    split
    · rename_i c rest hLead
      have hText := Text.eq_of_dropLead? hLead
      obtain ⟨x, xs, hx, -⟩ := s.exists_first
      obtain ⟨y, ys, hy, -⟩ := t.exists_first
      rw [hx, hy] at hFirst hText
      exact absurd (congrArg some (List.cons.inj hText).1) (Ne.symm hFirst)
    · rfl
  rw [dropSpecifier?]
  generalize s.keyword ++ blank :: more ++ text = whole at hDrop hOther
  cases s with
  | isVirtual => simp [hDrop]
  | isStatic =>
    have hVirtual := @hOther .isVirtual (by decide)
    simp [hDrop, hVirtual]
  | isInline =>
    have hVirtual := @hOther .isVirtual (by decide)
    have hStatic := @hOther .isStatic (by decide)
    simp [hDrop, hVirtual, hStatic]

inductive SpellsKeywords : List Specifier → List Char → Prop
  | nil : SpellsKeywords [] []
  | cons {s specifiers blanks text} (hBlanks : Text.AllBlank blanks) (hSome : blanks ≠ [])
      (hRest : SpellsKeywords specifiers text) :
      SpellsKeywords (s :: specifiers) (s.keyword ++ blanks ++ text)

theorem readKeywords_append {lead : List Char} {first : String}
    (hLead : SpellsKeywords specifiers lead) (hFirst : first ∉ ["virtual", "static", "inline"])
    (hText : Token.Spells (.word first :: tokens) text) :
    ∃ rest, readKeywords (Text.trimStart (lead ++ text)) = (specifiers, rest) ∧
      Token.Spells (.word first :: tokens) rest := by
  induction hLead with
  | nil =>
    refine ⟨_, ?_, hText.trimStart⟩
    rw [List.nil_append, readKeywords]
    split
    · rfl
    · rename_i hDrop
      rw [dropSpecifier?_eq_none hFirst hText.trimStart] at hDrop
      cases hDrop
  | @cons s specifiers blanks lead hBlanks hSome hRest ih =>
    obtain ⟨rest, hRead, hSpells⟩ := ih
    refine ⟨rest, ?_, hSpells⟩
    have hDropped := dropSpecifier?_keyword s hBlanks hSome (lead ++ text)
    rw [List.append_assoc, s.trimStart_keyword, readKeywords]
    split
    · rename_i hDrop
      rw [hDropped] at hDrop
      cases hDrop
    · rename_i hDrop
      rw [hDropped] at hDrop
      cases hDrop
      rw [hRead]

theorem SpellsHead.exists_lead (h : SpellsHead type name specifiers text) :
    ∃ lead tokens body, text = lead ++ body ∧ SpellsKeywords specifiers lead ∧
      type.SpellsDeclaration (some name) tokens ∧ Token.Spells tokens body := by
  induction h with
  | declaration hTokens hText => exact ⟨[], _, _, rfl, .nil, hTokens, hText⟩
  | specifier hBlanks hSome hRest ih =>
    obtain ⟨lead, tokens, body, rfl, hLead, hTokens, hBody⟩ := ih
    exact ⟨_, tokens, body, (List.append_assoc _ _ _).symm, .cons hBlanks hSome hLead, hTokens,
      hBody⟩

theorem SpellsKeywords.notMem_open {lead : List Char} (h : SpellsKeywords specifiers lead) :
    '(' ∉ lead := by
  induction h with
  | nil => exact List.not_mem_nil
  | @cons s specifiers blanks lead hBlanks hSome hRest ih =>
    have hKeyword : '(' ∉ s.keyword := by cases s <;> decide
    rw [List.mem_append, List.mem_append]
    rintro ((hMem | hMem) | hMem)
    · exact hKeyword hMem
    · exact absurd (hBlanks _ hMem) (by decide)
    · exact ih hMem

theorem SpellsHead.notMem_open (hName : IsName name) (h : SpellsHead type name specifiers text) :
    '(' ∉ text := by
  obtain ⟨lead, tokens, body, rfl, hLead, hTokens, hBody⟩ := h.exists_lead
  rw [List.mem_append, not_or]
  refine ⟨hLead.notMem_open, ?_⟩
  exact ParamSignature.notMem_declared hTokens (fun n hn => Option.some.inj hn ▸ hName) hBody
    (by decide)

theorem readKeywords_of_spells (h : SpellsHead type name specifiers text) :
    ∃ rest tokens, readKeywords (Text.trimStart text) = (specifiers, rest) ∧
      type.SpellsDeclaration (some name) tokens ∧ Token.Spells tokens rest := by
  obtain ⟨lead, tokens, body, rfl, hLead, hTokens, hBody⟩ := h.exists_lead
  obtain ⟨first, more, rfl, hFirst⟩ := hTokens.exists_first
  obtain ⟨rest, hRead, hRest⟩ := readKeywords_append hLead hFirst hBody
  exact ⟨rest, _, hRead, hTokens, hRest⟩

end Head

theorem readTypeAndName_of_spells {type : TypeSpelling} {name : String} {tokens : List Token}
    {text : List Char} (hType : type.Declarable) (hName : IsName name)
    (hTokens : type.SpellsDeclaration (some name) tokens) (hText : Token.Spells tokens text) :
    readTypeAndName text = .ok (type, name) := by
  have hRead := readDeclaration_of_spells hTokens hType fun n hn => Option.some.inj hn ▸ hName
  have hSome : tokens.isEmpty = false := by
    obtain ⟨first, more, rfl, -⟩ := hTokens.exists_first
    rfl
  simp only [readTypeAndName, Token.scan_of_spells hText, hSome, Bool.false_eq_true, if_false, bind,
    Except.bind, hRead]
  rfl

theorem statement_of_spells {tokens : List Token} {text after : List Char} {input : String}
    (hText : Token.Spells tokens text) (hSome : tokens ≠ []) (hFree : ';' ∉ text)
    (hAfter : EndsStatement after) (hInput : input.toList = text ++ after) :
    statement input = Text.trim text := by
  have hStart : Text.trimStart (text ++ after) = Text.trimStart text ++ after := by
    obtain ⟨before, c, rest, rfl, hMark⟩ := hText.exists_mark hSome
    rw [List.append_assoc, List.cons_append, Text.trimStart_append_cons hMark,
      Text.trimStart_append_cons hMark, List.append_assoc, List.cons_append]
  have hEnded : statement input = ended (Text.trimStart input.toList) := rfl
  have hFreeStart : ';' ∉ Text.trimStart text :=
    fun hMem => hFree ((List.dropWhile_suffix _).subset hMem)
  rw [hEnded, hInput, hStart, ended_of_ends hFreeStart hAfter, ← Text.trim]

theorem FieldSignature.parse_of_spells {type : TypeSpelling} {name input : String}
    {tokens : List Token} {text after : List Char} (hType : type.Declarable)
    (hVoid : type.isVoid = false) (hName : IsName name)
    (hTokens : type.SpellsDeclaration (some name) tokens) (hText : Token.Spells tokens text)
    (hAfter : EndsStatement after) (hInput : input.toList = text ++ after) :
    FieldSignature.parse input = .ok ⟨name, type⟩ := by
  have hPlain := plain_declaration hTokens fun n hn => Option.some.inj hn ▸ hName
  have hFree : ';' ∉ text := notMem_of_spells hText hPlain.1 (by decide) rfl
  have hSome : tokens ≠ [] := by
    obtain ⟨first, more, rfl, -⟩ := hTokens.exists_first
    exact List.cons_ne_nil _ _
  have hStatement := statement_of_spells hText hSome hFree hAfter hInput
  have hRead := readTypeAndName_of_spells hType hName hTokens hText.trimStart.trimEnd
  rw [← Text.trim, ← hStatement] at hRead
  simp only [FieldSignature.parse, hRead, bind, Except.bind, hVoid]
  rfl

section Tail

def qualifierWords : List String :=
  ["const", "final", "override", "noexcept"]

/-- Words after the parameters that say what the flags of a method say. -/
inductive SpellsQualifiers (m : MethodSignature) : List Char → Prop
  | words {words text} (hWords : words ⊆ qualifierWords)
      (hConst : m.isConst = words.contains "const") (hFinal : m.isFinal = words.contains "final")
      (hText : Token.Spells (words.map Token.word) text) : SpellsQualifiers m text

/-- What stands after the parameters, but for a body. -/
inductive SpellsTail (m : MethodSignature) : List Char → Prop
  | defined {text} (hPure : m.isPure = false) (hQualifiers : SpellsQualifiers m text) :
      SpellsTail m text
  | pure {text before after} (hPure : m.isPure = true) (hQualifiers : SpellsQualifiers m text)
      (hBefore : Text.AllBlank before) (hAfter : Text.AllBlank after) :
      SpellsTail m (text ++ '=' :: (before ++ '0' :: after))

variable {m : MethodSignature} {text : List Char} {input : String}

namespace SpellsQualifiers

theorem trimStart (h : SpellsQualifiers m text) : SpellsQualifiers m (Text.trimStart text) := by
  obtain ⟨hWords, hConst, hFinal, hText⟩ := h
  exact .words hWords hConst hFinal hText.trimStart

theorem trimEnd (h : SpellsQualifiers m text) : SpellsQualifiers m (Text.trimEnd text) := by
  obtain ⟨hWords, hConst, hFinal, hText⟩ := h
  exact .words hWords hConst hFinal hText.trimEnd

theorem notMem (h : SpellsQualifiers m text) {c : Char} (hMark : c ∈ ['0', ';', '\x7b']) :
    c ∉ text := by
  obtain ⟨hWords, -, -, hText⟩ := h
  have hPlain : ∀ word ∈ qualifierWords, ∀ c ∈ ['0', ';', '\x7b'], c ∉ word.toList := by decide
  have hNone : Text.isBlank c = false ∧ Token.ofMark? c = none := by
    simp only [List.mem_cons, List.not_mem_nil, or_false] at hMark
    rcases hMark with rfl | rfl | rfl <;> decide
  intro hMem
  rcases cases_of_mem_spells hText hMem with hBlank | hToken | ⟨word, hWord, hc⟩
  · rw [hNone.1] at hBlank
    cases hBlank
  · rw [hNone.2] at hToken
    cases hToken
  · obtain ⟨_, hw, ⟨⟩⟩ := List.mem_map.mp hWord
    exact hPlain word (hWords hw) c hMark hc

end SpellsQualifiers

theorem readQualifierWords_eq {words : List String} (hWords : words ⊆ qualifierWords)
    (tail : Tail) : readQualifierWords input tail (words.map String.toList) = .ok
      { tail with
        isConst := tail.isConst || words.contains "const"
        isFinal := tail.isFinal || words.contains "final" } := by
  induction words generalizing tail with
  | nil => simp [readQualifierWords]
  | cons word words ih =>
    rw [List.cons_subset] at hWords
    have hWord := hWords.1
    simp only [qualifierWords, List.mem_cons, List.not_mem_nil, or_false] at hWord
    rw [List.map_cons]
    rcases hWord with rfl | rfl | rfl | rfl
    all_goals simp [readQualifierWords, ih hWords.2]

theorem readQualifierWords_of_spells (h : SpellsQualifiers m text) (isPure : Bool) :
    readQualifierWords input { isPure } (Text.words text) =
      .ok { isPure, isConst := m.isConst, isFinal := m.isFinal } := by
  obtain ⟨hWords, hConst, hFinal, hText⟩ := h
  rename_i words
  have hSplit : Text.words text = words.map String.toList := by
    rw [hText.words_eq, List.map_map]
    · rfl
    · intro token hMem
      obtain ⟨word, -, rfl⟩ := List.mem_map.mp hMem
      exact ⟨word, rfl⟩
  rw [hSplit, readQualifierWords_eq hWords, hConst, hFinal]
  simp

namespace SpellsTail

theorem notMem (h : SpellsTail m text) {c : Char} (hMark : c ∈ [';', '\x7b']) : c ∉ text := by
  have hAll : c ∈ ['0', ';', '\x7b'] := List.mem_cons_of_mem _ hMark
  cases h with
  | defined _ hQualifiers => exact hQualifiers.notMem hAll
  | pure _ hQualifiers hBefore hAfter =>
    have hNone : Text.isBlank c = false ∧ c ≠ '=' ∧ c ≠ '0' := by
      simp only [List.mem_cons, List.not_mem_nil, or_false] at hMark
      rcases hMark with rfl | rfl <;> decide
    have hBlank {blanks : List Char} (hBlanks : Text.AllBlank blanks) : c ∉ blanks := by
      intro hMem
      rw [hBlanks c hMem] at hNone
      cases hNone.1
    simp [hQualifiers.notMem hAll, hNone.2.1, hNone.2.2, hBlank hBefore, hBlank hAfter]

theorem trimStart (h : SpellsTail m text) : SpellsTail m (Text.trimStart text) := by
  cases h with
  | defined hPure hQualifiers => exact .defined hPure hQualifiers.trimStart
  | pure hPure hQualifiers hBefore hAfter =>
    rw [Text.trimStart_append_cons (by decide)]
    exact .pure hPure hQualifiers.trimStart hBefore hAfter

theorem trimEnd (h : SpellsTail m text) : SpellsTail m (Text.trimEnd text) := by
  cases h with
  | defined hPure hQualifiers => exact .defined hPure hQualifiers.trimEnd
  | pure hPure hQualifiers hBefore hAfter =>
    rw [Text.trimEnd_append_cons (by decide), Text.trimEnd_append_cons (by decide),
      Text.trimEnd_allBlank hAfter]
    exact .pure hPure hQualifiers hBefore (List.forall_mem_nil _)

theorem dropPure_trim (h : SpellsTail m text) : ∃ qualifiers,
    dropPure (Text.trim text) = (m.isPure, qualifiers) ∧ SpellsQualifiers m qualifiers := by
  cases h with
  | defined hPure hQualifiers =>
    have hTrim : SpellsQualifiers m (Text.trim text) := hQualifiers.trimStart.trimEnd
    refine ⟨_, ?_, hTrim⟩
    unfold dropPure
    split
    · rename_i before hReverse
      have hMem : '0' ∈ Text.trim text := by
        rw [← List.mem_reverse, hReverse]
        exact List.mem_cons_self
      exact absurd hMem (hTrim.notMem (by decide))
    · rw [hPure]
  | @pure text before after hPure hQualifiers hBefore hAfter =>
    have hTrim : Text.trim (text ++ '=' :: (before ++ '0' :: after)) =
        Text.trimStart text ++ '=' :: (before ++ ['0']) := by
      rw [Text.trim_append_cons (by decide), Text.trimEnd_append_cons (by decide),
        Text.trimEnd_allBlank hAfter]
    have hReverse : (Text.trimStart text ++ '=' :: (before ++ ['0'])).reverse =
        '0' :: (before.reverse ++ '=' :: (Text.trimStart text).reverse) := by simp
    have hBlanks : ∀ c ∈ before.reverse, Text.isBlank c = true :=
      fun c hc => hBefore c (List.mem_reverse.mp hc)
    have hDrop : (before.reverse ++ '=' :: (Text.trimStart text).reverse).dropWhile Text.isBlank =
        '=' :: (Text.trimStart text).reverse := by
      rw [List.dropWhile_append_of_pos hBlanks]
      exact List.dropWhile_cons_of_neg (by decide)
    refine ⟨Text.trimEnd (Text.trimStart text), ?_, hQualifiers.trimStart.trimEnd⟩
    rw [hTrim, dropPure, hReverse, hPure]
    simp only [hDrop, List.reverse_reverse]

theorem readTail_of_dropBody (h : SpellsTail m text) {after : List Char}
    (hBody : dropBody input (Text.trim after) = .ok (Text.trim text)) :
    readTail input after = .ok ⟨m.isPure, m.isConst, m.isFinal⟩ := by
  obtain ⟨qualifiers, hPure, hQualifiers⟩ := h.dropPure_trim
  rw [readTail, hBody]
  simp only [bind, Except.bind, hPure, readQualifierWords_of_spells hQualifiers]

theorem readTail_eq (h : SpellsTail m text) :
    readTail input text = .ok ⟨m.isPure, m.isConst, m.isFinal⟩ := by
  refine h.readTail_of_dropBody (if_neg ?_)
  have hOpen : '\x7b' ∉ Text.trim text :=
    h.trimStart.trimEnd.notMem (List.mem_cons_of_mem _ List.mem_cons_self)
  simpa using hOpen

theorem readTail_body (h : SpellsTail m text) (body : List Char) :
    readTail input (text ++ '\x7b' :: (body ++ ['\x7d'])) =
      .ok ⟨m.isPure, m.isConst, m.isFinal⟩ := by
  have hOpen : '\x7b' ∉ Text.trimStart text :=
    h.trimStart.notMem (List.mem_cons_of_mem _ List.mem_cons_self)
  have hTrim : Text.trim (text ++ '\x7b' :: (body ++ ['\x7d'])) =
      Text.trimStart text ++ '\x7b' :: (body ++ ['\x7d']) := by
    rw [Text.trim_append_cons (by decide), Text.trimEnd_append_cons (by decide)]
    rfl
  have hTake : (Text.trimStart text ++ '\x7b' :: (body ++ ['\x7d'])).takeWhile (· != '\x7b') =
      Text.trimStart text := by
    have hAll : ∀ c ∈ Text.trimStart text, (c != '\x7b') = true := by
      intro c hc
      rw [bne_iff_ne]
      rintro rfl
      exact hOpen hc
    rw [List.takeWhile_append_of_pos hAll, List.takeWhile_cons_of_neg (by decide), List.append_nil]
  have hContains :
      (Text.trimStart text ++ '\x7b' :: (body ++ ['\x7d'])).contains '\x7b' = true := by simp
  have hLast : (Text.trimStart text ++ '\x7b' :: (body ++ ['\x7d'])).getLast? = some '\x7d' := by
    rw [← List.cons_append, ← List.append_assoc, List.getLast?_concat]
  refine h.trimStart.readTail_of_dropBody ?_
  rw [hTrim, dropBody, if_pos hContains, hLast, hTake]
  rfl

end SpellsTail

end Tail

/-- What ends a method: a body or none, then semicolons or none. -/
inductive SpellsEnd : List Char → Prop
  | statement {text} (hEnds : EndsStatement text) : SpellsEnd text
  | body {text} (body : List Char) (hEnds : EndsStatement text) :
      SpellsEnd ('\x7b' :: (body ++ '\x7d' :: text))

namespace MethodSignature

/-- A method that a header can declare. -/
structure Declarable (m : MethodSignature) : Prop where
  returnType : m.returnType.Declarable
  name : IsName m.name
  params : ∀ p ∈ m.params, p.Declarable

inductive Spells (m : MethodSignature) : List Char → Prop
  | method {specifiers before head inner tail after} (hBefore : Text.AllBlank before)
      (hHead : SpellsHead m.returnType m.name specifiers head)
      (hVirtual : m.isVirtual = specifiers.contains .isVirtual)
      (hStatic : m.isStatic = specifiers.contains .isStatic)
      (hInner : SpellsList m.params inner) (hTail : SpellsTail m tail) (hAfter : SpellsEnd after) :
      Spells m (before ++ (head ++ '(' :: (inner ++ ')' :: (tail ++ after))))

variable {m : MethodSignature} {tail after : List Char} {input : String}

theorem readTail_ended (hTail : SpellsTail m tail) (hAfter : SpellsEnd after) :
    readTail input (ended (tail ++ after)) = .ok ⟨m.isPure, m.isConst, m.isFinal⟩ := by
  cases hAfter with
  | statement hEnds =>
    rw [ended_of_ends (hTail.notMem List.mem_cons_self) hEnds]
    exact hTail.trimEnd.readTail_eq
  | @body text body hEnds =>
    have hNone : ended text = [] := ended_of_ends List.not_mem_nil hEnds
    rw [← List.cons_append, ← List.append_assoc, ended_append_cons (by decide) (by decide), hNone,
      List.append_assoc, List.cons_append]
    exact hTail.readTail_body body

section Parts

variable {head rest : List Char} {input : String}

/-- Reads a method of its parts. -/
def readParts (input : String) (head inner after : List Char) :
    Except SignatureError MethodSignature := do
  let tail ← readTail input after
  let (keywords, rest) := readKeywords (Text.trim head)
  let (returnType, name) ← readTypeAndName rest
  let params ← readParams inner
  pure
    { name, returnType, params
      isVirtual := keywords.contains .isVirtual
      isStatic := keywords.contains .isStatic
      isPure := tail.isPure
      isConst := tail.isConst
      isFinal := tail.isFinal }

theorem parse_eq (hHead : '(' ∉ head) (hInput : input.toList = head ++ '(' :: rest) :
    MethodSignature.parse input =
      match splitAtClose 0 none (ended rest) with
      | none => .error (.missingClose input)
      | some (inner, after) => readParts input head inner after := by
  have hStatement : statement input = Text.trimStart head ++ '(' :: ended rest := by
    have hEnded : statement input = ended (Text.trimStart input.toList) := rfl
    rw [hEnded, hInput, Text.trimStart_append_cons (by decide),
      ended_append_cons (by decide) (by decide)]
  have hFree : ∀ c ∈ Text.trimStart head, (c != '(') = true := by
    intro c hc
    rw [bne_iff_ne]
    rintro rfl
    exact hHead ((List.dropWhile_suffix _).subset hc)
  have hTake : (Text.trimStart head ++ '(' :: ended rest).takeWhile (· != '(') =
      Text.trimStart head := by
    rw [List.takeWhile_append_of_pos hFree, List.takeWhile_cons_of_neg (by decide),
      List.append_nil]
  have hDrop : (Text.trimStart head ++ '(' :: ended rest).dropWhile (· != '(') =
      '(' :: ended rest := by
    rw [List.dropWhile_append_of_pos hFree, List.dropWhile_cons_of_neg (by decide)]
  have hSome : (Text.trimStart head ++ '(' :: ended rest).isEmpty = false := by simp
  rw [parse]
  simp only [hStatement, hSome, Bool.false_eq_true, if_false, hTake, hDrop, Text.trim_trimStart]
  cases splitAtClose 0 none (ended rest) <;> rfl

end Parts

/-- Every text of a method that a header can declare is read as this method. -/
theorem parse_of_spells (hm : m.Declarable) (h : m.Spells input.toList) :
    MethodSignature.parse input = .ok m := by
  generalize hInput : input.toList = whole at h
  cases h with
  | @method specifiers before head inner tail after hBefore hHead hVirtual hStatic hInner hTail
      hAfter =>
    have hFree : '(' ∉ before ++ head := by
      rw [List.mem_append]
      rintro (hMem | hMem)
      · exact absurd (hBefore _ hMem) (by decide)
      · exact hHead.notMem_open hm.name hMem
    have hClose : splitAtClose 0 none (ended (inner ++ ')' :: (tail ++ after))) =
        some (inner, ended (tail ++ after)) := by
      rw [ended_append_cons (by decide) (by decide),
        splitAtClose_nested (hInner.nested hm.params)]
      simp [splitAtClose, isQuote]
    obtain ⟨rest, tokens, hKeywords, hTokens, hText⟩ :=
      readKeywords_of_spells hHead.trimStart.trimEnd
    rw [← Text.trim, Text.trimStart_trim] at hKeywords
    have hTrim : Text.trim (before ++ head) = Text.trim head := by
      rw [Text.trim, Text.trimStart_blanks hBefore, ← Text.trim]
    have hTypeAndName := readTypeAndName_of_spells hm.returnType hm.name hTokens hText
    have hParams := readParams_of_spells hm.params hInner
    have hTail : readTail input (ended (tail ++ after)) = .ok ⟨m.isPure, m.isConst, m.isFinal⟩ :=
      readTail_ended hTail hAfter
    rw [← List.append_assoc] at hInput
    rw [parse_eq hFree hInput, hClose]
    simp only [readParts, hTail, hTrim, hKeywords, hTypeAndName, hParams, bind, Except.bind,
      ← hVirtual, ← hStatic]
    rfl

end MethodSignature

end NativeBinding.Header
