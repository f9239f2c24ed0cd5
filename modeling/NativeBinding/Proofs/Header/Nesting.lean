import NativeBinding.Proofs.Header.Depth
import NativeBinding.Proofs.Header.Tokens

/-! # Nested text

Text whose quotes are closed and whose brackets of each kind are nested. The search for a closing
parenthesis passes over it, and so do the cuts at a delimiter that it has inside brackets and quotes
only.
-/

set_option autoImplicit false

namespace NativeBinding.Header

/-- Whether quotes are closed and brackets of each kind nested, with no delimiter outside of them.
The numbers count the brackets of each kind that are open, and `quote` is the quote to be closed. -/
def nested (delimiters : List Char) (parens squares braces : Nat) (quote : Option Char) :
    List Char → Bool
  | [] => parens == 0 && squares == 0 && braces == 0 && quote.isNone
  | c :: rest =>
    match quote with
    | some q => nested delimiters parens squares braces (if c == q then none else some q) rest
    | none =>
      if isQuote c then nested delimiters parens squares braces (some c) rest
      else if c == '(' then nested delimiters (parens + 1) squares braces none rest
      else if c == ')' then 0 < parens && nested delimiters (parens - 1) squares braces none rest
      else if c == '[' then nested delimiters parens (squares + 1) braces none rest
      else if c == ']' then 0 < squares && nested delimiters parens (squares - 1) braces none rest
      else if c == '\x7b' then nested delimiters parens squares (braces + 1) none rest
      else if c == '\x7d' then
        0 < braces && nested delimiters parens squares (braces - 1) none rest
      else (!delimiters.contains c || 0 < parens + squares + braces) &&
        nested delimiters parens squares braces none rest

variable {delimiters : List Char} {parens squares braces : Nat} {quote : Option Char}
  {text rest : List Char}

theorem nested_nil (h : nested delimiters parens squares braces quote [] = true) :
    parens = 0 ∧ squares = 0 ∧ braces = 0 ∧ quote = none := by
  simpa [nested, and_assoc] using h

/-- What a character of nested text does to the counts. What follows it decides alone whether the
text is nested, and other delimiters may be taken, if the character is none of them outside of
brackets and quotes. -/
structure NestedStep (delimiters : List Char) (parens squares braces : Nat) (quote : Option Char)
    (c : Char) (rest : List Char) (p s b : Nat) : Prop where
  counted : (p : Int) = parens + Brackets.parens.depth quote [c]
  total : ((p + s + b : Nat) : Int) =
    (parens + squares + braces : Nat) + Brackets.all.depth quote [c]
  inside : c ∈ delimiters → quote = none → Separates c → 0 < parens + squares + braces
  follows : nested delimiters p s b (quoteAfter quote c) rest = true
  transfers : ∀ more text : List Char,
    (c ∈ more → c ∈ delimiters ∨ quote ≠ none ∨ 0 < parens + squares + braces) →
    nested more p s b (quoteAfter quote c) text = true →
    nested more parens squares braces quote (c :: text) = true

section Step

variable {c : Char}

theorem bracket_cases (c : Char) : isQuote c = true ∨ c = '(' ∨ c = ')' ∨ c = '[' ∨ c = ']' ∨
    c = '\x7b' ∨ c = '\x7d' ∨ Separates c := by
  cases hQuote : isQuote c with
  | true => exact .inl rfl
  | false =>
    simp only [Separates, hQuote, isOpening, isClosing, Bool.or_eq_false_iff, beq_eq_false_iff_ne]
    tauto

theorem nestedStep_of_quote (hQuote : isQuote c = true)
    (h : nested delimiters parens squares braces none (c :: rest) = true) :
    NestedStep delimiters parens squares braces none c rest parens squares braces := by
  have hMove (more text : List Char) : nested more parens squares braces none (c :: text) =
      nested more parens squares braces (some c) text := by rw [nested, if_pos hQuote]
  have hAfter : quoteAfter none c = some c := if_pos hQuote
  have hDepth (b : Brackets) : b.depth none [c] = 0 := Brackets.depth_quote hQuote
  exact
    { counted := by rw [hDepth, Int.add_zero]
      total := by rw [hDepth, Int.add_zero]
      inside := fun _ _ hPlain => absurd (hPlain.1.symm.trans hQuote) (by decide)
      follows := by rwa [hAfter, ← hMove]
      transfers := fun more text _ hText => by rwa [hMove, ← hAfter] }

/-- A bracket moves one count, a closing one only if the count is not zero. No text is cut at it. -/
theorem nestedStep_of_bracket {p s b : Nat} (guard : Bool) (own total : Int)
    (hBracket : ¬ Separates c) (hAfter : quoteAfter none c = none)
    (hMove : ∀ more text, nested more parens squares braces none (c :: text) =
      (guard && nested more p s b none text))
    (hOwn : Brackets.parens.depth none [c] = own) (hTotal : Brackets.all.depth none [c] = total)
    (hCount : guard = true → (p : Int) = parens + own ∧
      ((p + s + b : Nat) : Int) = (parens + squares + braces : Nat) + total)
    (h : nested delimiters parens squares braces none (c :: rest) = true) :
    NestedStep delimiters parens squares braces none c rest p s b := by
  rw [hMove, Bool.and_eq_true] at h
  obtain ⟨hGuard, hRest⟩ := h
  obtain ⟨hCounted, hSum⟩ := hCount hGuard
  exact
    { counted := hOwn ▸ hCounted
      total := hTotal ▸ hSum
      inside := fun _ _ hPlain => absurd hPlain hBracket
      follows := by rwa [hAfter]
      transfers := fun more text _ hText => by rwa [hMove, hGuard, Bool.true_and, ← hAfter] }

theorem nested_cons_of_separates (hPlain : Separates c) (more text : List Char) :
    nested more parens squares braces none (c :: text) =
      ((!more.contains c || 0 < parens + squares + braces) &&
        nested more parens squares braces none text) := by
  obtain ⟨hQuote, hOpen, hClose⟩ := hPlain
  simp only [isOpening, isClosing, Bool.or_eq_false_iff] at hOpen hClose
  simp [nested, hQuote, hOpen, hClose]

theorem nestedStep_of_separates (hPlain : Separates c)
    (h : nested delimiters parens squares braces none (c :: rest) = true) :
    NestedStep delimiters parens squares braces none c rest parens squares braces := by
  have hMove (more text : List Char) : nested more parens squares braces none (c :: text) = true ↔
      (c ∈ more → 0 < parens + squares + braces) ∧
        nested more parens squares braces none text = true := by
    rw [nested_cons_of_separates hPlain]
    simp [imp_iff_not_or]
  have hAfter : quoteAfter none c = none := if_neg (Bool.eq_false_iff.mp hPlain.1)
  have hParens : Brackets.parens.depth none [c] = 0 := by
    obtain ⟨hQuote, hOpen, hClose⟩ := hPlain
    simp only [isOpening, isClosing, Bool.or_eq_false_iff] at hOpen hClose
    exact Brackets.depth_other hQuote hOpen.1.1 hClose.1.1
  obtain ⟨hInside, hRest⟩ := (hMove delimiters rest).mp h
  exact
    { counted := by rw [hParens, Int.add_zero]
      total := by rw [Brackets.depth_other hPlain.1 hPlain.2.1 hPlain.2.2, Int.add_zero]
      inside := fun hMem _ _ => hInside hMem
      follows := by rwa [hAfter]
      transfers := fun more text hMore hText => by
        refine (hMove more text).mpr ⟨fun hMem => ?_, hAfter ▸ hText⟩
        rcases hMore hMem with hOld | hSome | hHere
        · exact hInside hOld
        · exact absurd rfl hSome
        · exact hHere }

theorem nested_step (h : nested delimiters parens squares braces quote (c :: rest) = true) :
    ∃ p s b, NestedStep delimiters parens squares braces quote c rest p s b := by
  cases quote with
  | some q =>
    exact ⟨parens, squares, braces, (Int.add_zero _).symm, (Int.add_zero _).symm, nofun, h,
      fun _ _ _ hText => hText⟩
  | none =>
    obtain hQuote | rfl | rfl | rfl | rfl | rfl | rfl | hPlain := bracket_cases c
    · exact ⟨_, _, _, nestedStep_of_quote hQuote h⟩
    · exact ⟨parens + 1, squares, braces, nestedStep_of_bracket true 1 1 (by decide) rfl
        (fun _ _ => rfl) rfl rfl (by omega) h⟩
    · exact ⟨parens - 1, squares, braces, nestedStep_of_bracket (0 < parens) (-1) (-1) (by decide)
        rfl (fun _ _ => rfl) rfl rfl (by rw [decide_eq_true_eq]; omega) h⟩
    · exact ⟨parens, squares + 1, braces, nestedStep_of_bracket true 0 1 (by decide) rfl
        (fun _ _ => rfl) rfl rfl (by omega) h⟩
    · exact ⟨parens, squares - 1, braces, nestedStep_of_bracket (0 < squares) 0 (-1) (by decide)
        rfl (fun _ _ => rfl) rfl rfl (by rw [decide_eq_true_eq]; omega) h⟩
    · exact ⟨parens, squares, braces + 1, nestedStep_of_bracket true 0 1 (by decide) rfl
        (fun _ _ => rfl) rfl rfl (by omega) h⟩
    · exact ⟨parens, squares, braces - 1, nestedStep_of_bracket (0 < braces) 0 (-1) (by decide)
        rfl (fun _ _ => rfl) rfl rfl (by rw [decide_eq_true_eq]; omega) h⟩
    · exact ⟨_, _, _, nestedStep_of_separates hPlain h⟩

end Step

theorem nested_append (h : nested delimiters parens squares braces quote text = true)
    (hRest : nested delimiters 0 0 0 none rest = true) :
    nested delimiters parens squares braces quote (text ++ rest) = true := by
  induction text generalizing parens squares braces quote with
  | nil =>
    obtain ⟨rfl, rfl, rfl, rfl⟩ := nested_nil h
    exact hRest
  | cons c text ih =>
    obtain ⟨p, s, b, -, -, -, hText, hStep⟩ := nested_step h
    exact hStep delimiters (text ++ rest) .inl (ih hText)

theorem nested_mono {more : List Char} (hSubset : more ⊆ delimiters)
    (h : nested delimiters parens squares braces quote text = true) :
    nested more parens squares braces quote text = true := by
  induction text generalizing parens squares braces quote with
  | nil => exact h
  | cons c text ih =>
    obtain ⟨p, s, b, -, -, -, hText, hStep⟩ := nested_step h
    exact hStep more text (fun hMem => .inl (hSubset hMem)) (ih hText)

theorem splitAtClose_nested (h : nested delimiters parens squares braces quote text = true)
    (rest : List Char) :
    splitAtClose parens quote (text ++ rest) =
      (splitAtClose 0 none rest).map fun (inner, after) => (text ++ inner, after) := by
  induction text generalizing parens squares braces quote with
  | nil =>
    obtain ⟨rfl, rfl, rfl, rfl⟩ := nested_nil h
    simp
  | cons c text ih =>
    obtain ⟨p, s, b, hParens, -, -, hText, -⟩ := nested_step h
    obtain ⟨next, hNext, hSplit⟩ := splitAtClose_step parens quote c (text ++ rest)
    obtain rfl : next = p + 1 := by omega
    rw [List.cons_append, hSplit]
    dsimp only
    rw [ih hText, Option.map_map]
    rfl

section Cut

variable {delimiter : Char}

theorem splitFrom_nested (hDelimiter : delimiter ∈ delimiters)
    (h : nested delimiters parens squares braces quote text = true) (part rest : List Char) :
    splitFrom delimiter (parens + squares + braces : Nat) quote part (text ++ rest) =
      splitFrom delimiter 0 none (text.reverse ++ part) rest := by
  induction text generalizing parens squares braces quote part with
  | nil =>
    obtain ⟨rfl, rfl, rfl, rfl⟩ := nested_nil h
    rfl
  | cons c text ih =>
    obtain ⟨p, s, b, -, hDepth, hInside, hText, -⟩ := nested_step h
    have hPass : ¬ (quote = none ∧ c = delimiter ∧ Separates c ∧
        ((parens + squares + braces : Nat) : Int) = 0) := by
      rintro ⟨hQuote, rfl, hSeparates, hZero⟩
      have hSome := hInside hDelimiter hQuote hSeparates
      omega
    rw [List.cons_append, splitFrom_step, if_neg hPass, ← hDepth, ih hText, List.reverse_cons,
      List.append_assoc, List.singleton_append]

theorem splitTopLevel_nested (hDelimiter : delimiter ∈ delimiters)
    (h : nested delimiters 0 0 0 none text = true) : splitTopLevel delimiter text = [text] := by
  have hCut := splitFrom_nested hDelimiter h [] []
  rw [List.append_nil] at hCut
  rw [splitTopLevel]
  refine hCut.trans ?_
  simp [splitFrom]

theorem splitTopLevel_cons (hDelimiter : delimiter ∈ delimiters)
    (hPlain : Separates delimiter) (h : nested delimiters 0 0 0 none text = true)
    (rest : List Char) :
    splitTopLevel delimiter (text ++ delimiter :: rest) = text :: splitTopLevel delimiter rest := by
  have hCut := splitFrom_nested hDelimiter h [] (delimiter :: rest)
  rw [splitTopLevel]
  refine hCut.trans ?_
  simp [splitFrom, hPlain.1, hPlain.2.1, hPlain.2.2, splitTopLevel]

end Cut

section Plain

/-- The characters that brackets, quotes and lists are told by. -/
def punctuation : List Char :=
  ['"', '\x27', '(', ')', '[', ']', '\x7b', '\x7d', ',', '=', '.', ';']

theorem nested_plain {c : Char} (h : c ∉ punctuation) :
    nested [',', '='] parens squares braces none (c :: text) =
      nested [',', '='] parens squares braces none text := by
  simp only [punctuation, List.mem_cons, List.not_mem_nil, or_false, not_or] at h
  simp [nested, isQuote, h]

theorem nested_word {word : List Char} (h : ∀ c ∈ word, c ∉ punctuation) :
    nested [',', '='] parens squares braces none (word ++ text) =
      nested [',', '='] parens squares braces none text := by
  induction word with
  | nil => rfl
  | cons c word ih =>
    rw [List.forall_mem_cons] at h
    rw [List.cons_append, nested_plain h.1, ih h.2]

theorem notMem_punctuation_of_isBlank {c : Char} (h : Text.isBlank c = true) :
    c ∉ punctuation := by
  have hAll : ∀ c ∈ punctuation, Text.isBlank c = false := by decide
  intro hMem
  rw [hAll c hMem] at h
  cases h

theorem nested_blanks {blanks : List Char} (h : Text.AllBlank blanks) :
    nested [',', '='] parens squares braces none (blanks ++ text) =
      nested [',', '='] parens squares braces none text :=
  nested_word fun c hc => notMem_punctuation_of_isBlank (h c hc)

theorem nested_around {before after : List Char} (h : nested [',', '='] 0 0 0 none text = true)
    (hBefore : Text.AllBlank before) (hAfter : Text.AllBlank after) :
    nested [',', '='] 0 0 0 none (before ++ text ++ after) = true := by
  rw [List.append_assoc, nested_blanks hBefore]
  refine nested_append h ?_
  rw [← List.append_nil after, nested_blanks hAfter]
  rfl

/-- Whether the square brackets among tokens are closed, with a number of them open before. -/
def closed (squares : Nat) : List Token → Bool
  | [] => squares == 0
  | .openBracket :: rest => closed (squares + 1) rest
  | .closeBracket :: rest => 0 < squares && closed (squares - 1) rest
  | _ :: rest => closed squares rest

/-- A word of the characters that names and numbers are made of. -/
def PlainWord (word : String) : Prop :=
  word.toList ≠ [] ∧ ∀ c ∈ word.toList, (Text.continuesIdentifier c || c == ':') = true

instance (word : String) : Decidable (PlainWord word) :=
  inferInstanceAs (Decidable (_ ∧ _))

section Name

variable {c : Char} (h : (Text.continuesIdentifier c || c == ':') = true)
include h

theorem notMem_of_name : c ∉ '*' :: '&' :: punctuation := by
  have hMarks : ∀ c ∈ '*' :: '&' :: punctuation,
      (Text.continuesIdentifier c || c == ':') = false := by decide
  intro hMem
  rw [hMarks c hMem] at h
  cases h

theorem isWordChar_of_name : Token.IsWordChar c := by
  have hNone := notMem_of_name h
  rw [List.mem_cons, List.mem_cons, not_or, not_or] at hNone
  have hRange : 48 ≤ c.toNat ∧ c.toNat ≤ 122 := by
    simp only [Text.continuesIdentifier, Text.isAsciiLetter, Text.isAsciiDigit, Bool.or_eq_true,
      Bool.and_eq_true, decide_eq_true_eq, beq_iff_eq, Char.le_def, UInt32.le_iff_toNat_le] at h
    rcases h with (((h | h) | h) | rfl) | rfl
    · exact ⟨Nat.le_trans (by decide) h.1, Nat.le_trans h.2 (by decide)⟩
    · exact ⟨Nat.le_trans (by decide) h.1, Nat.le_trans h.2 (by decide)⟩
    · exact ⟨h.1, Nat.le_trans h.2 (by decide)⟩
    · decide
    · decide
  constructor
  · simp only [Text.isBlank, Bool.or_eq_false_iff, Bool.and_eq_false_iff, decide_eq_false_iff_not,
      beq_eq_false_iff_ne]
    omega
  · unfold Token.ofMark?
    split
    · exact absurd rfl hNone.1
    · exact absurd rfl hNone.2.1
    · exact absurd (by decide) hNone.2.2
    · exact absurd (by decide) hNone.2.2
    · rfl

end Name

theorem PlainWord.notMem_punctuation {word : String} (h : PlainWord word) :
    ∀ c ∈ word.toList, c ∉ punctuation := by
  intro c hc hMem
  exact notMem_of_name (h.2 c hc) (List.mem_cons_of_mem _ (List.mem_cons_of_mem _ hMem))

theorem nested_of_spells {tokens : List Token} (h : Token.Spells tokens text)
    (hWords : ∀ word, .word word ∈ tokens → PlainWord word)
    (hClosed : closed squares tokens = true) :
    nested [',', '='] 0 squares 0 none text = true := by
  induction h generalizing squares with
  | nil => simpa [closed, nested] using hClosed
  | blank hBlank _ ih =>
    rw [nested_plain (notMem_punctuation_of_isBlank hBlank)]
    exact ih hWords hClosed
  | mark hMark _ ih =>
    have hRest := fun word hMem => hWords word (List.mem_cons_of_mem _ hMem)
    unfold Token.ofMark? at hMark
    split at hMark
    · cases hMark
      rw [nested_plain (by decide)]
      exact ih hRest hClosed
    · cases hMark
      rw [nested_plain (by decide)]
      exact ih hRest hClosed
    · cases hMark
      exact ih hRest hClosed
    · cases hMark
      rw [closed, Bool.and_eq_true] at hClosed
      have hMore := ih hRest hClosed.2
      simp [nested, isQuote, hMore, hClosed.1]
    · cases hMark
  | word hSome hWord hEnd _ ih =>
    have hPlain := (hWords _ List.mem_cons_self).notMem_punctuation
    rw [String.toList_ofList] at hPlain
    rw [nested_word hPlain]
    exact ih (fun word hMem => hWords word (List.mem_cons_of_mem _ hMem)) hClosed

theorem cases_of_mem_spells {tokens : List Token} (h : Token.Spells tokens text) {c : Char}
    (hMem : c ∈ text) : Text.isBlank c = true ∨ (Token.ofMark? c).isSome = true ∨
      ∃ word, .word word ∈ tokens ∧ c ∈ word.toList := by
  induction h with
  | nil => cases hMem
  | blank hBlank _ ih =>
    rcases List.mem_cons.mp hMem with rfl | hMem
    · exact .inl hBlank
    · exact ih hMem
  | mark hMark _ ih =>
    rcases List.mem_cons.mp hMem with rfl | hMem
    · exact .inr (.inl (by rw [hMark]; rfl))
    · refine (ih hMem).imp_right (Or.imp_right ?_)
      rintro ⟨word, hWord, hc⟩
      exact ⟨word, List.mem_cons_of_mem _ hWord, hc⟩
  | @word word tokens text hSome hWord hEnd _ ih =>
    rcases List.mem_append.mp hMem with hMem | hMem
    · exact .inr (.inr ⟨_, List.mem_cons_self, by rwa [String.toList_ofList]⟩)
    · refine (ih hMem).imp_right (Or.imp_right ?_)
      rintro ⟨word, hWord, hc⟩
      exact ⟨word, List.mem_cons_of_mem _ hWord, hc⟩

/-- Plain words bring no punctuation into a text, and marks bring square brackets only. -/
theorem notMem_of_spells {tokens : List Token} (h : Token.Spells tokens text)
    (hWords : ∀ word, .word word ∈ tokens → PlainWord word) {c : Char} (hMark : c ∈ punctuation)
    (hNone : Token.ofMark? c = none) : c ∉ text := by
  intro hMem
  rcases cases_of_mem_spells h hMem with hBlank | hToken | ⟨word, hWord, hc⟩
  · exact notMem_punctuation_of_isBlank hBlank hMark
  · rw [hNone] at hToken
    cases hToken
  · exact (hWords word hWord).notMem_punctuation c hc hMark

end Plain

end NativeBinding.Header
