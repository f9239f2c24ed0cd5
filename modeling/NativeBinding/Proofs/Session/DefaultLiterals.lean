import NativeBinding.Proofs.Header.Literal
import NativeBinding.Proofs.Ieee.Whole
import NativeBinding.Proofs.Session.Passing
import NativeBinding.Proofs.Text.Blank

/-! # Defaults that are literals

A default is read as a number in base ten, or as the text between its marks. So an octal number and
an escape are given another value than they have, a character is a text where a number is expected,
and a number of more than 64 bits is rounded. A number that is marked as hexadecimal or has a
suffix, and a text with a sign or an encoding, are not read at all: such a parameter has to be
given.
-/

set_option autoImplicit false

namespace NativeBinding.Session

open Ieee Literal

/-- Whether there is a null pointer of a type. -/
def mayBeNull : TypeRef → Bool
  | .cString => true
  | .struct _ => true
  | _ => false

/-- A scripting value that stands for a literal where a parameter of a type is expected. -/
inductive Denotes (type : TypeRef) : Value → Literal → Prop
  | int {n : Int64} {l : IntegerLiteral} (h : n.toInt = l.value) :
      Denotes type (.int n) (.integer l)
  | null {l : IntegerLiteral} (h : l.value = 0) (hType : mayBeNull type = true) :
      Denotes type .null (.integer l)
  | float {x : Binary64} {l : IntegerLiteral} (h : x.Equals l.value) :
      Denotes type (.float x) (.integer l)
  /-- What a parameter of type `double` is given. -/
  | nearest {l : IntegerLiteral} (hType : type = .scalar .f64)
      (hFinite : (Binary64.nearest l.value).isFinite = true) :
      Denotes type (.float (Binary64.nearest l.value)) (.integer l)
  /-- A text of one octet is a character where one is expected. -/
  | text {value : String} {q : QuotedLiteral} (hSign : q.sign = [])
      (hOne : q.mark = '"' ∨ type = .scalar .char ∧ q.octets.length = 1)
      (h : Text.Utf8.ofString value = q.octets) : Denotes type (.text value) (.quoted q)
  /-- A character is also its code. -/
  | code {n : Int64} {code : UInt8} {q : QuotedLiteral} (hMark : q.mark = '\x27')
      (hOctets : q.octets = [code]) (hAscii : code.toNat < 128)
      (h : n.toInt = signed q.sign code.toNat) : Denotes type (.int n) (.quoted q)

/-- A literal that is not read. -/
def Unread : Literal → Prop
  | .integer l => l.radix = .hexadecimal ∨ l.suffix ≠ []
  | .quoted q => q.sign ≠ [] ∨ q.encoding ≠ []

def FitsInt64 (n : Int) : Prop :=
  Int64.minValue.toInt ≤ n ∧ n ≤ Int64.maxValue.toInt

/-- A literal that is read as what it stands for. -/
def Kept (type : TypeRef) : Literal → Prop
  | .integer l =>
    match l.radix with
    | .decimal => FitsInt64 l.value ∨ (∃ x : Binary64, x.Equals l.value) ∨
        type = .scalar .f64 ∧ (Binary64.nearest l.value).isFinite = true
    | _ => l.value.natAbs < 8
  | .quoted q =>
    (∀ e ∈ q.elements, e.isPlain = true) ∧
      (q.mark = '"' ∨ type = .scalar .char ∧ q.octets.length = 1)

section Reading

variable {type : TypeRef} {sign run digits text : List Char} {c : Char} {rest : List Char}

theorem between?_quoted (mark : Char) (inner : List Char) :
    between? mark (mark :: (inner ++ [mark])) = some inner := by
  simp [between?]

theorem between?_other {mark : Char} (h : c ≠ mark) : between? mark (c :: rest) = none := by
  simp [between?, h]

/-- What a word or a text between marks begins with. -/
def openings : List Char :=
  ['N', 'n', 't', 'f', '"', '\x27']

section Trimmed

variable {spelling : String}

theorem ne_word {word : String} {w : Char} (hHead : word.toList.head? = some w) (hc : c ≠ w) :
    String.ofList (c :: rest) ≠ word := by
  rintro rfl
  rw [String.toList_ofList, List.head?_cons, Option.some.injEq] at hHead
  exact hc hHead

theorem defaultArgument?_eq (hText : Text.trim spelling.toList = c :: rest)
    (hFirst : c ∉ ['N', 'n', 't', 'f']) : defaultArgument? type spelling =
      match between? '"' (c :: rest), between? '\x27' (c :: rest) with
      | some inner, _ => some (.text (String.ofList inner))
      | none, some inner => some (.text (String.ofList inner))
      | none, none => numberArgument? type (c :: rest) := by
  simp only [List.mem_cons, List.not_mem_nil, or_false, not_or] at hFirst
  obtain ⟨hCapital, hSmall, hTrue, hFalse⟩ := hFirst
  rw [defaultArgument?, hText]
  split
  · rename_i hHere
    exact absurd hHere (ne_word rfl hCapital)
  · rename_i hHere
    exact absurd hHere (ne_word rfl hSmall)
  · rename_i hHere
    exact absurd hHere (ne_word rfl hTrue)
  · rename_i hHere
    exact absurd hHere (ne_word rfl hFalse)
  · rfl

theorem defaultArgument?_number (hSign : sign ∈ signs) (hFirst : sign ≠ [] ∨ c ∉ openings)
    (hText : Text.trim spelling.toList = sign ++ c :: rest) :
    defaultArgument? type spelling = numberArgument? type (sign ++ c :: rest) := by
  obtain ⟨first, others, hCons, hNone⟩ :
      ∃ first others, sign ++ c :: rest = first :: others ∧ first ∉ openings := by
    simp only [signs, List.mem_cons, List.not_mem_nil, or_false] at hSign
    rcases hSign with rfl | rfl | rfl
    · exact ⟨c, rest, rfl, hFirst.resolve_left fun h => h rfl⟩
    · exact ⟨'+', c :: rest, rfl, by decide⟩
    · exact ⟨'-', c :: rest, rfl, by decide⟩
  simp only [openings, List.mem_cons, List.not_mem_nil, or_false, not_or] at hNone
  rw [hCons] at hText ⊢
  rw [defaultArgument?_eq hText (by simp [hNone]), between?_other hNone.2.2.2.2.1,
    between?_other hNone.2.2.2.2.2]

end Trimmed

theorem splitSign_signs (hSign : sign ∈ signs) (hc : c ∉ ['+', '-']) :
    splitSign (sign ++ c :: rest) = (decide (sign = ['-']), c :: rest) := by
  simp only [signs, List.mem_cons, List.not_mem_nil, or_false] at hSign
  rcases hSign with rfl | rfl | rfl
  · simp only [List.mem_cons, List.not_mem_nil, or_false, not_or] at hc
    unfold splitSign
    split
    · rename_i hHead
      exact absurd (List.cons.inj hHead).1 hc.2
    · rename_i hHead
      exact absurd (List.cons.inj hHead).1 hc.1
    · rfl
  · rfl
  · rfl

theorem not_mem_of_digit {others : List Char}
    (hOthers : ∀ d ∈ others, Text.isAsciiDigit d = false) (h : Text.isAsciiDigit c = true) :
    c ∉ others := by
  intro hMem
  rw [hOthers c hMem] at h
  cases h

theorem lowerAscii_of_digit (h : Text.isAsciiDigit c = true) : Text.lowerAscii c = c := by
  have hCapital : ¬ 'A' ≤ c := by
    intro hLetter
    simp only [Text.isAsciiDigit, Bool.and_eq_true, decide_eq_true_eq] at h
    exact absurd (Char.le_trans hLetter h.2) (by decide)
  simp [Text.lowerAscii, hCapital]

section Whole

variable (hSign : sign ∈ signs) (hDigits : ∀ c ∈ digits, Text.isAsciiDigit c = true)
  (hSome : digits ≠ [])

include hDigits

theorem decimal?_whole (hSome : digits ≠ []) :
    decimal? digits = some (Text.digitsValue digits, 0) := by
  have hTake : digits.takeWhile Text.isAsciiDigit = digits :=
    List.takeWhile_eq_self_iff.mpr hDigits
  have hDrop : digits.dropWhile Text.isAsciiDigit = [] := List.dropWhile_eq_nil_iff.mpr hDigits
  simp only [decimal?, hTake, hDrop, splitFraction, exponent?]
  simp [hSome]

include hSign hSome

theorem integer?_whole :
    integer? (sign ++ digits) = some (signed sign (Text.digitsValue digits)) := by
  obtain ⟨c, rest, rfl⟩ := List.exists_cons_of_ne_nil hSome
  have hFirst : c ∉ ['+', '-'] := not_mem_of_digit (by decide) (hDigits c List.mem_cons_self)
  have hRead : Text.digits? (c :: rest) = some (Text.digitsValue (c :: rest)) := by
    rw [Text.digits?, if_neg (by simpa using hDigits)]
  simp only [integer?, splitSign_signs hSign hFirst, hRead, decide_eq_true_eq]
  rfl

theorem parse?_whole : Binary64.parse? (sign ++ digits) =
    some (Binary64.ofDecimal (decide (sign = ['-'])) (Text.digitsValue digits) 0) := by
  obtain ⟨c, rest, rfl⟩ := List.exists_cons_of_ne_nil hSome
  have hDigit := hDigits c List.mem_cons_self
  have hSplit : splitSign (sign ++ c :: rest) = (decide (sign = ['-']), c :: rest) :=
    splitSign_signs hSign (not_mem_of_digit (by decide) hDigit)
  have hRead : Binary64.parse? (if decide (sign = ['-']) then '-' :: c :: rest else c :: rest) =
      (decimal? (c :: rest)).map fun d => Binary64.ofDecimal (decide (sign = ['-'])) d.1 d.2 :=
    Binary64.parse?_digits hDigit _
  rw [decimal?_whole hDigits hSome, Option.map_some] at hRead
  -- The reader sees the sign only, and a plus is no sign to it.
  have hSame : splitSign (sign ++ c :: rest) =
      splitSign (if decide (sign = ['-']) then '-' :: c :: rest else c :: rest) := by
    rw [hSplit]
    by_cases hMinus : sign = ['-']
    · simp [hMinus, splitSign]
    · simp only [hMinus, decide_false, Bool.false_eq_true, if_false]
      have hNone : [] ∈ signs := by simp [signs]
      exact (splitSign_signs hNone (not_mem_of_digit (by decide) hDigit)).symm
  rw [← hRead, Binary64.parse?, Binary64.parse?, hSame]

theorem numberArgument?_fits (hFits : FitsInt64 (signed sign (Text.digitsValue digits))) :
    numberArgument? type (sign ++ digits) =
      some (if signed sign (Text.digitsValue digits) = 0 ∧ mayBeNull type = true then Value.null
        else .int (Int64.ofInt (signed sign (Text.digitsValue digits)))) := by
  have hInteger := integer?_whole hSign hDigits hSome
  generalize signed sign (Text.digitsValue digits) = n at hInteger hFits ⊢
  have hZero : Int64.ofInt n = 0 ↔ n = 0 := by
    rw [← Int64.toInt_inj, Int64.toInt_ofInt_of_le hFits.1 (Int.lt_add_one_of_le hFits.2)]
    rfl
  have hBounds : Int64.minValue.toInt ≤ n ∧ n ≤ Int64.maxValue.toInt := hFits
  rw [numberArgument?, int64?, hInteger, Option.bind_some, if_pos hBounds]
  cases type <;> simp [mayBeNull, hZero]

theorem numberArgument?_beyond (hBeyond : ¬ FitsInt64 (signed sign (Text.digitsValue digits))) :
    numberArgument? type (sign ++ digits) =
      some (.float (Binary64.ofDecimal (decide (sign = ['-'])) (Text.digitsValue digits) 0)) := by
  have hParse := parse?_whole hSign hDigits hSome
  have hNone : int64? (sign ++ digits) = none := by
    rw [int64?, integer?_whole hSign hDigits hSome, Option.bind_some]
    exact if_neg hBeyond
  have hLast (last : Char) (hLast : last ∈ ['f', 'F']) : (sign ++ digits).getLast? ≠ some last := by
    intro hEnd
    rw [List.getLast?_append_of_ne_nil _ hSome] at hEnd
    exact not_mem_of_digit (by decide) (hDigits last (List.mem_of_getLast? hEnd)) hLast
  rw [numberArgument?, hNone]
  dsimp only
  split
  · rename_i hEnd
    exact absurd hEnd (hLast 'f' (by simp))
  · rename_i hEnd
    exact absurd hEnd (hLast 'F' (by simp))
  · rw [hParse]
    rfl

end Whole

section Foreign

/-- The first characters of what ends a number before it is read. -/
def marks : List Char :=
  ['x', 'X', 'u', 'U', 'l', 'L', '"', '\x27']

variable (hSign : sign ∈ signs) (hRun : ∀ d ∈ run, Text.isAsciiDigit d = true) (hc : c ∈ marks)

theorem mark_facts : ∀ c ∈ marks, Text.isAsciiDigit c = false ∧ c ∉ ['+', '-'] ∧ c ≠ '.' ∧
    (c == 'e' || c == 'E') = false ∧ c ∉ ['f', 'F'] ∧ Text.lowerAscii c ∉ ['i', 'n'] := by
  decide

include hc

theorem digits?_foreign : Text.digits? (run ++ c :: rest) = none := by
  have hNot : (run ++ c :: rest).all Text.isAsciiDigit = false := by
    simp [(mark_facts c hc).1]
  rw [Text.digits?, hNot]
  simp

include hRun

theorem decimal?_foreign : decimal? (run ++ c :: rest) = none := by
  obtain ⟨hDigit, -, hPoint, hExponent, -⟩ := mark_facts c hc
  have hTake : (run ++ c :: rest).takeWhile Text.isAsciiDigit = run :=
    (Text.takeWhile_run hRun (by simpa using hDigit)).1
  have hDrop : (run ++ c :: rest).dropWhile Text.isAsciiDigit = c :: rest :=
    (Text.takeWhile_run hRun (by simpa using hDigit)).2
  have hFraction : splitFraction (c :: rest) = ([], c :: rest) := by
    unfold splitFraction
    split
    · rename_i hHead
      exact absurd (List.cons.inj hHead).1 hPoint
    · rfl
  simp only [decimal?, hTake, hDrop, hFraction, exponent?, hExponent]
  simp

include hSign

theorem splitSign_foreign :
    splitSign (sign ++ (run ++ c :: rest)) = (decide (sign = ['-']), run ++ c :: rest) := by
  cases run with
  | nil => exact splitSign_signs hSign (mark_facts c hc).2.1
  | cons d run =>
    have hDigit := hRun d List.mem_cons_self
    exact splitSign_signs hSign (not_mem_of_digit (by decide) hDigit)

theorem parse?_foreign : Binary64.parse? (sign ++ (run ++ c :: rest)) = none := by
  obtain ⟨first, others, hWord, hFirst⟩ : ∃ first others,
      (run ++ c :: rest).map Text.lowerAscii = first :: others ∧ first ∉ ['i', 'n'] := by
    cases run with
    | nil => exact ⟨_, _, rfl, (mark_facts c hc).2.2.2.2.2⟩
    | cons d run =>
      have hDigit := hRun d List.mem_cons_self
      rw [List.cons_append, List.map_cons, lowerAscii_of_digit hDigit]
      exact ⟨_, _, rfl, not_mem_of_digit (by decide) hDigit⟩
  simp only [List.mem_cons, List.not_mem_nil, or_false, not_or] at hFirst
  rw [Binary64.parse?, splitSign_foreign hSign hRun hc]
  dsimp only
  rw [hWord]
  split
  · rename_i hHere
    exact absurd hHere (ne_word rfl hFirst.1)
  · rename_i hHere
    exact absurd hHere (ne_word rfl hFirst.1)
  · rename_i hHere
    exact absurd hHere (ne_word rfl hFirst.2)
  · rw [decimal?_foreign hRun hc]
    rfl

theorem numberArgument?_foreign : numberArgument? type (sign ++ (run ++ c :: rest)) = none := by
  have hInteger : int64? (sign ++ (run ++ c :: rest)) = none := by
    rw [int64?, integer?, splitSign_foreign hSign hRun hc]
    dsimp only
    rw [digits?_foreign hc]
    rfl
  -- Without an `f` at its end it is still such a text.
  have hShort : rest ≠ [] → (sign ++ (run ++ c :: rest)).dropLast =
      sign ++ (run ++ c :: rest.dropLast) := by
    intro hRest
    rw [List.dropLast_append_of_ne_nil (by simp), List.dropLast_append_of_ne_nil (by simp),
      List.dropLast_cons_of_ne_nil hRest]
  have hLong (last : Char) (hLast : last ∈ ['f', 'F'])
      (hEnd : (sign ++ (run ++ c :: rest)).getLast? = some last) : rest ≠ [] := by
    rintro rfl
    have hSame : c = last := by simpa using hEnd
    exact (mark_facts c hc).2.2.2.2.1 (hSame ▸ hLast)
  rw [numberArgument?, hInteger]
  dsimp only
  split
  · rename_i hEnd
    rw [hShort (hLong 'f' (by simp) hEnd), parse?_foreign hSign hRun hc]
    rfl
  · rename_i hEnd
    rw [hShort (hLong 'F' (by simp) hEnd), parse?_foreign hSign hRun hc]
    rfl
  · rw [parse?_foreign hSign hRun hc]
    rfl

theorem defaultArgument?_foreign {spelling : String}
    (hFirst : sign ≠ [] ∨ run ≠ [] ∨ c ∉ openings)
    (hText : Text.trim spelling.toList = sign ++ (run ++ c :: rest)) :
    defaultArgument? type spelling = none := by
  have hNone : numberArgument? type (sign ++ (run ++ c :: rest)) = none :=
    numberArgument?_foreign hSign hRun hc
  rw [← hNone]
  cases run with
  | nil =>
    have hOther : sign ≠ [] ∨ c ∉ openings :=
      hFirst.imp_right fun h => h.resolve_left fun h => h rfl
    exact defaultArgument?_number hSign hOther hText
  | cons d run =>
    have hDigit : d ∉ openings := not_mem_of_digit (by decide) (hRun d List.mem_cons_self)
    exact defaultArgument?_number hSign (.inr hDigit) hText

end Foreign

end Reading

section Integers

variable {type : TypeRef} {l : IntegerLiteral}

theorem le_of_not_fits {sign : List Char} {n : Nat} (h : ¬ FitsInt64 (signed sign n)) :
    2 ^ 63 ≤ n := by
  by_contra hSmall
  refine h ⟨?_, ?_⟩
  · rw [Int64.toInt_minValue, signed]
    split_ifs <;> omega
  · rw [Int64.toInt_maxValue, signed]
    split_ifs <;> omega

theorem ofDecimal_eq_nearest {sign : List Char} {n : Nat} (hn : n ≠ 0) :
    Binary64.ofDecimal (decide (sign = ['-'])) n 0 = Binary64.nearest (signed sign n) := by
  have hNegative : decide (sign = ['-']) = decide (signed sign n < 0) := by
    unfold signed
    split_ifs with hSign
    · simp [hSign, Nat.pos_of_ne_zero hn]
    · simp [hSign]
  rw [Binary64.nearest, natAbs_signed, hNegative]

theorem denotes_fits {n : Int} (hFits : FitsInt64 n) :
    Denotes type (if n = 0 ∧ mayBeNull type = true then Value.null else .int (Int64.ofInt n))
      (.integer l) ↔ l.value = n := by
  have hBack : (Int64.ofInt n).toInt = n :=
    Int64.toInt_ofInt_of_le hFits.1 (Int.lt_add_one_of_le hFits.2)
  split_ifs with hNull
  · constructor
    · rintro ⟨⟩
      omega
    · intro hSame
      exact .null (hSame.trans hNull.1) hNull.2
  · constructor
    · rintro ⟨⟩
      omega
    · intro hSame
      exact .int (hBack.trans hSame.symm)

theorem denotes_float {x : Binary64} : Denotes type (.float x) (.integer l) ↔
    x.Equals l.value ∨ type = .scalar .f64 ∧ x = Binary64.nearest l.value ∧
      (Binary64.nearest l.value).isFinite = true := by
  constructor
  · rintro (_ | _ | hEquals | ⟨hType, hFinite⟩)
    · exact .inl hEquals
    · exact .inr ⟨hType, rfl, hFinite⟩
  · rintro (hEquals | ⟨hType, rfl, hFinite⟩)
    · exact .float hEquals
    · exact .nearest hType hFinite

/-- What is read in base ten is the value, unless it is octal and has a digit that counts more. -/
theorem kept_fits (hRadix : l.radix ≠ .hexadecimal)
    (hFits : FitsInt64 (signed l.sign (Text.digitsValue l.digits))) :
    l.value = signed l.sign (Text.digitsValue l.digits) ↔ Kept type (.integer l) := by
  have hTen := valueOf_ten (l.isAsciiDigit_of_mem hRadix)
  cases hHere : l.radix with
  | decimal =>
    have hValue := l.value_of_decimal hHere
    simp only [Kept, hHere]
    exact iff_of_true hValue (.inl (hValue ▸ hFits))
  | octal =>
    simp only [Kept, hHere]
    rw [l.value_of_octal hHere, ← hTen, signed_inj, natAbs_signed]
    exact valueOf_eight_eq_iff (hHere ▸ l.hDigits)
  | hexadecimal => exact absurd hHere hRadix

theorem kept_beyond_decimal (hDecimal : l.radix = .decimal)
    (hBeyond : ¬ FitsInt64 (signed l.sign (Text.digitsValue l.digits))) :
    Denotes type
      (.float (Binary64.ofDecimal (decide (l.sign = ['-'])) (Text.digitsValue l.digits) 0))
      (.integer l) ↔ Kept type (.integer l) := by
  have hGreat := le_of_not_fits hBeyond
  have hValue := l.value_of_decimal hDecimal
  have hSome : l.value ≠ 0 := by
    rw [hValue, ← Int.natAbs_ne_zero, natAbs_signed]
    omega
  simp only [Kept, hDecimal]
  rw [← hValue] at hBeyond
  rw [denotes_float, ofDecimal_eq_nearest (by omega), ← hValue]
  constructor
  · rintro (hEquals | ⟨hType, -, hFinite⟩)
    · exact .inr (.inl ⟨_, hEquals⟩)
    · exact .inr (.inr ⟨hType, hFinite⟩)
  · rintro (hFits | ⟨x, hEquals⟩ | ⟨hType, hFinite⟩)
    · exact absurd hFits hBeyond
    · exact .inl (Binary64.eq_nearest_of_equals hEquals hSome ▸ hEquals)
    · exact .inr ⟨hType, rfl, hFinite⟩

theorem kept_beyond_octal (hOctal : l.radix = .octal)
    (hBeyond : ¬ FitsInt64 (signed l.sign (Text.digitsValue l.digits))) :
    Denotes type
      (.float (Binary64.ofDecimal (decide (l.sign = ['-'])) (Text.digitsValue l.digits) 0))
      (.integer l) ↔ Kept type (.integer l) := by
  have hDigits : ∀ c ∈ l.digits, Radix.octal.isDigit c = true := hOctal ▸ l.hDigits
  have hTen : valueOf 10 l.digits = Text.digitsValue l.digits :=
    valueOf_ten (l.isAsciiDigit_of_mem (hOctal ▸ nofun))
  have hGreat := le_of_not_fits hBeyond
  have hAbs : l.value.natAbs = valueOf 8 l.digits := by
    rw [l.value_of_octal hOctal, natAbs_signed]
  have hMore : ¬ valueOf 8 l.digits < 8 := by
    intro hSmall
    have hSame := (valueOf_eight_eq_iff hDigits).mpr hSmall
    omega
  -- So many digits count at least four times as much in base ten, which no rounding makes up for.
  have hFour : 4 * l.value.natAbs ≤ Text.digitsValue l.digits := by
    rw [hAbs, ← hTen]
    exact four_mul_valueOf_le hDigits (hTen ▸ hGreat)
  have hSome : l.value ≠ 0 := by
    rw [← Int.natAbs_ne_zero, hAbs]
    omega
  simp only [Kept, hOctal]
  rw [denotes_float]
  refine iff_of_false ?_ (by rwa [hAbs])
  rintro (hEquals | ⟨-, hSame, hFinite⟩)
  · exact (Binary64.ne_nearest_of_four hFour hSome hEquals.finite).2 hEquals
  · exact (Binary64.ne_nearest_of_four hFour hSome (hSame ▸ hFinite)).1 hSame

theorem kept_beyond (hRadix : l.radix ≠ .hexadecimal)
    (hBeyond : ¬ FitsInt64 (signed l.sign (Text.digitsValue l.digits))) :
    Denotes type
      (.float (Binary64.ofDecimal (decide (l.sign = ['-'])) (Text.digitsValue l.digits) 0))
      (.integer l) ↔ Kept type (.integer l) := by
  cases hHere : l.radix with
  | decimal => exact kept_beyond_decimal hHere hBeyond
  | octal => exact kept_beyond_octal hHere hBeyond
  | hexadecimal => exact absurd hHere hRadix

theorem numberArgument?_integer (hRead : ¬ Unread (.integer l)) :
    ∃ v, numberArgument? type (l.sign ++ l.digits) = some v ∧
      (Denotes type v (.integer l) ↔ Kept type (.integer l)) := by
  have hRadix : l.radix ≠ .hexadecimal := fun h => hRead (.inl h)
  have hDigits := l.isAsciiDigit_of_mem hRadix
  by_cases hFits : FitsInt64 (signed l.sign (Text.digitsValue l.digits))
  · exact ⟨_, numberArgument?_fits l.hSign hDigits l.digits_ne_nil hFits,
      (denotes_fits hFits).trans (kept_fits hRadix hFits)⟩
  · exact ⟨_, numberArgument?_beyond l.hSign hDigits l.digits_ne_nil hFits,
      kept_beyond hRadix hFits⟩

end Integers

section Read

variable {type : TypeRef} {l : IntegerLiteral} {q : QuotedLiteral} {spelling : String}

theorem defaultArgument?_integer (hText : Text.trim spelling.toList = l.spelling)
    (hRead : ¬ Unread (.integer l)) : ∃ v, defaultArgument? type spelling = some v ∧
      (Denotes type v (.integer l) ↔ Kept type (.integer l)) := by
  have hRadix : l.radix ≠ .hexadecimal := fun h => hRead (.inl h)
  have hSuffix : l.suffix = [] := not_not.mp fun h => hRead (.inr h)
  obtain ⟨c, rest, hCons⟩ := List.exists_cons_of_ne_nil l.digits_ne_nil
  have hDigit : Text.isAsciiDigit c = true :=
    l.isAsciiDigit_of_mem hRadix c (hCons ▸ List.mem_cons_self)
  rw [IntegerLiteral.spelling, l.lead_eq_nil hRadix, hSuffix, List.nil_append, List.append_nil,
    hCons] at hText
  rw [defaultArgument?_number l.hSign (.inr (not_mem_of_digit (by decide) hDigit)) hText, ← hCons]
  exact numberArgument?_integer hRead

theorem defaultArgument?_unread_integer (hText : Text.trim spelling.toList = l.spelling)
    (hUnread : Unread (.integer l)) : defaultArgument? type spelling = none := by
  by_cases hRadix : l.radix = .hexadecimal
  · have hLead := l.hLead
    rw [hRadix] at hLead
    obtain ⟨x, hx, hLead⟩ : ∃ x ∈ ['x', 'X'], l.lead = ['0', x] := by
      simpa [Radix.leads] using hLead
    have hMark : x ∈ marks := by
      simp only [List.mem_cons, List.not_mem_nil, or_false] at hx
      rcases hx with rfl | rfl <;> decide
    have hZero : ∀ d ∈ ['0'], Text.isAsciiDigit d = true := by decide
    have hForeign : Text.trim spelling.toList =
        l.sign ++ (['0'] ++ x :: (l.digits ++ l.suffix)) := by
      rw [hText, IntegerLiteral.spelling, hLead]
      rfl
    exact defaultArgument?_foreign l.hSign hZero hMark (.inr (.inl (List.cons_ne_nil _ _))) hForeign
  · have hSome : l.suffix ≠ [] := hUnread.resolve_left hRadix
    have hStarts : ∀ c ∈ suffixes.filterMap List.head?, c ∈ marks := by decide
    have hMem := l.hSuffix.resolve_left hSome
    obtain ⟨c, rest, hCons⟩ := List.exists_cons_of_ne_nil hSome
    rw [hCons] at hMem
    have hMark : c ∈ marks := hStarts c (List.mem_filterMap.mpr ⟨c :: rest, hMem, rfl⟩)
    have hForeign : Text.trim spelling.toList = l.sign ++ (l.digits ++ c :: rest) := by
      rw [hText, IntegerLiteral.spelling, l.lead_eq_nil hRadix, hCons]
      rfl
    exact defaultArgument?_foreign l.hSign (l.isAsciiDigit_of_mem hRadix) hMark
      (.inr (.inl l.digits_ne_nil)) hForeign

theorem defaultArgument?_unread_quoted (hText : Text.trim spelling.toList = q.spelling)
    (hUnread : Unread (.quoted q)) : defaultArgument? type spelling = none := by
  have hNone : ∀ d ∈ ([] : List Char), Text.isAsciiDigit d = true := List.forall_mem_nil _
  by_cases hEncoding : q.encoding = []
  · have hSome : q.sign ≠ [] := hUnread.resolve_right (not_not.mpr hEncoding)
    have hMark : q.mark ∈ marks := by
      rcases q.hMark with hMark | ⟨hMark, -⟩ <;> rw [hMark] <;> decide
    have hForeign : Text.trim spelling.toList =
        q.sign ++ ([] ++ q.mark :: (q.inner ++ [q.mark])) := by
      rw [hText, QuotedLiteral.spelling, hEncoding]
      rfl
    exact defaultArgument?_foreign q.hSign hNone hMark (.inl hSome) hForeign
  · have hStarts : ∀ c ∈ encodings.filterMap List.head?, c ∈ marks ∧ c ∉ openings := by decide
    have hMem := q.hEncoding.resolve_left hEncoding
    obtain ⟨c, rest, hCons⟩ := List.exists_cons_of_ne_nil hEncoding
    rw [hCons] at hMem
    obtain ⟨hMark, hOpening⟩ := hStarts c (List.mem_filterMap.mpr ⟨c :: rest, hMem, rfl⟩)
    have hForeign : Text.trim spelling.toList =
        q.sign ++ ([] ++ c :: (rest ++ q.mark :: q.inner ++ [q.mark])) := by
      rw [hText, QuotedLiteral.spelling, hCons]
      rfl
    exact defaultArgument?_foreign q.hSign hNone hMark (.inr (.inr hOpening)) hForeign

theorem defaultArgument?_quoted (hText : Text.trim spelling.toList = q.spelling)
    (hRead : ¬ Unread (.quoted q)) :
    defaultArgument? type spelling = some (.text (String.ofList q.inner)) := by
  have hSign : q.sign = [] := not_not.mp fun h => hRead (.inl h)
  have hEncoding : q.encoding = [] := not_not.mp fun h => hRead (.inr h)
  rw [QuotedLiteral.spelling, hSign, hEncoding, List.nil_append, List.nil_append,
    List.cons_append] at hText
  rcases q.hMark with hMark | ⟨hMark, -⟩
  · rw [hMark] at hText
    rw [defaultArgument?_eq hText (by decide), between?_quoted]
  · rw [hMark] at hText
    rw [defaultArgument?_eq hText (by decide), between?_other (by decide), between?_quoted]

theorem denotes_quoted (hRead : ¬ Unread (.quoted q)) :
    Denotes type (.text (String.ofList q.inner)) (.quoted q) ↔ Kept type (.quoted q) := by
  have hSign : q.sign = [] := not_not.mp fun h => hRead (.inl h)
  have hSpelled : Text.Utf8.ofString (String.ofList q.inner) = q.octets ↔
      ∀ e ∈ q.elements, e.isPlain = true := by
    rw [Text.Utf8.ofString, String.toList_ofList]
    exact encode_eq_octets_iff q.hElements
  constructor
  · rintro ⟨⟩
    rename_i hOne hOctets
    exact ⟨hSpelled.mp hOctets, hOne⟩
  · rintro ⟨hPlain, hOne⟩
    exact .text hSign hOne (hSpelled.mpr hPlain)

end Read

/-- A parameter whose default is not read has to be given. -/
theorem not_passed_of_unread {m : Marshaler} {className method : String} {p : ParamBinding}
    {params : List ParamBinding} {values : List Value} {i : Nat} {spelling : String}
    (hParam : params[i]? = some p) (hDefault : p.default = some spelling)
    (hUnread : defaultArgument? p.type spelling = none) (hShort : values.length ≤ i) :
    ¬ ∃ native, nativeArguments m className method params values = .ok native := by
  simp only [nativeArguments_eq_ok_iff]
  refine unpassable_iff.mp (.missing hParam ?_)
  rintro v (hGiven | ⟨-, hSpelled, hValue⟩)
  · rw [List.getElem?_eq_none hShort] at hGiven
    cases hGiven
  · rw [hDefault, Option.some.injEq] at hSpelled
    rw [← hSpelled, hUnread] at hValue
    cases hValue

/-- A literal is either not read, and then its parameter has to be given, or it is read, but then as
what it stands for only if it is kept by the reading. -/
theorem default_literal (type : TypeRef) (l : Literal) {before after : List Char}
    (hBefore : Text.AllBlank before) (hAfter : Text.AllBlank after) {spelling : String}
    (hSpelling : spelling.toList = before ++ l.spelling ++ after) :
    (Unread l → defaultArgument? type spelling = none ∧
      ∀ (m : Marshaler) (className method : String) (params : List ParamBinding)
        (values : List Value) (i : Nat) (p : ParamBinding), params[i]? = some p → p.type = type →
        p.default = some spelling → values.length ≤ i →
        ¬ ∃ native, nativeArguments m className method params values = .ok native) ∧
    (¬ Unread l → ∃ v, defaultArgument? type spelling = some v ∧
      (Denotes type v l ↔ Kept type l)) := by
  have hText : Text.trim spelling.toList = l.spelling := by
    rw [hSpelling, Text.trim_around l.trim_spelling hBefore hAfter]
  constructor
  · intro hUnread
    have hNone : defaultArgument? type spelling = none := by
      cases l with
      | integer l => exact defaultArgument?_unread_integer hText hUnread
      | quoted q => exact defaultArgument?_unread_quoted hText hUnread
    refine ⟨hNone, ?_⟩
    rintro m className method params values i p hParam rfl hDefault hShort
    exact not_passed_of_unread hParam hDefault hNone hShort
  · intro hRead
    cases l with
    | integer l => exact defaultArgument?_integer hText hRead
    | quoted q => exact ⟨_, defaultArgument?_quoted hText hRead, denotes_quoted hRead⟩

def ten : IntegerLiteral where
  sign := []
  radix := .decimal
  lead := []
  digits := ['1', '0']
  suffix := []
  hSign := by decide
  hLead := by decide
  hDigits := by decide
  hBegins := ⟨'1', rfl, by decide⟩
  hSuffix := .inl rfl

def eight : IntegerLiteral where
  sign := []
  radix := .octal
  lead := []
  digits := ['0', '1', '0']
  suffix := []
  hSign := by decide
  hLead := by decide
  hDigits := by decide
  hBegins := rfl
  hSuffix := .inl rfl

theorem default_literal_sample :
    (∃ v, defaultArgument? (.scalar .i32) " 10 " = some v ∧
      Denotes (.scalar .i32) v (.integer ten)) ∧
    ∃ v, defaultArgument? (.scalar .i32) "010" = some v ∧
      ¬ Denotes (.scalar .i32) v (.integer eight) := by
  have hBlank : Text.AllBlank [' '] := by decide
  have hNone : Text.AllBlank [] := by decide
  have hRead (l : IntegerLiteral) (hRadix : l.radix ≠ .hexadecimal) (hSuffix : l.suffix = []) :
      ¬ Unread (.integer l) := fun h => h.elim hRadix fun hSome => hSome hSuffix
  have hTen : " 10 ".toList = [' '] ++ (Literal.integer ten).spelling ++ [' '] := by decide
  have hEight : "010".toList = [] ++ (Literal.integer eight).spelling ++ [] := by decide
  constructor
  · obtain ⟨v, hValue, hDenotes⟩ :=
      (default_literal (.scalar .i32) (.integer ten) hBlank hBlank hTen).2
        (hRead ten (by decide) rfl)
    exact ⟨v, hValue, hDenotes.mpr (.inl ⟨by decide, by decide⟩)⟩
  · obtain ⟨v, hValue, hDenotes⟩ :=
      (default_literal (.scalar .i32) (.integer eight) hNone hNone hEight).2
        (hRead eight (by decide) rfl)
    have hGreat : ¬ eight.value.natAbs < 8 := by decide
    exact ⟨v, hValue, fun h => hGreat (hDenotes.mp h)⟩

/-- An octal default is given another value. -/
theorem octal_default : eight.spelling = "010".toList ∧ eight.value = 8 ∧
    defaultArgument? (.scalar .i32) "010" = some (.int 10) ∧
      ¬ Denotes (.scalar .i32) (.int 10) (.integer eight) := by
  refine ⟨by decide, by decide, rfl, ?_⟩
  rintro ⟨⟩
  rename_i hSame
  exact absurd hSame (by decide)

end NativeBinding.Session
