import NativeBinding.Proofs.Text.Blank
import NativeBinding.Proofs.Text.Numeral
import NativeBinding.Text.Utf8

/-! # Literals of C

Integer, character and string literals with an optional sign, and what they stand for: a whole
number or octets. Digits count for the most in base ten, and an escape is always longer than the
octets that it stands for.
-/

set_option autoImplicit false

namespace NativeBinding.Literal

section Digits

inductive Radix where
  | decimal
  | octal
  | hexadecimal
  deriving DecidableEq

namespace Radix

def base : Radix → Nat
  | decimal => 10
  | octal => 8
  | hexadecimal => 16

/-- What may stand in front of the digits. -/
def leads : Radix → List (List Char)
  | decimal => [[]]
  | octal => [[]]
  | hexadecimal => [['0', 'x'], ['0', 'X']]

def isDigit : Radix → Char → Bool
  | decimal, c => Text.isAsciiDigit c
  | octal, c => '0' ≤ c && c ≤ '7'
  | hexadecimal, c =>
    Text.isAsciiDigit c || ('a' ≤ Text.lowerAscii c && Text.lowerAscii c ≤ 'f')

/-- A zero in front makes digits octal. -/
def Begins : Radix → List Char → Prop
  | decimal, digits => ∃ c, digits.head? = some c ∧ c ≠ '0'
  | octal, digits => digits.head? = some '0'
  | hexadecimal, digits => digits ≠ []

end Radix

def digitValue (c : Char) : Nat :=
  if Text.isAsciiDigit c then c.toNat - 48 else (Text.lowerAscii c).toNat - 87

def valueOf (base : Nat) (digits : List Char) : Nat :=
  digits.foldl (fun n c => n * base + digitValue c) 0

theorem valueOf_concat (base : Nat) (digits : List Char) (c : Char) :
    valueOf base (digits ++ [c]) = valueOf base digits * base + digitValue c := by
  simp [valueOf]

theorem isAsciiDigit_of_octal {c : Char} (h : Radix.octal.isDigit c = true) :
    Text.isAsciiDigit c = true ∧ digitValue c < 8 := by
  simp only [Radix.isDigit, Bool.and_eq_true, decide_eq_true_eq] at h
  have hDigit : Text.isAsciiDigit c = true := by
    simp only [Text.isAsciiDigit, Bool.and_eq_true, decide_eq_true_eq]
    exact ⟨h.1, Char.le_trans h.2 (by decide)⟩
  have hMost : c.toNat ≤ 55 := h.2
  refine ⟨hDigit, ?_⟩
  rw [digitValue, if_pos hDigit]
  omega

theorem Radix.isBlank_of_isDigit {radix : Radix} {c : Char} (h : radix.isDigit c = true) :
    Text.isBlank c = false := by
  have hBounds : 48 ≤ c.toNat ∧ c.toNat ≤ 102 := by
    have hMost : ∀ {d : Char}, Text.isAsciiDigit d = true → 48 ≤ d.toNat ∧ d.toNat ≤ 102 := by
      intro d hDigit
      simp only [Text.isAsciiDigit, Bool.and_eq_true, decide_eq_true_eq] at hDigit
      have hNine : d.toNat ≤ 57 := hDigit.2
      exact ⟨hDigit.1, by omega⟩
    cases radix with
    | decimal => exact hMost h
    | octal => exact hMost (isAsciiDigit_of_octal h).1
    | hexadecimal =>
      simp only [isDigit, Bool.or_eq_true, Bool.and_eq_true, decide_eq_true_eq] at h
      rcases h with hDigit | ⟨hLeast, hLast⟩
      · exact hMost hDigit
      · unfold Text.lowerAscii at hLeast hLast
        split at hLeast
        · rename_i hCapital
          simp only [Bool.and_eq_true, decide_eq_true_eq] at hCapital
          have hLow : 65 ≤ c.toNat := hCapital.1
          have hHigh : c.toNat ≤ 90 := hCapital.2
          omega
        · rename_i hCapital
          rw [if_neg hCapital] at hLast
          have hLow : 97 ≤ c.toNat := hLeast
          exact ⟨by omega, hLast⟩
  simp only [Text.isBlank, Bool.or_eq_false_iff, Bool.and_eq_false_iff, decide_eq_false_iff_not,
    beq_eq_false_iff_ne]
  omega

theorem valueOf_ten {digits : List Char} (h : ∀ c ∈ digits, Text.isAsciiDigit c = true) :
    valueOf 10 digits = Text.digitsValue digits := by
  induction digits using List.reverseRecOn with
  | nil => rfl
  | append_singleton digits c ih =>
    rw [List.forall_mem_append, List.forall_mem_singleton] at h
    rw [valueOf_concat, ih h.1, digitValue, if_pos h.2]
    simp [Text.digitsValue]

section Octal

variable {digits : List Char} (h : ∀ c ∈ digits, Radix.octal.isDigit c = true)

include h

theorem valueOf_eight_le : valueOf 8 digits ≤ valueOf 10 digits := by
  induction digits using List.reverseRecOn with
  | nil => exact le_rfl
  | append_singleton digits c ih =>
    have hRest := ih (List.forall_mem_append.mp h).1
    rw [valueOf_concat, valueOf_concat]
    omega

/-- Digits that have a value at all have the same number of places in both bases. -/
theorem exists_places : valueOf 10 digits = 0 ∨ ∃ k, 10 ^ k ≤ valueOf 10 digits ∧
    valueOf 10 digits < 10 ^ (k + 1) ∧ 8 ^ k ≤ valueOf 8 digits ∧
      valueOf 8 digits < 8 ^ (k + 1) := by
  induction digits using List.reverseRecOn with
  | nil => exact .inl rfl
  | append_singleton digits c ih =>
    rw [List.forall_mem_append, List.forall_mem_singleton] at h
    have hDigit := (isAsciiDigit_of_octal h.2).2
    rw [valueOf_concat, valueOf_concat]
    rcases ih h.1 with hZero | ⟨k, hLow, hHigh, hEightLow, hEightHigh⟩
    · have hLess := valueOf_eight_le h.1
      rcases Nat.eq_zero_or_pos (digitValue c) with hNone | hSome
      · exact .inl (by omega)
      · exact .inr ⟨0, by omega, by omega, by omega, by omega⟩
    · refine .inr ⟨k + 1, ?_⟩
      simp only [pow_succ _ (k + 1)]
      omega

theorem valueOf_eight_eq_iff : valueOf 8 digits = valueOf 10 digits ↔ valueOf 8 digits < 8 := by
  rcases List.eq_nil_or_concat digits with rfl | ⟨before, c, rfl⟩
  · simp [valueOf]
  · rw [List.concat_eq_append, List.forall_mem_append, List.forall_mem_singleton] at h
    have hDigit := (isAsciiDigit_of_octal h.2).2
    have hLess := valueOf_eight_le h.1
    rw [List.concat_eq_append, valueOf_concat, valueOf_concat]
    constructor
    · intro hSame
      omega
    · intro hSmall
      have hZero : valueOf 8 before = 0 := by omega
      have hNone : valueOf 10 before = 0 := by
        rcases exists_places h.1 with hNone | ⟨k, -, -, hEight, -⟩
        · exact hNone
        · have hPos : 0 < 8 ^ k := by positivity
          omega
      omega

theorem four_mul_valueOf_le (hGreat : 2 ^ 63 ≤ valueOf 10 digits) :
    4 * valueOf 8 digits ≤ valueOf 10 digits := by
  rcases exists_places h with hZero | ⟨k, hLow, hHigh, -, hEight⟩
  · omega
  · obtain ⟨j, rfl⟩ : ∃ j, k = 18 + j := by
      refine ⟨k - 18, ?_⟩
      by_contra hShort
      have hPower : 10 ^ (k + 1) ≤ 10 ^ 18 := Nat.pow_le_pow_right (by omega) (by omega)
      omega
    have hEach : 8 ^ j ≤ 10 ^ j := Nat.pow_le_pow_left (by omega) j
    have hSplit : 8 ^ (18 + j + 1) = 8 ^ 19 * 8 ^ j := by ring
    rw [hSplit] at hEight
    rw [pow_add] at hLow
    omega

end Octal

end Digits

/-- The suffixes of integers: unsigned, long and long long, in either order. -/
def suffixes : List (List Char) :=
  let unsigned := [['u'], ['U']]
  let long := [['l'], ['L'], ['l', 'l'], ['L', 'L']]
  unsigned ++ long ++ (unsigned.flatMap fun u => long.map (u ++ ·)) ++
    long.flatMap fun l => unsigned.map (l ++ ·)

/-- What may stand in front of a literal. -/
def signs : List (List Char) :=
  [[], ['+'], ['-']]

def signed (sign : List Char) (n : Nat) : Int :=
  if sign = ['-'] then -n else n

theorem signed_inj {sign : List Char} {m n : Nat} : signed sign m = signed sign n ↔ m = n := by
  unfold signed
  split_ifs <;> omega

theorem natAbs_signed (sign : List Char) (n : Nat) : (signed sign n).natAbs = n := by
  unfold signed
  split_ifs <;> omega

theorem isBlank_sign : ∀ sign ∈ signs, ∀ c ∈ sign, Text.isBlank c = false := by
  decide

structure IntegerLiteral where
  sign : List Char
  radix : Radix
  lead : List Char
  digits : List Char
  suffix : List Char
  hSign : sign ∈ signs
  hLead : lead ∈ radix.leads
  hDigits : ∀ c ∈ digits, radix.isDigit c = true
  hBegins : radix.Begins digits
  hSuffix : suffix = [] ∨ suffix ∈ suffixes

namespace IntegerLiteral

def spelling (l : IntegerLiteral) : List Char :=
  l.sign ++ (l.lead ++ l.digits ++ l.suffix)

def value (l : IntegerLiteral) : Int :=
  signed l.sign (valueOf l.radix.base l.digits)

variable (l : IntegerLiteral)

theorem digits_ne_nil : l.digits ≠ [] := by
  intro hNil
  have hBegins := l.hBegins
  rw [hNil] at hBegins
  cases hHere : l.radix with
  | decimal =>
    rw [hHere] at hBegins
    obtain ⟨c, hHead, -⟩ := hBegins
    cases hHead
  | octal =>
    rw [hHere] at hBegins
    cases hBegins
  | hexadecimal =>
    rw [hHere] at hBegins
    exact hBegins rfl

section Plain

variable (hRadix : l.radix ≠ .hexadecimal)

include hRadix

theorem isAsciiDigit_of_mem : ∀ c ∈ l.digits, Text.isAsciiDigit c = true := by
  intro c hc
  have hDigit := l.hDigits c hc
  cases hHere : l.radix with
  | decimal => rwa [hHere] at hDigit
  | octal => exact (isAsciiDigit_of_octal (hHere ▸ hDigit)).1
  | hexadecimal => exact absurd hHere hRadix

theorem lead_eq_nil : l.lead = [] := by
  have hLead := l.hLead
  cases hHere : l.radix with
  | hexadecimal => exact absurd hHere hRadix
  | _ =>
    rw [hHere] at hLead
    exact List.mem_singleton.mp hLead

end Plain

theorem value_of_octal (hRadix : l.radix = .octal) :
    l.value = signed l.sign (valueOf 8 l.digits) := by
  rw [value, hRadix]
  rfl

theorem value_of_decimal (hRadix : l.radix = .decimal) :
    l.value = signed l.sign (Text.digitsValue l.digits) := by
  have hPlain : l.radix ≠ .hexadecimal := by
    rw [hRadix]
    decide
  rw [value, hRadix, ← valueOf_ten (l.isAsciiDigit_of_mem hPlain)]
  rfl

theorem isBlank_of_mem : ∀ c ∈ l.spelling, Text.isBlank c = false := by
  have hSuffixes : ∀ suffix ∈ suffixes, ∀ c ∈ suffix, Text.isBlank c = false := by decide
  have hLeads : ∀ lead ∈ l.radix.leads, ∀ c ∈ lead, Text.isBlank c = false := by
    cases l.radix <;> decide
  have hSuffix : ∀ c ∈ l.suffix, Text.isBlank c = false := by
    rcases l.hSuffix with hNone | hSome
    · rw [hNone]
      exact List.forall_mem_nil _
    · exact hSuffixes _ hSome
  simp only [spelling, List.forall_mem_append]
  have hDigits : ∀ c ∈ l.digits, Text.isBlank c = false :=
    fun c hc => Radix.isBlank_of_isDigit (l.hDigits c hc)
  exact ⟨isBlank_sign _ l.hSign, ⟨hLeads _ l.hLead, hDigits⟩, hSuffix⟩

end IntegerLiteral

def simpleEscapes : List (Char × UInt8) :=
  [('\x27', 39), ('"', 34), ('?', 63), ('\\', 92), ('a', 7), ('b', 8), ('f', 12), ('n', 10),
    ('r', 13), ('t', 9), ('v', 11)]

/-- What stands between the marks of a character or string literal. -/
inductive Element where
  | plain (c : Char)
  | simple (c : Char)
  | octal (digits : List Char)
  | hexadecimal (digits : List Char)
  | universal (long : Bool) (digits : List Char)

namespace Element

def spelling : Element → List Char
  | plain c => [c]
  | simple c => ['\\', c]
  | octal digits => '\\' :: digits
  | hexadecimal digits => '\\' :: 'x' :: digits
  | universal long digits => '\\' :: (if long then 'U' else 'u') :: digits

def octets : Element → List UInt8
  | plain c => Text.Utf8.encodeChar c
  | simple c => ((simpleEscapes.find? fun e => e.1 == c).map (·.2)).toList
  | octal digits => [UInt8.ofNat (valueOf 8 digits)]
  | hexadecimal digits => [UInt8.ofNat (valueOf 16 digits)]
  | universal _ digits => Text.Utf8.encodeChar (Char.ofNat (valueOf 16 digits))

def isPlain : Element → Bool
  | plain _ => true
  | _ => false

/-- An element that may stand between two marks. -/
def Valid (mark : Char) : Element → Prop
  | plain c => c ≠ mark ∧ c ≠ '\\' ∧ c ≠ '\n'
  | simple c => c ∈ simpleEscapes.map (·.1)
  | octal digits => digits ≠ [] ∧ digits.length ≤ 3 ∧
      (∀ c ∈ digits, Radix.octal.isDigit c = true) ∧ valueOf 8 digits < 256
  | hexadecimal digits => digits ≠ [] ∧
      (∀ c ∈ digits, Radix.hexadecimal.isDigit c = true) ∧ valueOf 16 digits < 256
  | universal long digits => digits.length = (if long then 8 else 4) ∧
      (∀ c ∈ digits, Radix.hexadecimal.isDigit c = true) ∧ (valueOf 16 digits).isValidChar

/-- Whether an escape would take a character that follows it. -/
def takes : Element → Char → Bool
  | octal digits, c => digits.length < 3 && Radix.octal.isDigit c
  | hexadecimal _, c => Radix.hexadecimal.isDigit c
  | _, _ => false

def EndsBefore (e next : Element) : Prop :=
  ∀ c, next.spelling.head? = some c → e.takes c = false

end Element

def encodings : List (List Char) :=
  [['L'], ['u'], ['U'], ['u', '8']]

/-- A character or string literal, with an optional sign and encoding. -/
structure QuotedLiteral where
  sign : List Char
  encoding : List Char
  mark : Char
  elements : List Element
  hSign : sign ∈ signs
  hEncoding : encoding = [] ∨ encoding ∈ encodings
  hMark : mark = '"' ∨ mark = '\x27' ∧ elements ≠ []
  hElements : ∀ e ∈ elements, e.Valid mark
  hEnds : elements.IsChain Element.EndsBefore

namespace QuotedLiteral

def inner (q : QuotedLiteral) : List Char :=
  q.elements.flatMap (·.spelling)

def spelling (q : QuotedLiteral) : List Char :=
  q.sign ++ (q.encoding ++ q.mark :: q.inner ++ [q.mark])

def octets (q : QuotedLiteral) : List UInt8 :=
  q.elements.flatMap (·.octets)

theorem trim_spelling (q : QuotedLiteral) : Text.trim q.spelling = q.spelling := by
  have hEncodings : ∀ encoding ∈ encodings, ∀ c ∈ encoding, Text.isBlank c = false := by decide
  have hMark : Text.isBlank q.mark = false := by
    rcases q.hMark with hMark | ⟨hMark, -⟩ <;> rw [hMark] <;> decide
  have hBefore : ∀ c ∈ q.sign ++ q.encoding, Text.isBlank c = false := by
    rw [List.forall_mem_append]
    refine ⟨isBlank_sign _ q.hSign, ?_⟩
    rcases q.hEncoding with hNone | hSome
    · rw [hNone]
      exact List.forall_mem_nil _
    · exact hEncodings _ hSome
  have hText : q.spelling = (q.sign ++ q.encoding) ++ q.mark :: (q.inner ++ [q.mark]) := by
    simp [spelling]
  rw [hText, Text.trim_append_cons hMark, Text.trimEnd_append_cons hMark]
  cases hHere : q.sign ++ q.encoding with
  | nil => rfl
  | cons c rest =>
    rw [hHere, List.forall_mem_cons] at hBefore
    rw [Text.trimStart_cons hBefore.1]
    rfl

end QuotedLiteral

section Escapes

open Text.Utf8

theorem encodeChar_length (c : Char) : 1 ≤ (encodeChar c).length ∧ (encodeChar c).length ≤ 4 := by
  unfold encodeChar
  dsimp only
  split_ifs <;> simp

theorem length_le_encode (text : List Char) : text.length ≤ (encode text).length := by
  induction text with
  | nil => exact le_rfl
  | cons c text ih =>
    have hFirst := (encodeChar_length c).1
    rw [encode, List.flatMap_cons, List.length_append, List.length_cons]
    rw [encode] at ih
    omega

theorem encode_append (text more : List Char) :
    encode (text ++ more) = encode text ++ encode more :=
  List.flatMap_append

variable {e : Element} {elements : List Element} {mark : Char}

theorem Element.encode_plain (h : e.isPlain = true) : encode e.spelling = e.octets := by
  cases e with
  | plain c => simp [Element.spelling, Element.octets, encode]
  | _ => cases h

theorem Element.octets_lt (hValid : e.Valid mark) (h : e.isPlain = false) :
    e.octets.length < (encode e.spelling).length := by
  have hLength := length_le_encode e.spelling
  cases e with
  | plain c => cases h
  | simple c =>
    have hOne : (simple c).octets.length ≤ 1 := by
      rw [octets]
      cases (simpleEscapes.find? fun e => e.1 == c).map (·.2) <;> simp
    have hTwo : (simple c).spelling.length = 2 := rfl
    omega
  | octal digits =>
    have hSome : 0 < digits.length := List.length_pos_of_ne_nil hValid.1
    simp only [octets, spelling, List.length_cons, List.length_nil] at hLength ⊢
    omega
  | hexadecimal digits =>
    simp only [octets, spelling, List.length_cons, List.length_nil] at hLength ⊢
    omega
  | universal long digits =>
    have hDigits : 4 ≤ digits.length := by
      rw [hValid.1]
      split <;> omega
    have hMost := (encodeChar_length (Char.ofNat (valueOf 16 digits))).2
    simp only [octets, spelling, List.length_cons] at hLength ⊢
    omega

theorem encode_eq_octets_iff (hValid : ∀ e ∈ elements, e.Valid mark) :
    encode (elements.flatMap (·.spelling)) = elements.flatMap (·.octets) ↔
      ∀ e ∈ elements, e.isPlain = true := by
  have hMost : (elements.flatMap (·.octets)).length ≤
      (encode (elements.flatMap (·.spelling))).length ∧
      ((elements.flatMap (·.octets)).length =
        (encode (elements.flatMap (·.spelling))).length → ∀ e ∈ elements, e.isPlain = true) := by
    induction elements with
    | nil => exact ⟨le_rfl, fun _ => List.forall_mem_nil _⟩
    | cons e elements ih =>
      obtain ⟨hHere, hRest⟩ := List.forall_mem_cons.mp hValid
      obtain ⟨hLess, hSame⟩ := ih hRest
      simp only [List.flatMap_cons, List.length_append, encode_append]
      cases hPlain : e.isPlain with
      | true =>
        rw [← Element.encode_plain hPlain]
        refine ⟨by omega, fun hEq => List.forall_mem_cons.mpr ⟨hPlain, hSame (by omega)⟩⟩
      | false =>
        have hShort := Element.octets_lt hHere hPlain
        refine ⟨by omega, fun hEq => ?_⟩
        omega
  constructor
  · intro hSame
    exact hMost.2 (congrArg List.length hSame).symm
  · intro hPlain
    clear hMost hValid
    induction elements with
    | nil => rfl
    | cons e elements ih =>
      obtain ⟨hHere, hRest⟩ := List.forall_mem_cons.mp hPlain
      rw [List.flatMap_cons, List.flatMap_cons, encode_append, ih hRest, Element.encode_plain hHere]

end Escapes

end NativeBinding.Literal

namespace NativeBinding

inductive Literal where
  | integer (l : Literal.IntegerLiteral)
  | quoted (q : Literal.QuotedLiteral)

def Literal.spelling : Literal → List Char
  | integer l => l.spelling
  | quoted q => q.spelling

theorem Literal.trim_spelling (l : Literal) : Text.trim l.spelling = l.spelling := by
  cases l with
  | integer l => exact Text.trim_of_forall l.isBlank_of_mem
  | quoted q => exact q.trim_spelling

end NativeBinding
