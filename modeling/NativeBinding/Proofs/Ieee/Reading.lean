import NativeBinding.Ieee.Reader
import NativeBinding.Proofs.Ieee.Shortest

/-! # Written numbers are read back

The text of a finite number is a spelling: digits, at times a fraction, at times an exponent. A
spelling is read as the value that its digits stand for, and that value is rounded to the number.
-/

set_option autoImplicit false

namespace NativeBinding

namespace Text

theorem takeWhile_run {p : Char → Bool} {run rest : List Char} (h : ∀ c ∈ run, p c = true)
    (hRest : ∀ c ∈ rest.head?, p c = false) :
    (run ++ rest).takeWhile p = run ∧ (run ++ rest).dropWhile p = rest := by
  rw [List.takeWhile_append_of_pos h, List.dropWhile_append_of_pos h]
  cases rest with
  | nil => simp
  | cons c rest =>
    have hc := hRest c rfl
    simp [hc]

theorem digits?_naturalChars (n : Nat) : digits? (naturalChars n) = some n := by
  have hNonempty : naturalChars n ≠ [] := by
    simpa [naturalChars] using decimalDigits_ne_nil n
  have hAll : (naturalChars n).all isAsciiDigit = true := by
    simp only [naturalChars, List.all_map, List.all_eq_true, Function.comp_apply]
    exact fun d hd => isAsciiDigit_digitChar (lt_ten_of_mem_decimalDigits hd)
  simp [digits?, hNonempty, hAll, digitsValue_naturalChars]

end Text

namespace Ieee

open Text

theorem splitSign_of_digit {c : Char} {rest : List Char} (h : isAsciiDigit c = true) :
    splitSign (c :: rest) = (false, c :: rest) := by
  have hMinus : c ≠ '-' := by rintro rfl; revert h; decide
  have hPlus : c ≠ '+' := by rintro rfl; revert h; decide
  unfold splitSign
  split <;> simp_all

theorem exists_naturalChars (n : Nat) :
    ∃ c rest, naturalChars n = c :: rest ∧ isAsciiDigit c = true := by
  obtain ⟨d, rest, hDigits⟩ := List.exists_cons_of_ne_nil (decimalDigits_ne_nil n)
  have hd : d < 10 := lt_ten_of_mem_decimalDigits (hDigits ▸ List.mem_cons_self)
  exact ⟨digitChar d, rest.map digitChar, by rw [naturalChars, hDigits, List.map_cons],
    isAsciiDigit_digitChar hd⟩

theorem integer?_integerChars (n : Int) : integer? (integerChars n) = some n := by
  by_cases hNegative : n < 0
  · simp only [integerChars, hNegative, if_true, integer?, splitSign, digits?_naturalChars]
    exact congrArg some (by dsimp only; omega)
  · obtain ⟨c, rest, hChars, hDigit⟩ := exists_naturalChars n.natAbs
    have hSplit : splitSign (naturalChars n.natAbs) = (false, naturalChars n.natAbs) := by
      rw [hChars]
      exact splitSign_of_digit hDigit
    simp only [integerChars, hNegative, if_false, integer?, hSplit, digits?_naturalChars]
    exact congrArg some (by simp only [Bool.false_eq_true, if_false]; omega)

theorem mem_integerChars {n : Int} {c : Char} (h : c ∈ integerChars n) :
    isAsciiDigit c = true ∨ c = '-' := by
  have hNatural (m : Nat) (hMem : c ∈ naturalChars m) : isAsciiDigit c = true := by
    obtain ⟨d, hd, rfl⟩ := List.mem_map.mp hMem
    exact isAsciiDigit_digitChar (lt_ten_of_mem_decimalDigits hd)
  unfold integerChars at h
  split at h
  · exact (List.mem_cons.mp h).symm.imp_left (hNatural _)
  · exact Or.inl (hNatural _ h)

theorem integer?_plus {n : Int} (h : 0 ≤ n) : integer? ('+' :: integerChars n) = some n := by
  simp only [integerChars, not_lt.mpr h, if_false, integer?, splitSign, digits?_naturalChars]
  exact congrArg some (by simp only [Bool.false_eq_true, if_false]; omega)

/-- The parts in which a number without a sign is written. -/
structure Spelling where
  whole : List Nat
  fraction : Option (List Nat)
  power : Option Int

namespace Spelling

variable (s : Spelling)

def digits : List Nat :=
  s.whole ++ s.fraction.getD []

def exponent : Int :=
  s.power.getD 0 - (s.fraction.getD []).length

def fractionChars : Option (List Nat) → List Char
  | none => []
  | some fraction => '.' :: fraction.map digitChar

def powerChars (plus : Bool) : Option Int → List Char
  | none => []
  | some power => 'e' :: (if plus && 0 ≤ power then ['+'] else []) ++ integerChars power

def chars (plus : Bool) : List Char :=
  s.whole.map digitChar ++ fractionChars s.fraction ++ powerChars plus s.power

/-- Something stands before the point, and every digit is one. -/
structure Valid : Prop where
  leading : s.whole ≠ []
  digits : ∀ d ∈ s.digits, d < 10

/-- A spelling that cannot be one of a whole number. -/
def Marked : Prop :=
  s.fraction.isSome ∨ s.power.isSome

variable {s}

theorem takeWhile_digits {ds : List Nat} {rest : List Char} (h : ∀ d ∈ ds, d < 10)
    (hRest : ∀ c ∈ rest.head?, isAsciiDigit c = false) :
    (ds.map digitChar ++ rest).takeWhile isAsciiDigit = ds.map digitChar ∧
      (ds.map digitChar ++ rest).dropWhile isAsciiDigit = rest := by
  have hDigits : ∀ c ∈ ds.map digitChar, isAsciiDigit c = true := by
    simp only [List.mem_map, forall_exists_index, and_imp, forall_apply_eq_imp_iff₂]
    exact fun d hd => isAsciiDigit_digitChar (h d hd)
  exact takeWhile_run hDigits hRest

theorem head_powerChars (plus : Bool) (power : Option Int) :
    ∀ c ∈ (powerChars plus power).head?, isAsciiDigit c = false := by
  cases power with
  | none => simp [powerChars]
  | some power =>
    simp only [powerChars, List.cons_append, List.head?_cons, Option.mem_def, Option.some.injEq,
      forall_eq']
    decide

theorem exponent?_powerChars (plus : Bool) (power : Option Int) :
    exponent? (powerChars plus power) = some (power.getD 0) := by
  cases power with
  | none => rfl
  | some power =>
    by_cases hPlus : plus = true ∧ 0 ≤ power
    · simp [powerChars, exponent?, hPlus.1, hPlus.2, integer?_plus]
    · have hSign : (plus && decide (0 ≤ power)) = false := by simpa using hPlus
      simp [powerChars, exponent?, hSign, integer?_integerChars]

theorem decimal?_chars (h : s.Valid) (plus : Bool) :
    decimal? (s.chars plus) = some (digitsNat s.digits, s.exponent) := by
  have hWhole : ∀ d ∈ s.whole, d < 10 := fun d hd => h.digits d (List.mem_append_left _ hd)
  have hLeading := h.leading
  have hAll := digitsValue_map_digitChar h.digits
  obtain ⟨whole, fraction, power⟩ := s
  rw [digits, List.map_append] at hAll
  cases fraction with
  | none =>
    obtain ⟨hTaken, hLeft⟩ := takeWhile_digits hWhole (head_powerChars plus power)
    have hSplit : splitFraction (powerChars plus power) = ([], powerChars plus power) := by
      cases power <;> rfl
    simp_all [decimal?, chars, fractionChars, digits, exponent, exponent?_powerChars]
  | some fraction =>
    have hFraction : ∀ d ∈ fraction, d < 10 := fun d hd =>
      h.digits d (List.mem_append_right _ hd)
    have hPoint : ∀ c ∈ ('.' :: (fraction.map digitChar ++ powerChars plus power)).head?,
        isAsciiDigit c = false := by
      simp only [List.head?_cons, Option.mem_def, Option.some.injEq, forall_eq']
      decide
    obtain ⟨hTaken, hLeft⟩ := takeWhile_digits hWhole hPoint
    obtain ⟨hPlaces, hRest⟩ := takeWhile_digits hFraction (head_powerChars plus power)
    simp_all [decimal?, chars, fractionChars, splitFraction, digits, exponent, exponent?_powerChars]

def value (s : Spelling) : ℚ :=
  digitsNat s.digits * 10 ^ s.exponent

theorem value_eq {digits : List Nat} {zeros : Nat} {point : Int}
    (hDigits : s.digits = digits ++ List.replicate zeros 0)
    (hExponent : s.exponent = point - s.digits.length) :
    s.value = (Decimal.mk digits point).value := by
  rw [← value_append_zeros digits zeros, ← hDigits, value, hExponent, Decimal.value]

def isMark (c : Char) : Bool :=
  isAsciiDigit c || c == '.' || c == 'e' || c == '+' || c == '-'

theorem isMark_of_mem_integerChars {n : Int} {c : Char} (h : c ∈ integerChars n) :
    isMark c = true := by
  rcases mem_integerChars h with hDigit | rfl
  · simp [isMark, hDigit]
  · decide

theorem isMark_of_mem_chars (h : s.Valid) {plus : Bool} {c : Char} (hMem : c ∈ s.chars plus) :
    isMark c = true := by
  have hDigit {ds : List Nat} (hds : ∀ d ∈ ds, d < 10) (hc : c ∈ ds.map digitChar) :
      isMark c = true := by
    obtain ⟨d, hd, rfl⟩ := List.mem_map.mp hc
    simp [isMark, isAsciiDigit_digitChar (hds d hd)]
  have hDigits := h.digits
  obtain ⟨whole, fraction, power⟩ := s
  rw [chars, List.append_assoc] at hMem
  rcases List.mem_append.mp hMem with hWhole | hRest
  · exact hDigit (fun d hd => hDigits d (List.mem_append_left _ hd)) hWhole
  rcases List.mem_append.mp hRest with hFraction | hPower
  · match fraction with
    | some fraction =>
      rcases List.mem_cons.mp hFraction with rfl | hc
      · decide
      · exact hDigit (fun d hd => hDigits d (List.mem_append_right _ hd)) hc
  · match power with
    | some power =>
      simp only [powerChars, List.cons_append, List.mem_cons, List.mem_append] at hPower
      rcases hPower with rfl | hSign | hInteger
      · decide
      · split at hSign
        · rw [List.mem_singleton.mp hSign]
          decide
        · cases hSign
      · exact isMark_of_mem_integerChars hInteger

theorem exists_mark (h : s.Marked) (plus : Bool) : '.' ∈ s.chars plus ∨ 'e' ∈ s.chars plus := by
  obtain ⟨whole, fraction, power⟩ := s
  rcases h with hFraction | hPower
  · obtain ⟨fraction, rfl⟩ := Option.isSome_iff_exists.mp hFraction
    exact Or.inl (by simp [chars, fractionChars])
  · obtain ⟨power, rfl⟩ := Option.isSome_iff_exists.mp hPower
    exact Or.inr (by simp [chars, powerChars])

end Spelling

section Spelled

variable {d : Decimal}

theorem map_zeros (count : Nat) :
    (List.replicate count 0).map digitChar = List.replicate count '0' :=
  List.map_replicate

theorem lt_ten_of_mem_append_zeros {digits : List Nat} (h : ∀ digit ∈ digits, digit < 10)
    {zeros : Nat} : ∀ digit ∈ digits ++ List.replicate zeros 0, digit < 10 := by
  intro digit hMem
  rcases List.mem_append.mp hMem with hDigit | hZero
  · exact h digit hDigit
  · rw [List.eq_of_mem_replicate hZero]
    omega

def Spelling.ofSmall (d : Decimal) : Spelling :=
  ⟨[0], some (List.replicate (-d.point).toNat 0 ++ d.digits), none⟩

def Spelling.ofWhole (keepsFraction : Bool) (d : Decimal) : Spelling :=
  ⟨d.digits ++ List.replicate (d.point.toNat - d.digits.length) 0,
    if keepsFraction then some [0] else none, none⟩

def Spelling.ofMixed (d : Decimal) : Spelling :=
  ⟨d.digits.take d.point.toNat, some (d.digits.drop d.point.toNat), none⟩

theorem Spelling.ofSmall_valid (hDigits : ∀ digit ∈ d.digits, digit < 10) :
    (ofSmall d).Valid := by
  refine ⟨by simp [ofSmall], fun digit hMem => ?_⟩
  simp only [ofSmall, digits, Option.getD_some, List.mem_append, List.mem_singleton,
    List.mem_replicate] at hMem
  rcases hMem with hZero | ⟨-, hZero⟩ | hDigit
  · omega
  · omega
  · exact hDigits digit hDigit

theorem Spelling.ofSmall_value (hPoint : d.point ≤ 0) : (ofSmall d).value = d.value := by
  have hLeading : [0] ++ (List.replicate (-d.point).toNat 0 ++ d.digits) =
      List.replicate ((-d.point).toNat + 1) 0 ++ d.digits := by
    rfl
  simp only [ofSmall, value, digits, exponent, Option.getD_some, Option.getD_none, hLeading,
    digitsNat_append, digitsNat_zeros, Decimal.value, List.length_append, List.length_replicate,
    Nat.zero_mul, Nat.zero_add]
  congr 2
  omega

theorem Spelling.digits_ofWhole (keepsFraction : Bool) :
    (ofWhole keepsFraction d).digits = d.digits ++ List.replicate
      (d.point.toNat - d.digits.length + if keepsFraction then 1 else 0) 0 := by
  cases keepsFraction
  · exact List.append_nil _
  · simp only [ofWhole, digits, if_true, Option.getD_some, List.replicate_add, List.append_assoc]
    rfl

theorem Spelling.ofWhole_valid (keepsFraction : Bool)
    (hDigits : ∀ digit ∈ d.digits, digit < 10) (hNonempty : d.digits ≠ []) :
    (ofWhole keepsFraction d).Valid :=
  ⟨by simp [ofWhole, hNonempty], digits_ofWhole keepsFraction ▸ lt_ten_of_mem_append_zeros hDigits⟩

theorem Spelling.ofWhole_value (keepsFraction : Bool) (hPoint : 0 < d.point)
    (hCount : d.digits.length ≤ d.point.toNat) :
    (ofWhole keepsFraction d).value = d.value := by
  refine value_eq (digits_ofWhole keepsFraction) ?_
  rw [digits_ofWhole]
  cases keepsFraction <;> simp [ofWhole, exponent] <;> omega

theorem Spelling.ofMixed_valid (hDigits : ∀ digit ∈ d.digits, digit < 10) (hPoint : 0 < d.point)
    (hCount : d.point.toNat < d.digits.length) : (ofMixed d).Valid where
  leading := by
    rw [ofMixed, List.ne_nil_iff_length_pos, List.length_take]
    omega
  digits := by
    simpa only [ofMixed, digits, Option.getD_some, List.take_append_drop] using hDigits

theorem Spelling.ofMixed_value (hPoint : 0 < d.point) (hCount : d.point.toNat < d.digits.length) :
    (ofMixed d).value = d.value := by
  simp only [ofMixed, value, digits, exponent, Option.getD_some, Option.getD_none,
    List.take_append_drop, Decimal.value, List.length_drop]
  congr 2
  omega

theorem plainText_spelled (keepsFraction plus : Bool) (hDigits : ∀ digit ∈ d.digits, digit < 10)
    (hNonempty : d.digits ≠ []) :
    ∃ s : Spelling, plainText keepsFraction d = s.chars plus ∧ s.Valid ∧ s.value = d.value ∧
      (keepsFraction = true → s.Marked) := by
  unfold plainText
  simp only [List.length_map]
  split
  · rename_i hPoint
    refine ⟨Spelling.ofSmall d, ?_, Spelling.ofSmall_valid hDigits, Spelling.ofSmall_value hPoint,
      fun _ => Or.inl rfl⟩
    simp only [Spelling.ofSmall, Spelling.chars, Spelling.fractionChars, Spelling.powerChars,
      List.map_append, map_zeros, List.append_nil]
    rfl
  · rename_i hPoint
    rw [not_le] at hPoint
    split
    · rename_i hCount
      refine ⟨Spelling.ofWhole keepsFraction d, ?_,
        Spelling.ofWhole_valid keepsFraction hDigits hNonempty,
        Spelling.ofWhole_value keepsFraction hPoint hCount,
        fun hKeeps => Or.inl (by simp [Spelling.ofWhole, hKeeps])⟩
      cases keepsFraction <;>
        simp [Spelling.ofWhole, Spelling.chars, Spelling.fractionChars, Spelling.powerChars,
          digitChar]
    · rename_i hCount
      rw [not_le] at hCount
      refine ⟨Spelling.ofMixed d, ?_, Spelling.ofMixed_valid hDigits hPoint hCount,
        Spelling.ofMixed_value hPoint hCount, fun _ => Or.inl rfl⟩
      simp only [Spelling.ofMixed, Spelling.chars, Spelling.fractionChars, Spelling.powerChars,
        List.map_take, List.map_drop, List.append_nil]

theorem scientificText_spelled (plus : Bool) (hDigits : ∀ digit ∈ d.digits, digit < 10)
    (hNonempty : d.digits ≠ []) :
    ∃ s : Spelling, scientificText plus d = s.chars plus ∧ s.Valid ∧ s.value = d.value ∧
      s.Marked := by
  obtain ⟨digits, point⟩ := d
  match digits, hNonempty with
  | [digit], _ =>
    refine ⟨⟨[digit], none, some (point - 1)⟩, ?_,
      ⟨by simp, by simpa [Spelling.digits] using hDigits⟩, ?_, Or.inr rfl⟩
    · simp [scientificText, Spelling.chars, Spelling.fractionChars, Spelling.powerChars]
    · simp [Spelling.value, Spelling.digits, Spelling.exponent, Decimal.value]
  | first :: second :: rest, _ =>
    refine ⟨⟨[first], some (second :: rest), some (point - 1)⟩, ?_,
      ⟨by simp, by simpa [Spelling.digits] using hDigits⟩, ?_, Or.inr rfl⟩
    · simp [scientificText, Spelling.chars, Spelling.fractionChars, Spelling.powerChars]
    · simp only [Spelling.value, Spelling.digits, Spelling.exponent, Decimal.value,
        Option.getD_some, List.singleton_append, List.length_cons]
      congr 2
      push_cast
      ring

end Spelled

theorem two_zpow_lt_ten_zpow : (2 : ℚ) ^ (1100 : Int) < 10 ^ (400 : Int) := by
  calc (2 : ℚ) ^ (1100 : Int) < 2 ^ (3 * 400 : Int) := zpow_lt_zpow_right₀ one_lt_two (by decide)
    _ = 8 ^ (400 : Int) := by
      rw [zpow_mul]
      norm_num
    _ ≤ 10 ^ (400 : Int) := zpow_le_zpow_left₀ (by decide) (by norm_num) (by norm_num)

theorem ofDecimal_of_denotes {d : Decimal} {magnitude n : Nat} {exponent : Int}
    (h : d.Denotes magnitude) (hValue : (n * 10 ^ exponent : ℚ) = d.value) (negative : Bool) :
    Binary64.ofDecimal negative n exponent = Binary64.signed negative magnitude := by
  have hLeast := hValue ▸ h.atLeast
  have hMost := hValue ▸ h.atMost
  have hn : 0 < n := by
    rcases Nat.eq_zero_or_pos n with rfl | hn
    · rw [Nat.cast_zero, zero_mul] at hLeast
      exact absurd hLeast (not_le.mpr (zpow_pos two_pos _))
    · exact hn
  have hTen : (0 : ℚ) < 10 ^ exponent := zpow_pos (by norm_num) _
  have hBelow : (n * 10 ^ exponent : ℚ) < 10 ^ (exponent + (decimalDigits n).length) := by
    rw [zpow_add₀ (by norm_num), mul_comm, zpow_natCast]
    refine mul_lt_mul_of_pos_left ?_ hTen
    exact_mod_cast lt_pow_length_decimalDigits hn
  have hAbove : (10 : ℚ) ^ (exponent + (decimalDigits n).length - 1) ≤ n * 10 ^ exponent := by
    have hPlaces : (10 : ℚ) ^ (decimalDigits n).length ≤ 10 * n := by
      exact_mod_cast pow_length_decimalDigits_le hn
    rw [zpow_sub_one₀ (by norm_num), zpow_add₀ (by norm_num), zpow_natCast]
    linarith [mul_le_mul_of_nonneg_left hPlaces hTen.le]
  have hNotAbove : ¬ 400 < exponent + (decimalDigits n).length := by
    intro hGreat
    have hPower : (10 : ℚ) ^ (400 : Int) ≤ 10 ^ (exponent + (decimalDigits n).length - 1) :=
      zpow_le_zpow_right₀ (by norm_num) (by omega)
    exact absurd (hPower.trans (hAbove.trans hMost)) (not_le.mpr two_zpow_lt_ten_zpow)
  have hNotBelow : ¬ exponent + (decimalDigits n).length < -400 := by
    intro hSmall
    have hPower : (10 : ℚ) ^ (exponent + (decimalDigits n).length) ≤ 10 ^ (-400 : Int) :=
      zpow_le_zpow_right₀ (by norm_num) (by omega)
    have hInverse : (10 : ℚ) ^ (-400 : Int) < 2 ^ (-1100 : Int) := by
      rw [zpow_neg, zpow_neg]
      exact inv_strictAnti₀ (zpow_pos two_pos _) two_zpow_lt_ten_zpow
    exact absurd (hLeast.trans (hBelow.le.trans hPower)) (not_le.mpr hInverse)
  simp only [Binary64.ofDecimal, hn.ne', if_false, hNotAbove, hNotBelow, Nat.pow_eq]
  split
  · rename_i hExponent
    refine congrArg (Binary64.signed negative) (h.rounds _ 1 one_pos ?_)
    rw [← hValue, ten_zpow_toNat hExponent]
    push_cast
    ring
  · rename_i hExponent
    refine congrArg (Binary64.signed negative) (h.rounds n _ (by positivity) ?_)
    rw [← hValue, mul_assoc, ten_zpow_neg_toNat (by omega), mul_one]

theorem magnitudeText_spelled (style : Style) {magnitude : Nat}
    (hFinite : magnitude < Format.double.infinity) :
    ∃ s : Spelling, magnitudeText Format.double style magnitude = s.chars style.signsExponent ∧
      s.Valid ∧ (style.keepsFraction = true → s.Marked) ∧
      ∀ negative, Binary64.ofDecimal negative (digitsNat s.digits) s.exponent =
        Binary64.signed negative magnitude := by
  unfold magnitudeText
  split
  · rename_i hZero
    subst hZero
    refine ⟨⟨[0], if style.keepsFraction then some [0] else none, none⟩, ?_, ⟨by simp, ?_⟩,
      fun hKeeps => Or.inl (by simp [hKeeps]), fun negative => ?_⟩
    · cases style.keepsFraction <;>
        simp [Spelling.chars, Spelling.fractionChars, Spelling.powerChars, digitChar]
    · cases style.keepsFraction <;> simp [Spelling.digits]
    · cases style.keepsFraction <;> rfl
  · rename_i hPos
    have hDenotes := Format.denotes_shortest (Nat.pos_of_ne_zero hPos) hFinite style.tie
    have hNonempty : (Format.double.shortest style.tie magnitude).digits ≠ [] := by
      intro hNil
      have hPositive := hDenotes.positive
      rw [hNil] at hPositive
      exact absurd hPositive (by decide)
    simp only
    split
    · obtain ⟨s, hText, hValid, hValue, hMarked⟩ := plainText_spelled style.keepsFraction
        style.signsExponent hDenotes.digits hNonempty
      exact ⟨s, hText, hValid, hMarked, ofDecimal_of_denotes hDenotes hValue⟩
    · obtain ⟨s, hText, hValid, hValue, hMarked⟩ := scientificText_spelled style.signsExponent
        hDenotes.digits hNonempty
      exact ⟨s, hText, hValid, fun _ => hMarked, ofDecimal_of_denotes hDenotes hValue⟩

namespace Binary64

theorem render_spelled {x : Binary64} (h : x.isFinite = true) (style : Style) :
    ∃ s : Spelling, (x.render style).toList = (if x.isNegative
        then '-' :: s.chars style.signsExponent else s.chars style.signsExponent) ∧
      s.Valid ∧ (style.keepsFraction = true → s.Marked) ∧
      ∀ negative, ofDecimal negative (digitsNat s.digits) s.exponent =
        signed negative x.magnitude := by
  have hFinite : x.magnitude < Format.double.infinity := of_decide_eq_true h
  have hNan : x.isNan = false := decide_eq_false (by omega)
  have hInfinite : x.isInfinite = false := decide_eq_false (by omega)
  obtain ⟨s, hText, hSpelling⟩ := magnitudeText_spelled style hFinite
  refine ⟨s, ?_, hSpelling⟩
  simp only [render, hNan, hInfinite, Bool.false_eq_true, if_false, String.toList_ofList, hText]

theorem parse?_digits {c : Char} {rest : List Char} (h : isAsciiDigit c = true) (negative : Bool) :
    parse? (if negative then '-' :: c :: rest else c :: rest) =
      (decimal? (c :: rest)).map fun d => ofDecimal negative d.1 d.2 := by
  have hSplit : splitSign (if negative then '-' :: c :: rest else c :: rest) =
      (negative, c :: rest) := by
    cases negative
    · exact splitSign_of_digit h
    · rfl
  have hLower : lowerAscii c = c := by
    simp only [isAsciiDigit, Bool.and_eq_true, decide_eq_true_eq] at h
    have hCapital : ¬ 'A' ≤ c := fun hLetter =>
      absurd (Char.le_trans hLetter h.2) (by decide)
    simp [lowerAscii, hCapital]
  have hWord (word : String) {w : Char} (hFirst : word.toList.head? = some w)
      (hw : isAsciiDigit w = false) : String.ofList ((c :: rest).map lowerAscii) ≠ word := by
    rintro rfl
    rw [String.toList_ofList, List.map_cons, hLower] at hFirst
    cases hFirst
    exact absurd h (by simp [hw])
  rw [parse?, hSplit]
  simp only
  split
  · rename_i hInf
    exact absurd hInf (hWord "inf" rfl rfl)
  · rename_i hInfinity
    exact absurd hInfinity (hWord "infinity" rfl rfl)
  · rename_i hNan
    exact absurd hNan (hWord "nan" rfl rfl)
  · rfl

/-- A finite number is read back from its text. -/
theorem parse?_render {x : Binary64} (h : x.isFinite = true) (style : Style) :
    parse? (x.render style).toList = some x := by
  obtain ⟨s, hText, hValid, -, hValue⟩ := render_spelled h style
  obtain ⟨d, whole, hWhole⟩ := List.exists_cons_of_ne_nil hValid.leading
  have hd : d < 10 := hValid.digits d (List.mem_append_left _ (hWhole ▸ List.mem_cons_self))
  have hRead := Spelling.decimal?_chars hValid style.signsExponent
  obtain ⟨rest, hChars⟩ : ∃ rest, s.chars style.signsExponent = digitChar d :: rest := by
    rw [Spelling.chars, hWhole]
    exact ⟨_, rfl⟩
  rw [hChars] at hText hRead
  rw [hText, parse?_digits (isAsciiDigit_digitChar hd), hRead, Option.map_some, hValue,
    signed_self]

end Binary64

end Ieee

end NativeBinding
