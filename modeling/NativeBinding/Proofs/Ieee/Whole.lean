import NativeBinding.Proofs.Ieee.Reading

/-! # Whole numbers in double precision

A whole number is rounded to a magnitude between those of the powers of two around it, and to itself
if there is a double that equals it.
-/

set_option autoImplicit false

namespace NativeBinding.Ieee

namespace Format

theorem roundQuotient_bounds {num den low high : Nat} (hLow : low * den ≤ num)
    (hHigh : num ≤ high * den) (hDen : 0 < den) :
    low ≤ roundQuotient num den ∧ roundQuotient num den ≤ high := by
  have hRest := Nat.mod_lt num hDen
  have hNum := Nat.div_add_mod' num den
  have hLeast : low ≤ num / den := (Nat.le_div_iff_mul_le hDen).mpr hLow
  have hMost : num / den ≤ high := (Nat.div_le_iff_le_mul hDen).mpr (by omega)
  -- At the upper end nothing is left over, so the quotient is not rounded up.
  have hTop : num / den = high → num % den = 0 := by
    intro hEq
    rw [hEq] at hNum
    omega
  simp only [roundQuotient]
  split_ifs <;> omega

theorem inUnits_bounds {num low high : Nat} {x : Int} (hLow : (low * 2 ^ x : ℚ) ≤ num)
    (hHigh : (num : ℚ) ≤ high * 2 ^ x) : low ≤ inUnits num 1 x ∧ inUnits num 1 x ≤ high := by
  obtain ⟨n, d, c, hc, hn, hd, hEq⟩ := inUnits_eq num 1 x
  rw [Nat.cast_one, mul_one] at hd
  have hd' : (0 : ℚ) < d := by rw [hd]; positivity
  rw [hEq]
  refine roundQuotient_bounds ?_ ?_ (by exact_mod_cast hd')
  · have h : (low * d : ℚ) ≤ n := by
      rw [hd, hn, ← mul_assoc]
      exact mul_le_mul_of_nonneg_right hLow hc.le
    exact_mod_cast h
  · have h : (n : ℚ) ≤ high * d := by
      rw [hd, hn, ← mul_assoc]
      exact mul_le_mul_of_nonneg_right hHigh hc.le
    exact_mod_cast h

theorem natCast_two_pow (count : Nat) : ((2 ^ count : Nat) : ℚ) = 2 ^ (count : Int) := by
  rw [Nat.cast_pow, Nat.cast_ofNat, zpow_natCast]

/-- The magnitude of a power of two, when it is finite. -/
def powerMagnitude (s : Nat) : Nat :=
  (s + 1023) * 2 ^ 52

variable {n s : Nat}

theorem round_between (hLow : 2 ^ s ≤ n) (hHigh : n < 2 ^ (s + 1)) :
    min double.infinity (powerMagnitude s) ≤ double.round n 1 ∧
      double.round n 1 ≤ powerMagnitude (s + 1) := by
  have hPos : 0 < n := Nat.lt_of_lt_of_le (by positivity) hLow
  have hLow' : (2 : ℚ) ^ (s : Int) ≤ n := by exact_mod_cast hLow
  have hHigh' : (n : ℚ) < 2 ^ ((s : Int) + 1) := by exact_mod_cast hHigh
  have hUnit : max double.minExponent ((s : Int) - double.fractionBits) = s - 52 := by
    rw [double_minExponent]
    change max (-1074) ((s : Int) - 52) = _
    omega
  have hUnits : 2 ^ 52 ≤ inUnits n 1 (s - 52) ∧ inUnits n 1 (s - 52) ≤ 2 ^ 53 := by
    refine inUnits_bounds ?_ ?_
    · rw [natCast_two_pow, ← zpow_add₀ two_ne_zero, Nat.cast_ofNat, add_sub_cancel]
      exact hLow'
    · have hSum : ((53 : Nat) : Int) + ((s : Int) - 52) = s + 1 := by omega
      rw [natCast_two_pow, ← zpow_add₀ two_ne_zero, hSum]
      exact hHigh'.le
  rw [round_of_unit hPos one_pos (by simpa using hLow') (by simpa using hHigh') hUnit rfl,
    double_minExponent]
  have hSteps : ((s : Int) - 52 - -1074).toNat = s + 1022 := by omega
  have hBits : double.fractionBits = 52 := rfl
  rw [hSteps, hBits, powerMagnitude, powerMagnitude]
  omega

theorem exists_power_around (hPos : 0 < n) : ∃ s, 2 ^ s ≤ n ∧ n < 2 ^ (s + 1) :=
  ⟨n.log2, Nat.log2_self_le hPos.ne', Nat.lt_log2_self⟩

theorem round_lt_round {k : Nat} (hFour : 4 * k ≤ n) (hPos : 0 < k)
    (hFinite : double.round n 1 < double.infinity) : double.round k 1 < double.round n 1 := by
  obtain ⟨s, hLow, hHigh⟩ := exists_power_around hPos
  obtain ⟨t, hLow', hHigh'⟩ := exists_power_around (n := n) (by omega)
  have hLess : s + 1 < t := by
    have hPower : 2 ^ (s + 2) < 2 ^ (t + 1) := by
      calc 2 ^ (s + 2) = 4 * 2 ^ s := by ring
        _ ≤ 4 * k := Nat.mul_le_mul_left 4 hLow
        _ < 2 ^ (t + 1) := Nat.lt_of_le_of_lt hFour hHigh'
    have := (Nat.pow_lt_pow_iff_right (by omega)).mp hPower
    omega
  have hBelow := (round_between hLow hHigh).2
  have hAbove := (round_between hLow' hHigh').1
  rw [powerMagnitude] at hBelow hAbove
  have hStep : (s + 1 + 1023) * 2 ^ 52 < (t + 1023) * 2 ^ 52 :=
    Nat.mul_lt_mul_of_pos_right (by omega) (by positivity)
  omega

theorem length_le_of_round_finite (hPos : 0 < n) (hFinite : double.round n 1 < double.infinity) :
    (Text.decimalDigits n).length ≤ 400 := by
  obtain ⟨s, hLow, hHigh⟩ := exists_power_around hPos
  have hAbove := (round_between hLow hHigh).1
  rw [powerMagnitude, double_infinity] at *
  have hSmall : s < 1024 := by omega
  by_contra hLong
  obtain ⟨k, hk⟩ : ∃ k, (Text.decimalDigits n).length = k + 1 :=
    ⟨(Text.decimalDigits n).length - 1, by omega⟩
  have hLeast : 10 ^ k ≤ n := by
    have hDigits := Text.pow_length_decimalDigits_le hPos
    rw [hk, Nat.pow_succ, Nat.mul_comm] at hDigits
    exact Nat.le_of_mul_le_mul_left hDigits (by omega)
  have hMost : n < 10 ^ k := by
    calc n < 2 ^ (s + 1) := hHigh
      _ ≤ 2 ^ (3 * k) := Nat.pow_le_pow_right (by omega) (by omega)
      _ = 8 ^ k := by rw [Nat.pow_mul]
      _ ≤ 10 ^ k := Nat.pow_le_pow_left (by omega) k
  exact absurd hMost (Nat.not_lt.mpr hLeast)

end Format

namespace Binary64

/-- A finite number that is whole and equals an integer. -/
structure Equals (x : Binary64) (n : Int) : Prop where
  finite : x.isFinite = true
  numerator : x.toFraction.numerator = n.natAbs * x.toFraction.denominator
  sign : n ≠ 0 → (x.toFraction.negative = true ↔ n < 0)

def nearest (n : Int) : Binary64 :=
  ofDecimal (n < 0) n.natAbs 0

variable {x : Binary64} {n : Int} {digits : Nat} {negative : Bool}

theorem magnitude_of_equals (h : x.Equals n) (hn : n ≠ 0) :
    x.magnitude = Format.double.round n.natAbs 1 := by
  have hPos : 0 < n.natAbs := Int.natAbs_pos.mpr hn
  have hFinite : x.magnitude < Format.double.infinity := of_decide_eq_true h.finite
  obtain ⟨⟨mantissa, exponent⟩, hUnpack⟩ : ∃ p, Format.double.unpack x.magnitude = p := ⟨_, rfl⟩
  obtain ⟨-, hDen, hValue⟩ := toFraction_spec hUnpack
  have hDen' : (x.toFraction.denominator : ℚ) ≠ 0 := by exact_mod_cast hDen.ne'
  have hEq : (n.natAbs : ℚ) = mantissa * 2 ^ exponent := by
    have hProduct : (n.natAbs : ℚ) * x.toFraction.denominator =
        mantissa * 2 ^ exponent * x.toFraction.denominator := by
      rw [← hValue, h.numerator]
      push_cast
      rfl
    exact mul_right_cancel₀ hDen' hProduct
  have hMantissa : 0 < mantissa := by
    rcases Nat.eq_zero_or_pos mantissa with rfl | hSome
    · rw [Nat.cast_zero, zero_mul] at hEq
      have : n.natAbs = 0 := by exact_mod_cast hEq
      omega
    · exact hSome
  have hUnit : (0 : ℚ) < 2 ^ exponent := by positivity
  refine (Format.round_near hFinite hUnpack hMantissa one_pos ?_).symm
  have hBelow : (0 : ℚ) < Format.double.quartersBelow mantissa exponent := by
    have : 0 < Format.double.quartersBelow mantissa exponent := by
      unfold Format.quartersBelow
      split <;> omega
    exact_mod_cast this
  have hLess := mul_pos hBelow hUnit
  constructor
  · rw [hEq, Nat.cast_one]
    linarith
  · rw [hEq, Nat.cast_one]
    linarith
  · rw [hEq, Nat.cast_one]
    exact fun _ => ⟨by linarith, by linarith⟩

theorem ofDecimal_whole (hDigits : digits ≠ 0)
    (hLength : (Text.decimalDigits digits).length ≤ 400) :
    ofDecimal negative digits 0 = signed negative (Format.double.round digits 1) := by
  have hTop : ¬ 400 < (0 : Int) + (Text.decimalDigits digits).length := by omega
  have hLow : ¬ (0 : Int) + (Text.decimalDigits digits).length < -400 := by omega
  simp only [ofDecimal, hDigits, if_false, hTop, hLow]
  simp [ofFraction]

theorem round_lt {num den : Nat} : Format.double.round num den < 2 ^ 63 := by
  have hTop : Format.double.round num den ≤ Format.double.infinity := by
    rw [Format.round]
    split
    · exact Nat.zero_le _
    · exact Nat.min_le_left _ _
  rw [Format.double_infinity] at hTop
  omega

theorem magnitude_ofDecimal (hDigits : digits ≠ 0)
    (hFinite : (ofDecimal negative digits 0).isFinite = true) :
    (ofDecimal negative digits 0).magnitude = Format.double.round digits 1 := by
  by_cases hLength : (Text.decimalDigits digits).length ≤ 400
  · rw [ofDecimal_whole hDigits hLength, magnitude_signed round_lt]
  · have hTop : (400 : Int) < 0 + (Text.decimalDigits digits).length := by omega
    have hInfinite : ofDecimal negative digits 0 = infinity negative := by
      simp only [ofDecimal, hDigits, if_false, hTop, if_true]
    have hBound : Format.double.infinity < 2 ^ 63 := by decide
    rw [hInfinite, isFinite, infinity, magnitude_signed hBound] at hFinite
    simp at hFinite

theorem eq_nearest_of_equals (h : x.Equals n) (hn : n ≠ 0) : x = nearest n := by
  have hPos : 0 < n.natAbs := Int.natAbs_pos.mpr hn
  have hMagnitude := magnitude_of_equals h hn
  have hFinite : Format.double.round n.natAbs 1 < Format.double.infinity :=
    hMagnitude ▸ of_decide_eq_true h.finite
  have hNegative : x.isNegative = decide (n < 0) := by
    have hSign := h.sign hn
    rw [Bool.eq_iff_iff, decide_eq_true_iff, ← hSign]
    have hSame : x.toFraction.negative = x.isNegative := (toFraction_spec rfl).1
    rw [hSame]
  rw [nearest, ofDecimal_whole hPos.ne' (Format.length_le_of_round_finite hPos hFinite),
    ← hMagnitude, ← hNegative, signed_self]

theorem ne_nearest_of_four (hFour : 4 * n.natAbs ≤ digits) (hn : n ≠ 0)
    (hFinite : (ofDecimal negative digits 0).isFinite = true) :
    ofDecimal negative digits 0 ≠ nearest n ∧ ¬ (ofDecimal negative digits 0).Equals n := by
  have hPos : 0 < n.natAbs := Int.natAbs_pos.mpr hn
  have hDigits : digits ≠ 0 := by omega
  have hMagnitude := magnitude_ofDecimal hDigits hFinite
  have hLess := Format.round_lt_round hFour hPos
    (hMagnitude ▸ of_decide_eq_true hFinite)
  have hNearest : ofDecimal negative digits 0 ≠ nearest n := by
    intro hSame
    rw [hSame] at hMagnitude hFinite
    rw [nearest] at hMagnitude hFinite
    rw [magnitude_ofDecimal hPos.ne' hFinite] at hMagnitude
    omega
  exact ⟨hNearest, fun hEquals => hNearest (eq_nearest_of_equals hEquals hn)⟩

end Binary64

end NativeBinding.Ieee
