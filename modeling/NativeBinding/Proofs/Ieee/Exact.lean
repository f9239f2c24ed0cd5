import Mathlib.Algebra.Order.Field.Power
import Mathlib.Data.Rat.Cast.Order
import Mathlib.Tactic.LinearCombination
import Mathlib.Tactic.NormNum
import Mathlib.Tactic.Positivity
import Mathlib.Tactic.Ring
import NativeBinding.Ieee.Basic

/-! # Exact rounding

A number that a format has is rounded to itself. The value is taken as a rational, so that a
fraction may be given with any denominator.
-/

set_option autoImplicit false

namespace NativeBinding.Ieee.Format

theorem roundQuotient_mul {k den : Nat} (hDen : 0 < den) : roundQuotient (k * den) den = k := by
  simp only [roundQuotient, Nat.mul_mod_left, Nat.mul_div_cancel k hDen, Nat.mul_zero, if_pos hDen]

theorem zpow_toNat {x : Int} (h : 0 ≤ x) : (2 : ℚ) ^ x = ((2 ^ x.toNat : Nat) : ℚ) := by
  rw [Nat.cast_pow, Nat.cast_ofNat, ← zpow_natCast, Int.toNat_of_nonneg h]

theorem zpow_neg_toNat {x : Int} (h : x < 0) : (2 : ℚ) ^ x * ((2 ^ (-x).toNat : Nat) : ℚ) = 1 := by
  rw [← zpow_toNat (by omega), ← zpow_add₀ (by norm_num), add_neg_cancel, zpow_zero]

theorem inUnits_exact {num den k : Nat} {x : Int} (hDen : 0 < den)
    (h : (num : ℚ) = k * 2 ^ x * den) : inUnits num den x = k := by
  unfold inUnits
  split
  · rename_i hx
    have hNum : num = k * (den * 2 ^ x.toNat) := by
      have hEq : (num : ℚ) = ((k * (den * 2 ^ x.toNat) : Nat) : ℚ) := by
        rw [h, zpow_toNat hx]
        push_cast
        ring
      exact_mod_cast hEq
    rw [hNum, Nat.pow_eq, roundQuotient_mul (by positivity)]
  · rename_i hx
    have hNum : num * 2 ^ (-x).toNat = k * den := by
      have hOne := zpow_neg_toNat (x := x) (by omega)
      have hEq : (num : ℚ) * ((2 ^ (-x).toNat : Nat) : ℚ) = k * den := by
        rw [h]
        linear_combination (k : ℚ) * den * hOne
      exact_mod_cast hEq
    rw [Nat.pow_eq, hNum, roundQuotient_mul hDen]

theorem atLeastPower_iff {num den : Nat} {x : Int} :
    atLeastPower num den x = true ↔ (2 : ℚ) ^ x * den ≤ num := by
  unfold atLeastPower
  split
  · rename_i hx
    rw [decide_eq_true_iff, zpow_toNat hx, Nat.pow_eq, ← Nat.cast_mul, Nat.cast_le, Nat.mul_comm]
  · rename_i hx
    have hOne := zpow_neg_toNat (x := x) (by omega)
    have hPos : (0 : ℚ) < ((2 ^ (-x).toNat : Nat) : ℚ) := by positivity
    have hLeft : (2 : ℚ) ^ x * den * ((2 ^ (-x).toNat : Nat) : ℚ) = den := by
      linear_combination (den : ℚ) * hOne
    rw [decide_eq_true_iff, Nat.pow_eq, ← mul_le_mul_iff_left₀ hPos, hLeft, ← Nat.cast_mul,
      Nat.cast_le]

variable (fmt : Format)

theorem unitExponent_eq {num den : Nat} {t : Int} (hNum : 0 < num) (hDen : 0 < den)
    (hLow : (2 : ℚ) ^ t * den ≤ num) (hHigh : (num : ℚ) < 2 ^ (t + 1) * den) :
    fmt.unitExponent num den = max fmt.minExponent (t - fmt.fractionBits) := by
  have hTwo : (1 : ℚ) < 2 := by norm_num
  have hNumLow : (2 : ℚ) ^ (num.log2 : Int) ≤ num := by
    exact_mod_cast Nat.log2_self_le hNum.ne'
  have hNumHigh : (num : ℚ) < 2 ^ ((num.log2 : Int) + 1) := by
    exact_mod_cast Nat.lt_log2_self (n := num)
  have hDenLow : (2 : ℚ) ^ (den.log2 : Int) ≤ den := by
    exact_mod_cast Nat.log2_self_le hDen.ne'
  have hDenHigh : (den : ℚ) < 2 ^ ((den.log2 : Int) + 1) := by
    exact_mod_cast Nat.lt_log2_self (n := den)
  have hUpper : t + den.log2 < num.log2 + 1 := by
    rw [← zpow_lt_zpow_iff_right₀ hTwo, zpow_add₀ (by norm_num)]
    calc (2 : ℚ) ^ t * 2 ^ (den.log2 : Int) ≤ 2 ^ t * den := by gcongr
      _ < 2 ^ ((num.log2 : Int) + 1) := hLow.trans_lt hNumHigh
  have hLower : (num.log2 : Int) < t + 1 + (den.log2 + 1) := by
    rw [← zpow_lt_zpow_iff_right₀ hTwo, zpow_add₀ (by norm_num) (t + 1)]
    calc (2 : ℚ) ^ (num.log2 : Int) ≤ num := hNumLow
      _ < 2 ^ (t + 1) * den := hHigh
      _ ≤ 2 ^ (t + 1) * 2 ^ ((den.log2 : Int) + 1) := by gcongr
  simp only [unitExponent]
  by_cases hTop : t = num.log2 - den.log2
  · rw [if_pos (atLeastPower_iff.mpr (hTop ▸ hLow)), ← hTop]
  · have hNext : (num.log2 : Int) - den.log2 = t + 1 := by omega
    have hNot : ¬ atLeastPower num den ((num.log2 : Int) - den.log2) = true := by
      rw [atLeastPower_iff, hNext, not_le]
      exact hHigh
    rw [if_neg hNot, hNext, add_sub_cancel_right]

theorem round_exact {num den k : Nat} {t : Int} (hNum : 0 < num) (hDen : 0 < den)
    (hLow : (2 : ℚ) ^ t * den ≤ num) (hHigh : (num : ℚ) < 2 ^ (t + 1) * den)
    (hUnits : (num : ℚ) = k * 2 ^ max fmt.minExponent (t - fmt.fractionBits) * den) :
    fmt.round num den = min fmt.infinity
      ((max fmt.minExponent (t - fmt.fractionBits) - fmt.minExponent).toNat *
        2 ^ fmt.fractionBits + k) := by
  simp only [round, if_neg hNum.ne', unitExponent_eq fmt hNum hDen hLow hHigh,
    inUnits_exact hDen hUnits, Nat.pow_eq]

theorem round_zero (den : Nat) : fmt.round 0 den = 0 := by
  rw [round, if_pos rfl]

/-- The mantissa has one bit more than the fraction, except at the least exponent. -/
theorem unpack_spec {magnitude mantissa : Nat} {exponent : Int}
    (h : fmt.unpack magnitude = (mantissa, exponent)) :
    fmt.minExponent ≤ exponent ∧ mantissa < 2 ^ (fmt.fractionBits + 1) ∧
      (exponent = fmt.minExponent ∨ 2 ^ fmt.fractionBits ≤ mantissa) ∧
      magnitude = (exponent - fmt.minExponent).toNat * 2 ^ fmt.fractionBits + mantissa := by
  have hPos : 0 < 2 ^ fmt.fractionBits := by positivity
  have hMod := Nat.mod_lt magnitude hPos
  have hDiv := Nat.div_add_mod' magnitude (2 ^ fmt.fractionBits)
  simp only [unpack, Nat.pow_eq] at h
  rw [pow_succ]
  split at h <;> obtain ⟨rfl, rfl⟩ := Prod.mk.inj h
  · rename_i hField
    rw [hField, Nat.zero_mul, Nat.zero_add] at hDiv
    exact ⟨le_rfl, by omega, Or.inl rfl, by rw [sub_self]; simpa using hDiv.symm⟩
  · rename_i hField
    refine ⟨by omega, by omega, Or.inr (Nat.le_add_left _ _), ?_⟩
    rw [add_sub_cancel_left, Int.toNat_natCast, Nat.sub_mul]
    have hOne : 1 * 2 ^ fmt.fractionBits ≤
        magnitude / 2 ^ fmt.fractionBits * 2 ^ fmt.fractionBits :=
      Nat.mul_le_mul_right _ (Nat.pos_of_ne_zero hField)
    omega

theorem unpack_normal {k mantissa : Nat} (hLow : 2 ^ fmt.fractionBits ≤ mantissa)
    (hHigh : mantissa < 2 ^ (fmt.fractionBits + 1)) :
    fmt.unpack (k * 2 ^ fmt.fractionBits + mantissa) = (mantissa, fmt.minExponent + k) := by
  have hPos : 0 < 2 ^ fmt.fractionBits := by positivity
  rw [pow_succ] at hHigh
  obtain ⟨fraction, rfl⟩ := Nat.exists_eq_add_of_le hLow
  have hDiv : (k * 2 ^ fmt.fractionBits + (2 ^ fmt.fractionBits + fraction)) /
      2 ^ fmt.fractionBits = k + 1 := by
    rw [← Nat.add_assoc, ← Nat.succ_mul, Nat.add_comm, Nat.add_mul_div_right _ _ hPos,
      Nat.div_eq_of_lt (by omega), Nat.zero_add]
  have hMod : (k * 2 ^ fmt.fractionBits + (2 ^ fmt.fractionBits + fraction)) %
      2 ^ fmt.fractionBits = fraction := by
    rw [← Nat.add_assoc, ← Nat.succ_mul, Nat.add_comm, Nat.add_mul_mod_self_right,
      Nat.mod_eq_of_lt (by omega)]
  simp only [unpack, Nat.pow_eq, hDiv, hMod, if_neg (Nat.succ_ne_zero k), Nat.add_sub_cancel,
    Nat.add_comm fraction]

theorem value_bounds {num den mantissa : Nat} {exponent : Int} (hMantissa : 0 < mantissa)
    (hValue : (num : ℚ) = mantissa * 2 ^ exponent * den) :
    (2 : ℚ) ^ ((mantissa.log2 : Int) + exponent) * den ≤ num ∧
      (0 < den → (num : ℚ) < 2 ^ ((mantissa.log2 : Int) + exponent + 1) * den) := by
  have hLow : (2 : ℚ) ^ (mantissa.log2 : Int) ≤ mantissa := by
    exact_mod_cast Nat.log2_self_le hMantissa.ne'
  have hHigh : (mantissa : ℚ) < 2 ^ ((mantissa.log2 : Int) + 1) := by
    exact_mod_cast Nat.lt_log2_self (n := mantissa)
  rw [hValue, add_right_comm, zpow_add₀ two_ne_zero, zpow_add₀ two_ne_zero _ exponent]
  refine ⟨by gcongr, fun hDen => ?_⟩
  have hDen : (0 : ℚ) < den := by exact_mod_cast hDen
  gcongr

theorem round_unpack {magnitude num den mantissa : Nat} {exponent : Int}
    (hFinite : magnitude < fmt.infinity) (hUnpack : fmt.unpack magnitude = (mantissa, exponent))
    (hDen : 0 < den) (hValue : (num : ℚ) = mantissa * 2 ^ exponent * den) :
    fmt.round num den = magnitude := by
  obtain ⟨hMin, hMax, hNormal, hMagnitude⟩ := fmt.unpack_spec hUnpack
  rcases Nat.eq_zero_or_pos mantissa with rfl | hPos
  · have hExponent : exponent = fmt.minExponent := by
      rcases hNormal with hNormal | hNormal
      · exact hNormal
      · exact absurd hNormal (Nat.not_le.mpr (by positivity))
    have hNum : num = 0 := by simpa using hValue
    rw [hNum, round_zero, hMagnitude, hExponent, sub_self]
    simp
  · obtain ⟨hLow, hHigh⟩ := value_bounds hPos hValue
    have hUnit : max fmt.minExponent ((mantissa.log2 : Int) + exponent - fmt.fractionBits) =
        exponent := by
      have hLog : mantissa.log2 < fmt.fractionBits + 1 := (Nat.log2_lt hPos.ne').mpr hMax
      rcases hNormal with hNormal | hNormal
      · omega
      · have hFull : fmt.fractionBits ≤ mantissa.log2 := (Nat.le_log2 hPos.ne').mpr hNormal
        omega
    have hNum : 0 < num := by
      have hDen' : (0 : ℚ) < den := by exact_mod_cast hDen
      have hPos' : (0 : ℚ) < mantissa := by exact_mod_cast hPos
      have hNum' : (0 : ℚ) < num := by rw [hValue]; positivity
      exact_mod_cast hNum'
    rw [fmt.round_exact hNum hDen hLow (hHigh hDen) (k := mantissa) (by rw [hUnit]; exact hValue),
      hUnit, ← hMagnitude]
    exact Nat.min_eq_right hFinite.le

end NativeBinding.Ieee.Format
