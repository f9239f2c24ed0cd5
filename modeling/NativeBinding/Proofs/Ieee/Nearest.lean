import Mathlib.Algebra.Order.Archimedean.Basic
import Mathlib.Tactic.Linarith
import NativeBinding.Proofs.Ieee.Exact

/-! # Rounding to the nearest number

Every value within half a unit of a number is rounded to it; just below a power of two, where the
units are smaller, within a quarter of the unit above. The ends count when the mantissa is even.
-/

set_option autoImplicit false

namespace NativeBinding.Ieee.Format

theorem roundQuotient_near {num den k : Nat} (hDen : 0 < den)
    (hLow : 2 * (k * den) ≤ 2 * num + den) (hHigh : 2 * num ≤ 2 * (k * den) + den)
    (hOdd : k % 2 = 1 → 2 * (k * den) < 2 * num + den ∧ 2 * num < 2 * (k * den) + den) :
    roundQuotient num den = k := by
  have hRest := Nat.mod_lt num hDen
  have hNum := Nat.div_add_mod' num den
  simp only [roundQuotient]
  generalize num / den = q at hNum ⊢
  generalize num % den = r at hNum hRest ⊢
  have hSucc : (q + 1) * den = q * den + den := Nat.succ_mul q den
  have hNear : k = q ∨ k = q + 1 := by
    have hUpper : k < q + 2 := by
      by_contra hNot
      have := Nat.mul_le_mul_right den (Nat.not_lt.mp hNot)
      rw [Nat.add_mul] at this
      omega
    have hLower : q < k + 1 := by
      by_contra hNot
      have := Nat.mul_le_mul_right den (Nat.not_lt.mp hNot)
      rw [Nat.succ_mul] at this
      omega
    omega
  rcases hNear with rfl | rfl
  · split_ifs <;> omega
  · rw [hSucc] at hLow hHigh hOdd
    split_ifs <;> omega

theorem inUnits_eq (num den : Nat) (x : Int) : ∃ (n d : Nat) (c : ℚ), 0 < c ∧ n = num * c ∧
    d = 2 ^ x * den * c ∧ inUnits num den x = roundQuotient n d := by
  unfold inUnits
  split
  · rename_i hx
    refine ⟨num, den * 2 ^ x.toNat, 1, one_pos, (mul_one _).symm, ?_, rfl⟩
    rw [zpow_toNat hx]
    push_cast
    ring
  · rename_i hx
    refine ⟨num * 2 ^ (-x).toNat, den, ((2 ^ (-x).toNat : Nat) : ℚ), by positivity,
      by push_cast; ring, ?_, rfl⟩
    linear_combination -(den : ℚ) * zpow_neg_toNat (x := x) (by omega)

theorem inUnits_near {num den k : Nat} {x : Int} (hDen : 0 < den)
    (hLow : (2 * k - 1) * (2 ^ x * den) ≤ (2 * num : ℚ))
    (hHigh : (2 * num : ℚ) ≤ (2 * k + 1) * (2 ^ x * den))
    (hOdd : k % 2 = 1 → (2 * k - 1) * (2 ^ x * den) < (2 * num : ℚ) ∧
      (2 * num : ℚ) < (2 * k + 1) * (2 ^ x * den)) :
    inUnits num den x = k := by
  obtain ⟨n, d, c, hc, hn, hd, hEq⟩ := inUnits_eq num den x
  have hDen' : (0 : ℚ) < den := by exact_mod_cast hDen
  have hd' : (0 : ℚ) < d := by rw [hd]; positivity
  rw [hEq]
  refine roundQuotient_near (by exact_mod_cast hd') ?_ ?_ fun hk => ?_
  · have h : (2 * (k * d) : ℚ) ≤ 2 * n + d := by
      have := mul_le_mul_of_nonneg_right hLow hc.le
      rw [hd, hn]
      linarith
    exact_mod_cast h
  · have h : (2 * n : ℚ) ≤ 2 * (k * d) + d := by
      have := mul_le_mul_of_nonneg_right hHigh hc.le
      rw [hd, hn]
      linarith
    exact_mod_cast h
  · constructor
    · have h : (2 * (k * d) : ℚ) < 2 * n + d := by
        have := mul_lt_mul_of_pos_right (hOdd hk).1 hc
        rw [hd, hn]
        linarith
      exact_mod_cast h
    · have h : (2 * n : ℚ) < 2 * (k * d) + d := by
        have := mul_lt_mul_of_pos_right (hOdd hk).2 hc
        rw [hd, hn]
        linarith
      exact_mod_cast h

variable (fmt : Format)

/-- How far below a number, in quarters of its unit, a value may be that is rounded to it. -/
def quartersBelow (mantissa : Nat) (exponent : Int) : Nat :=
  if mantissa = 2 ^ fmt.fractionBits ∧ fmt.minExponent < exponent then 1 else 2

/-- A value that is rounded to a number with this mantissa and exponent. -/
structure Near (mantissa : Nat) (exponent : Int) (num den : Nat) : Prop where
  low : (4 * mantissa - fmt.quartersBelow mantissa exponent) * (2 ^ exponent * den) ≤ (4 * num : ℚ)
  high : (4 * num : ℚ) ≤ (4 * mantissa + 2) * (2 ^ exponent * den)
  inside : mantissa % 2 = 1 →
    (4 * mantissa - fmt.quartersBelow mantissa exponent) * (2 ^ exponent * den) < (4 * num : ℚ) ∧
      (4 * num : ℚ) < (4 * mantissa + 2) * (2 ^ exponent * den)

variable {fmt}

theorem round_of_unit {num den k : Nat} {t : Int} (hNum : 0 < num) (hDen : 0 < den)
    (hLow : (2 : ℚ) ^ t * den ≤ num) (hHigh : (num : ℚ) < 2 ^ (t + 1) * den) {x : Int}
    (hUnit : max fmt.minExponent (t - fmt.fractionBits) = x) (hk : inUnits num den x = k) :
    fmt.round num den =
      min fmt.infinity ((x - fmt.minExponent).toNat * 2 ^ fmt.fractionBits + k) := by
  simp only [round, if_neg hNum.ne', unitExponent_eq fmt hNum hDen hLow hHigh, hUnit, hk,
    Nat.pow_eq]

theorem exists_power {num den : Nat} (hNum : 0 < num) (hDen : 0 < den) :
    ∃ t : Int, (2 : ℚ) ^ t * den ≤ num ∧ (num : ℚ) < 2 ^ (t + 1) * den := by
  have hNum' : (0 : ℚ) < num := by exact_mod_cast hNum
  have hDen' : (0 : ℚ) < den := by exact_mod_cast hDen
  obtain ⟨t, hLow, hHigh⟩ := exists_mem_Ico_zpow (div_pos hNum' hDen') one_lt_two
  exact ⟨t, (le_div_iff₀ hDen').mp hLow, (div_lt_iff₀ hDen').mp hHigh⟩

theorem quartersBelow_le (mantissa : Nat) (exponent : Int) :
    fmt.quartersBelow mantissa exponent ≤ 2 := by
  unfold quartersBelow
  split <;> omega

section Near

variable {mantissa num den : Nat} {exponent : Int} (h : fmt.Near mantissa exponent num den)
  (hDen : 0 < den)

include h hDen

theorem Near.low_half : (4 * mantissa - 2) * (2 ^ exponent * den) ≤ (4 * num : ℚ) := by
  have hUnit : (0 : ℚ) ≤ 2 ^ exponent * den := by positivity
  have hBelow : (fmt.quartersBelow mantissa exponent : ℚ) ≤ 2 := by
    exact_mod_cast quartersBelow_le mantissa exponent
  linarith [h.low, mul_le_mul_of_nonneg_right hBelow hUnit]

theorem Near.inUnits : inUnits num den exponent = mantissa := by
  have hUnit : (0 : ℚ) ≤ 2 ^ exponent * den := by positivity
  have hBelow : (fmt.quartersBelow mantissa exponent : ℚ) ≤ 2 := by
    exact_mod_cast quartersBelow_le mantissa exponent
  have hHalf := mul_le_mul_of_nonneg_right hBelow hUnit
  refine inUnits_near hDen ?_ ?_ fun hOdd => ⟨?_, ?_⟩
  · linarith [h.low]
  · linarith [h.high]
  · linarith [(h.inside hOdd).1]
  · linarith [(h.inside hOdd).2]

theorem Near.pos (hPos : 0 < mantissa) : 0 < num := by
  have hDen' : (0 : ℚ) < den := by exact_mod_cast hDen
  have hUnit : (0 : ℚ) < 2 ^ exponent * den := by positivity
  have hPos' : (1 : ℚ) ≤ mantissa := by exact_mod_cast hPos
  have hNum : (0 : ℚ) < num := by
    linarith [h.low_half hDen, mul_le_mul_of_nonneg_right hPos' hUnit.le]
  exact_mod_cast hNum

theorem Near.lt_next (hMax : mantissa < 2 ^ (fmt.fractionBits + 1)) :
    (num : ℚ) < 2 ^ (exponent + fmt.fractionBits + 1) * den := by
  have hDen' : (0 : ℚ) < den := by exact_mod_cast hDen
  have hUnit : (0 : ℚ) < 2 ^ exponent * den := by positivity
  have hMax' : (mantissa : ℚ) + 1 ≤ 2 ^ (fmt.fractionBits + 1) := by exact_mod_cast hMax
  calc (num : ℚ) < (mantissa + 1) * (2 ^ exponent * den) := by linarith [h.high]
    _ ≤ 2 ^ (fmt.fractionBits + 1) * (2 ^ exponent * den) := by gcongr
    _ = 2 ^ (exponent + fmt.fractionBits + 1) * den := by
      rw [zpow_add_one₀ two_ne_zero, zpow_add₀ two_ne_zero, zpow_natCast]
      ring

/-- A value below a power of two, in the half as large units that there are. -/
theorem Near.below_power (hMin : fmt.minExponent < exponent)
    (hFull : 2 ^ fmt.fractionBits ≤ mantissa)
    (hBelow : (num : ℚ) < 2 ^ (exponent + fmt.fractionBits) * den) :
    mantissa = 2 ^ fmt.fractionBits ∧
      (2 : ℚ) ^ (exponent - 1 + fmt.fractionBits) * den ≤ num ∧
      Format.inUnits num den (exponent - 1) = 2 * mantissa := by
  have hDen' : (0 : ℚ) < den := by exact_mod_cast hDen
  have hUnit : (0 : ℚ) < 2 ^ exponent * den := by positivity
  have hPower : (2 : ℚ) ^ (exponent + fmt.fractionBits) * den =
      2 ^ fmt.fractionBits * (2 ^ exponent * den) := by
    rw [zpow_add₀ two_ne_zero, zpow_natCast]
    ring
  have hMantissa : mantissa = 2 ^ fmt.fractionBits := by
    refine le_antisymm ?_ hFull
    by_contra hNot
    have hMore : (2 ^ fmt.fractionBits + 1 : ℚ) ≤ mantissa := by
      exact_mod_cast (not_le.mp hNot)
    linarith [h.low_half hDen, mul_le_mul_of_nonneg_right hMore hUnit.le]
  have hQuarter : fmt.quartersBelow mantissa exponent = 1 := if_pos ⟨hMantissa, hMin⟩
  have hLow := h.low
  rw [hQuarter, hMantissa] at hLow
  push_cast at hLow
  have hHalf : (2 : ℚ) ^ (exponent - 1) * den = 2 ^ exponent * den / 2 := by
    rw [zpow_sub_one₀ two_ne_zero]
    ring
  have hOne : (1 : ℚ) ≤ 2 ^ fmt.fractionBits := one_le_pow₀ one_le_two
  refine ⟨hMantissa, ?_, inUnits_near hDen ?_ ?_ fun hOdd => absurd hOdd (by omega)⟩
  · calc (2 : ℚ) ^ (exponent - 1 + fmt.fractionBits) * den =
        2 ^ fmt.fractionBits * (2 ^ exponent * den / 2) := by
          rw [zpow_add₀ two_ne_zero, zpow_natCast, mul_right_comm, hHalf]
          ring
      _ ≤ num := by linarith [mul_le_mul_of_nonneg_right hOne hUnit.le]
  · rw [hHalf, hMantissa]
    push_cast
    linarith
  · rw [hHalf, hMantissa]
    push_cast
    linarith

end Near

theorem round_near {magnitude num den mantissa : Nat} {exponent : Int}
    (hFinite : magnitude < fmt.infinity) (hUnpack : fmt.unpack magnitude = (mantissa, exponent))
    (hPos : 0 < mantissa) (hDen : 0 < den) (h : fmt.Near mantissa exponent num den) :
    fmt.round num den = magnitude := by
  obtain ⟨hMin, hMax, hNormal, hMagnitude⟩ := fmt.unpack_spec hUnpack
  have hNum := h.pos hDen hPos
  have hNext := h.lt_next hDen hMax
  have hWhole : min fmt.infinity
      ((exponent - fmt.minExponent).toNat * 2 ^ fmt.fractionBits + mantissa) = magnitude := by
    rw [← hMagnitude]
    exact Nat.min_eq_right hFinite.le
  by_cases hAbove : (2 : ℚ) ^ (exponent + fmt.fractionBits) * den ≤ num
  · rw [round_of_unit hNum hDen hAbove hNext (by omega) (h.inUnits hDen), hWhole]
  · rw [not_le] at hAbove
    rcases hMin.eq_or_lt with hLeast | hMore
    · obtain ⟨t, hAt, hAfter⟩ := exists_power hNum hDen
      have hLess : t < exponent + fmt.fractionBits := by
        have hDen' : (0 : ℚ) < den := by exact_mod_cast hDen
        have hPowers := hAt.trans_lt hAbove
        rwa [mul_lt_mul_iff_left₀ hDen', zpow_lt_zpow_iff_right₀ one_lt_two] at hPowers
      rw [round_of_unit hNum hDen hAt hAfter (by omega) (h.inUnits hDen), hWhole]
    · obtain ⟨hMantissa, hAt, hUnits⟩ := h.below_power hDen hMore (hNormal.resolve_left hMore.ne')
        hAbove
      have hAfter : (num : ℚ) < 2 ^ (exponent - 1 + fmt.fractionBits + 1) * den := by
        rwa [sub_add_eq_add_sub, sub_add_cancel]
      have hStep : (exponent - fmt.minExponent).toNat =
          (exponent - 1 - fmt.minExponent).toNat + 1 := by omega
      have hSum : (exponent - 1 - fmt.minExponent).toNat * 2 ^ fmt.fractionBits + 2 * mantissa =
          (exponent - fmt.minExponent).toNat * 2 ^ fmt.fractionBits + mantissa := by
        rw [hStep, ← hMantissa]
        ring
      rw [round_of_unit hNum hDen hAt hAfter (x := exponent - 1) (by omega) hUnits, hSum, hWhole]

end NativeBinding.Ieee.Format
