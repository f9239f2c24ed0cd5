import Mathlib.Data.List.TakeWhile
import NativeBinding.Ieee.Shortest
import NativeBinding.Proofs.Ieee.Nearest
import NativeBinding.Proofs.Ieee.Widening
import NativeBinding.Proofs.Text.Numeral

/-! # Shortest digits round back

The digits that are found for a number stand for a value that is rounded to it. Eighteen digits are
always enough, so the search ends with digits that do.
-/

set_option autoImplicit false

namespace NativeBinding.Ieee

theorem ten_zpow_toNat {x : Int} (h : 0 ≤ x) : (10 : ℚ) ^ x = ((10 ^ x.toNat : Nat) : ℚ) := by
  rw [Nat.cast_pow, Nat.cast_ofNat, ← zpow_natCast, Int.toNat_of_nonneg h]

theorem ten_zpow_neg_toNat {x : Int} (h : x < 0) :
    (10 : ℚ) ^ x * ((10 ^ (-x).toNat : Nat) : ℚ) = 1 := by
  rw [← ten_zpow_toNat (by omega), ← zpow_add₀ (by norm_num), add_neg_cancel, zpow_zero]

/-- Powers of ten and of two compared by their exponents, with the ratio of the logarithms between
two fractions. -/
theorem ten_zpow_le_two_zpow {k j : Int} (hUp : 0 ≤ k → 196 * k ≤ 59 * j)
    (hDown : k < 0 → 93 * k ≤ 28 * j) : (10 : ℚ) ^ k ≤ 2 ^ j := by
  rcases le_or_gt 0 k with hk | hk
  · rw [← pow_le_pow_iff_left₀ (by positivity) (by positivity) (show (59 : Nat) ≠ 0 by omega)]
    calc ((10 : ℚ) ^ k) ^ 59 = (10 ^ 59) ^ k := by
          rw [← zpow_natCast, ← zpow_mul, mul_comm, zpow_mul]
          norm_num
      _ ≤ (2 ^ 196) ^ k := zpow_le_zpow_left₀ hk (by positivity) (by norm_num)
      _ = 2 ^ (196 * k) := by
          rw [zpow_mul]
          norm_num
      _ ≤ 2 ^ (59 * j) := zpow_le_zpow_right₀ one_le_two (hUp hk)
      _ = (2 ^ j) ^ 59 := by
          rw [← zpow_natCast (2 ^ j) 59, ← zpow_mul, mul_comm]
          norm_num
  · rw [← pow_le_pow_iff_left₀ (by positivity) (by positivity) (show (28 : Nat) ≠ 0 by omega)]
    calc ((10 : ℚ) ^ k) ^ 28 = (10 ^ 28) ^ k := by
          rw [← zpow_natCast, ← zpow_mul, mul_comm, zpow_mul]
          norm_num
      _ = ((10 ^ 28) ^ (-k))⁻¹ := by rw [← zpow_neg, neg_neg]
      _ ≤ ((2 ^ 93) ^ (-k))⁻¹ := inv_anti₀ (by positivity)
          (zpow_le_zpow_left₀ (by omega) (by positivity) (by norm_num))
      _ = (2 ^ 93) ^ k := by rw [← zpow_neg, neg_neg]
      _ = 2 ^ (93 * k) := by
          rw [zpow_mul]
          norm_num
      _ ≤ 2 ^ (28 * j) := zpow_le_zpow_right₀ one_le_two (hDown hk)
      _ = (2 ^ j) ^ 28 := by
          rw [← zpow_natCast (2 ^ j) 28, ← zpow_mul, mul_comm]
          norm_num

namespace Shortest

section Target

variable {fmt : Format} {magnitude mantissa : Nat} {exponent : Int}

/-- What a target is made of: the value, and what is rounded to it, over one denominator. -/
structure Target.Spans (t : Target) (fmt : Format) (mantissa : Nat) (exponent : Int) : Prop where
  positive : 0 < t.denominator
  value : (t.value : ℚ) = mantissa * 2 ^ exponent * t.denominator
  low : (4 * t.low : ℚ) =
    (4 * mantissa - fmt.quartersBelow mantissa exponent) * (2 ^ exponent * t.denominator)
  high : (4 * t.high : ℚ) = (4 * mantissa + 2) * (2 ^ exponent * t.denominator)
  closed : t.closed = decide (mantissa % 2 = 0)

theorem spans_target (hUnpack : fmt.unpack magnitude = (mantissa, exponent)) (hPos : 0 < mantissa) :
    (target fmt magnitude).Spans fmt mantissa exponent := by
  have hBelow : fmt.quartersBelow mantissa exponent ≤ 4 * mantissa :=
    (Format.quartersBelow_le mantissa exponent).trans (by omega)
  have hQuarters : (if mantissa = Nat.pow 2 fmt.fractionBits ∧ fmt.minExponent < exponent then 1
      else 2) = fmt.quartersBelow mantissa exponent := rfl
  simp only [target, hUnpack, hQuarters]
  rcases le_or_gt 0 exponent with hExponent | hExponent
  · simp only [hExponent, if_true]
    refine ⟨by norm_num, ?_, ?_, ?_, rfl⟩
    all_goals
      rw [Format.zpow_toNat hExponent, Nat.pow_eq]
      push_cast [hBelow]
      ring
  · have hOne := Format.zpow_neg_toNat hExponent
    simp only [not_le.mpr hExponent, if_false, Nat.pow_eq]
    refine ⟨by positivity, ?_, ?_, ?_, rfl⟩
    · push_cast at hOne ⊢
      linear_combination -(4 * mantissa : ℚ) * hOne
    · push_cast [hBelow] at hOne ⊢
      linear_combination -4 * (4 * mantissa - fmt.quartersBelow mantissa exponent : ℚ) * hOne
    · push_cast at hOne ⊢
      linear_combination -4 * (4 * mantissa + 2 : ℚ) * hOne

variable {t : Target}

theorem Target.admits_iff {count : Nat} {x : Int} :
    t.admits count x = true ↔
      if t.closed then (t.low : ℚ) ≤ count * 10 ^ x * t.denominator ∧
        (count * 10 ^ x * t.denominator : ℚ) ≤ t.high
      else (t.low : ℚ) < count * 10 ^ x * t.denominator ∧
        (count * 10 ^ x * t.denominator : ℚ) < t.high := by
  -- Both sides of each comparison are multiplied by the same power of ten.
  obtain ⟨lhs, unit, hUnit, hLeft, hAdmits⟩ : ∃ lhs unit : Nat, (0 : ℚ) < unit ∧
      (lhs : ℚ) = count * 10 ^ x * t.denominator * unit ∧
      t.admits count x = if t.closed then t.low * unit ≤ lhs && lhs ≤ t.high * unit
        else t.low * unit < lhs && lhs < t.high * unit := by
    unfold admits
    rcases le_or_gt 0 x with hx | hx
    · refine ⟨count * 10 ^ x.toNat * t.denominator, 1, by norm_num, ?_, by simp [hx]⟩
      rw [ten_zpow_toNat hx]
      push_cast
      ring
    · refine ⟨count * t.denominator, 10 ^ (-x).toNat, by positivity, ?_, by
        simp [not_le.mpr hx]⟩
      push_cast
      have hOne := ten_zpow_neg_toNat hx
      push_cast at hOne
      linear_combination -(count * t.denominator : ℚ) * hOne
  have hLe (a b : Nat) : (a * unit ≤ b ↔ (a * unit : ℚ) ≤ b) := by exact_mod_cast Iff.rfl
  have hLt (a b : Nat) : (a * unit < b ↔ (a * unit : ℚ) < b) := by exact_mod_cast Iff.rfl
  have hLe' (a b : Nat) : (b ≤ a * unit ↔ (b : ℚ) ≤ a * unit) := by exact_mod_cast Iff.rfl
  have hLt' (a b : Nat) : (b < a * unit ↔ (b : ℚ) < a * unit) := by exact_mod_cast Iff.rfl
  rw [hAdmits]
  split <;>
    simp only [Bool.and_eq_true, decide_eq_true_eq, hLe, hLt, hLe', hLt', hLeft,
      mul_le_mul_iff_left₀ hUnit, mul_lt_mul_iff_left₀ hUnit]

theorem Target.between_of_admits {count : Nat} {x : Int} (h : t.admits count x = true) :
    (t.low : ℚ) ≤ count * 10 ^ x * t.denominator ∧
      (count * 10 ^ x * t.denominator : ℚ) ≤ t.high := by
  rw [Target.admits_iff] at h
  split at h
  · exact h
  · exact ⟨h.1.le, h.2.le⟩

theorem Target.Spans.near {count num den : Nat} {x : Int} (h : t.Spans fmt mantissa exponent)
    (hAdmits : t.admits count x = true) (hDen : 0 < den)
    (hValue : (num : ℚ) = count * 10 ^ x * den) : fmt.Near mantissa exponent num den := by
  have hPos : (0 : ℚ) < t.denominator := by exact_mod_cast h.positive
  have hDen' : (0 : ℚ) < den := by exact_mod_cast hDen
  have hLow : (4 * mantissa - fmt.quartersBelow mantissa exponent) * (2 ^ exponent * den) =
      (4 * t.low * den / t.denominator : ℚ) := by
    rw [h.low]
    field_simp
  have hHigh : (4 * mantissa + 2) * (2 ^ exponent * den) =
      (4 * t.high * den / t.denominator : ℚ) := by
    rw [h.high]
    field_simp
  have hNum : (4 * num : ℚ) = 4 * (count * 10 ^ x * t.denominator) * den / t.denominator := by
    rw [hValue]
    field_simp
  have hBetween := Target.between_of_admits hAdmits
  refine ⟨?_, ?_, fun hOdd => ?_⟩
  · rw [hLow, hNum]
    gcongr
    exact hBetween.1
  · rw [hHigh, hNum]
    gcongr
    exact hBetween.2
  · rw [Target.admits_iff, h.closed, if_neg (by simp [hOdd])] at hAdmits
    rw [hLow, hHigh, hNum]
    constructor
    · gcongr
      exact hAdmits.1
    · gcongr
      exact hAdmits.2

/-- The value of a target in units of a power of ten is a fraction of these two numbers. -/
def Target.unitsNum (t : Target) (x : Int) : Nat :=
  if 0 ≤ x then t.value else t.value * Nat.pow 10 (-x).toNat

def Target.unitsDen (t : Target) (x : Int) : Nat :=
  if 0 ≤ x then t.denominator * Nat.pow 10 x.toNat else t.denominator

/-- The last grid point that is not past the value. -/
def Target.down (t : Target) (x : Int) : Nat :=
  t.unitsNum x / t.unitsDen x

/-- Both sides of the fraction are multiplied by the same power of ten. -/
theorem Target.exists_units (t : Target) (x : Int) :
    ∃ c : ℚ, 0 < c ∧ (t.unitsNum x : ℚ) = t.value * c ∧
      (t.unitsDen x : ℚ) = 10 ^ x * t.denominator * c := by
  rcases le_or_gt 0 x with hx | hx
  · simp only [unitsNum, unitsDen, if_pos hx, Nat.pow_eq]
    refine ⟨1, one_pos, by simp, ?_⟩
    rw [ten_zpow_toNat hx]
    push_cast
    ring
  · simp only [unitsNum, unitsDen, if_neg (not_le.mpr hx), Nat.pow_eq]
    refine ⟨((10 ^ (-x).toNat : Nat) : ℚ), by positivity, ?_, ?_⟩
    · push_cast
      ring
    · linear_combination -(t.denominator : ℚ) * ten_zpow_neg_toNat hx

theorem Target.down_le (t : Target) (x : Int) :
    (t.down x * 10 ^ x * t.denominator : ℚ) ≤ t.value := by
  obtain ⟨c, hc, hNum, hDen⟩ := t.exists_units x
  have h : (((t.down x * t.unitsDen x : Nat) : ℚ)) ≤ t.unitsNum x := by
    exact_mod_cast Nat.div_mul_le_self (t.unitsNum x) (t.unitsDen x)
  refine le_of_mul_le_mul_right ?_ hc
  push_cast at h
  rw [hNum, hDen] at h
  linarith

theorem Target.lt_down_add_one (x : Int) (hPos : 0 < t.denominator) :
    (t.value : ℚ) < (t.down x + 1) * 10 ^ x * t.denominator := by
  obtain ⟨c, hc, hNum, hDen⟩ := t.exists_units x
  have hUnits : 0 < t.unitsDen x := by
    have hCast : (0 : ℚ) < t.unitsDen x := by
      rw [hDen]
      positivity
    exact_mod_cast hCast
  have h : (t.unitsNum x : ℚ) < ((t.unitsDen x * (t.down x + 1) : Nat) : ℚ) := by
    exact_mod_cast Nat.lt_mul_div_succ (t.unitsNum x) hUnits
  refine lt_of_mul_lt_mul_right ?_ hc.le
  push_cast at h
  rw [hNum, hDen] at h
  linarith

theorem nearer_eq (tie : Tie) (down rest den : Nat) :
    nearer tie down rest den = down ∨ nearer tie down rest den = down + 1 := by
  unfold nearer
  split_ifs <;> simp

section Grid

variable {tie : Tie} {point : Int} {count : Nat}

theorem exists_onGrid?_of_admits_down
    (h : t.admits (t.down (point - count)) (point - count) = true) :
    ∃ n, onGrid? tie t point count = some n := by
  unfold onGrid?
  simp only
  split
  · exact ⟨_, rfl⟩
  · exact ⟨_, rfl⟩
  · rename_i hAt _
    exact absurd (h.symm.trans hAt) (by decide)
  · rename_i hAt _
    exact absurd (h.symm.trans hAt) (by decide)

theorem admits_of_onGrid? {n : Nat} (h : onGrid? tie t point count = some n) :
    t.admits n (point - count) = true ∧ t.down (point - count) ≤ n := by
  unfold onGrid? at h
  simp only at h
  split at h
  · rename_i hAt hNext
    cases h
    rcases nearer_eq tie (t.down (point - count))
      (t.unitsNum (point - count) % t.unitsDen (point - count))
      (t.unitsDen (point - count)) with hDown | hUp
    · exact hDown.symm ▸ ⟨hAt, le_rfl⟩
    · exact hUp.symm ▸ ⟨hNext, Nat.le_succ _⟩
  · rename_i hAt hNext
    cases h
    exact ⟨hAt, le_rfl⟩
  · rename_i hAt hNext
    cases h
    exact ⟨hNext, Nat.le_succ _⟩
  · cases h

theorem exists_onGrid? (hPos : 0 < t.denominator)
    (hFine : (t.low : ℚ) + 10 ^ (point - count) * t.denominator ≤ t.value)
    (hHigh : t.value < t.high) : ∃ n, onGrid? tie t point count = some n := by
  have hAt := t.down_le (point - count)
  have hNext := Target.lt_down_add_one (point - count) hPos
  have hHigh' : (t.value : ℚ) < t.high := by exact_mod_cast hHigh
  refine exists_onGrid?_of_admits_down (Target.admits_iff.mpr ?_)
  have hLow : (t.low : ℚ) < t.down (point - count) * 10 ^ (point - count) * t.denominator := by
    linarith
  split
  · exact ⟨hLow.le, hAt.trans hHigh'.le⟩
  · exact ⟨hLow, hAt.trans_lt hHigh'⟩

theorem pow_le_of_onGrid? {n : Nat} (hPos : 0 < t.denominator)
    (hPoint : (10 : ℚ) ^ (point - 1) * t.denominator ≤ t.value) (hCount : 1 ≤ count)
    (h : onGrid? tie t point count = some n) : 10 ^ (count - 1) ≤ n := by
  have hNext := Target.lt_down_add_one (point - count) hPos
  have hPlaces : (10 : ℚ) ^ (point - 1) =
      ((10 ^ (count - 1) : Nat) : ℚ) * 10 ^ (point - count) := by
    rw [Nat.cast_pow, Nat.cast_ofNat, ← zpow_natCast, ← zpow_add₀ (by norm_num)]
    congr 1
    omega
  have hDown : (t.down (point - count) : ℚ) ≤ n := by exact_mod_cast (admits_of_onGrid? h).2
  have hUnit : (0 : ℚ) < 10 ^ (point - count) * t.denominator := by positivity
  have hLess : ((10 ^ (count - 1) : Nat) : ℚ) < n + 1 := by
    refine lt_of_mul_lt_mul_right ?_ hUnit.le
    calc ((10 ^ (count - 1) : Nat) : ℚ) * (10 ^ (point - count) * t.denominator) ≤ t.value := by
          rw [← mul_assoc, ← hPlaces]
          exact hPoint
      _ < (t.down (point - count) + 1) * (10 ^ (point - count) * t.denominator) := by
          rwa [← mul_assoc]
      _ ≤ (n + 1) * (10 ^ (point - count) * t.denominator) := by gcongr
  exact Nat.lt_succ_iff.mp (by exact_mod_cast hLess)

end Grid

theorem search_spec {tie : Tie} {point : Int} {fuel count most : Nat} (hFrom : count ≤ most)
    (hReach : most < count + fuel) (hMost : ∃ n, onGrid? tie t point most = some n) :
    ∃ n found, search tie t point fuel count = (n, found) ∧ count ≤ found ∧
      onGrid? tie t point found = some n := by
  induction fuel generalizing count with
  | zero => omega
  | succ fuel ih =>
    rw [search]
    cases hGrid : onGrid? tie t point count with
    | some n => exact ⟨n, count, rfl, le_rfl, hGrid⟩
    | none =>
      have hNot : count ≠ most := by
        rintro rfl
        obtain ⟨n, hn⟩ := hMost
        cases hGrid.symm.trans hn
      have hNext : count + 1 ≤ most := by omega
      obtain ⟨n, found, hSearch, hLe, hFound⟩ := ih hNext (by omega)
      exact ⟨n, found, hSearch, by omega, hFound⟩

theorem pointFrom_le {fuel : Nat} {start : Int}
    (h : (10 : ℚ) ^ (start - 1) * t.denominator ≤ t.value) :
    (10 : ℚ) ^ (pointFrom t fuel start - 1) * t.denominator ≤ t.value := by
  induction fuel generalizing start with
  | zero => exact h
  | succ fuel ih =>
    -- An estimate that is not past the value is either kept or still not past it when it is raised.
    have hStep (hBelow : ¬ (t.value : ℚ) < 10 ^ start * t.denominator) :
        (10 : ℚ) ^ (pointFrom t fuel (start + 1) - 1) * t.denominator ≤ t.value :=
      ih (by rwa [add_sub_cancel_right, ← not_lt])
    rcases le_or_gt 0 start with hStart | hStart
    · simp only [pointFrom, hStart, if_true, Nat.pow_eq]
      split
      · exact h
      · rename_i hAbove
        refine hStep fun hLess => hAbove ?_
        rw [ten_zpow_toNat hStart, mul_comm] at hLess
        exact_mod_cast hLess
    · simp only [pointFrom, not_le.mpr hStart, if_false, Nat.pow_eq]
      split
      · exact h
      · rename_i hAbove
        have hPower : (0 : ℚ) < ((10 ^ (-start).toNat : Nat) : ℚ) := by positivity
        refine hStep fun hLess => hAbove ?_
        have hScaled := mul_lt_mul_of_pos_right hLess hPower
        have hOne : (10 : ℚ) ^ start * t.denominator * ((10 ^ (-start).toNat : Nat) : ℚ) =
            t.denominator := by
          linear_combination (t.denominator : ℚ) * ten_zpow_neg_toNat hStart
        rw [hOne] at hScaled
        exact_mod_cast hScaled

theorem point_le (hPos : 0 < t.denominator) (hValue : 0 < t.value)
    (hLeast : (2 : ℚ) ^ (-1100 : Int) * t.denominator ≤ t.value)
    (hMost : (t.value : ℚ) ≤ 2 ^ (1100 : Int) * t.denominator) :
    (10 : ℚ) ^ (point t - 1) * t.denominator ≤ t.value := by
  have hValueLow : (2 : ℚ) ^ (t.value.log2 : Int) ≤ t.value := by
    exact_mod_cast Nat.log2_self_le hValue.ne'
  have hValueHigh : (t.value : ℚ) < 2 ^ ((t.value.log2 : Int) + 1) := by
    exact_mod_cast Nat.lt_log2_self (n := t.value)
  have hDenLow : (2 : ℚ) ^ (t.denominator.log2 : Int) ≤ t.denominator := by
    exact_mod_cast Nat.log2_self_le hPos.ne'
  have hDenHigh : (t.denominator : ℚ) < 2 ^ ((t.denominator.log2 : Int) + 1) := by
    exact_mod_cast Nat.lt_log2_self (n := t.denominator)
  have hTopMost : (t.value.log2 : Int) < 1100 + (t.denominator.log2 + 1) := by
    rw [← zpow_lt_zpow_iff_right₀ (one_lt_two (α := ℚ)), zpow_add₀ two_ne_zero]
    calc (2 : ℚ) ^ (t.value.log2 : Int) ≤ 2 ^ (1100 : Int) * t.denominator := hValueLow.trans hMost
      _ < 2 ^ (1100 : Int) * 2 ^ ((t.denominator.log2 : Int) + 1) := by gcongr
  have hTopLeast : -1100 + (t.denominator.log2 : Int) < t.value.log2 + 1 := by
    rw [← zpow_lt_zpow_iff_right₀ (one_lt_two (α := ℚ)), zpow_add₀ two_ne_zero]
    calc (2 : ℚ) ^ (-1100 : Int) * 2 ^ (t.denominator.log2 : Int) ≤
          2 ^ (-1100 : Int) * t.denominator := by gcongr
      _ < 2 ^ ((t.value.log2 : Int) + 1) := hLeast.trans_lt hValueHigh
  refine pointFrom_le ?_
  generalize hTop : (t.value.log2 : Int) - t.denominator.log2 = top
  have hEstimate : (10 : ℚ) ^ (top * 30103 / 100000 - 1 - 1) ≤ 2 ^ (top - 1) :=
    ten_zpow_le_two_zpow (by omega) (by omega)
  calc (10 : ℚ) ^ (top * 30103 / 100000 - 1 - 1) * t.denominator ≤
        2 ^ (top - 1) * t.denominator := by gcongr
    _ ≤ 2 ^ (top - 1) * 2 ^ ((t.denominator.log2 : Int) + 1) := by gcongr
    _ = 2 ^ (t.value.log2 : Int) := by
      rw [← zpow_add₀ two_ne_zero]
      congr 1
      omega
    _ ≤ t.value := hValueLow

theorem Target.Spans.fine (h : t.Spans fmt mantissa exponent) (hMantissa : mantissa < 2 ^ 53)
    (hOne : 1 ≤ fmt.quartersBelow mantissa exponent) {first : Int}
    (hPoint : (10 : ℚ) ^ (first - 1) * t.denominator ≤ t.value) :
    (t.low : ℚ) + 10 ^ (first - 18) * t.denominator ≤ t.value := by
  have hPos : (0 : ℚ) < t.denominator := by exact_mod_cast h.positive
  have hUnit : (0 : ℚ) < 2 ^ exponent * t.denominator := by positivity
  have hMantissa' : (mantissa : ℚ) ≤ 2 ^ 53 := by exact_mod_cast hMantissa.le
  have hOne' : (1 : ℚ) ≤ fmt.quartersBelow mantissa exponent := by exact_mod_cast hOne
  have hPlaces : (10 : ℚ) ^ (first - 18) * t.denominator * 10 ^ 17 =
      10 ^ (first - 1) * t.denominator := by
    have hSplit : first - 1 = first - 18 + 17 := by omega
    rw [hSplit, zpow_add₀ (by norm_num)]
    norm_num
    ring
  have hValue := h.value
  have hBelow := mul_le_mul_of_nonneg_right hOne' hUnit.le
  have hAbove := mul_le_mul_of_nonneg_right hMantissa' hUnit.le
  linarith [h.low]

end Target

end Shortest

def Decimal.value (d : Decimal) : ℚ :=
  Text.digitsNat d.digits * 10 ^ (d.point - d.digits.length)

theorem dropTrailingZeros_spec (digits : List Nat) :
    ∃ zeros, digits = dropTrailingZeros digits ++ List.replicate zeros 0 := by
  have hTaken := List.takeWhile_append_dropWhile (p := fun d => d == 0) (l := digits.reverse)
  refine ⟨(digits.reverse.takeWhile fun d => d == 0).length, ?_⟩
  have hZeros : digits.reverse.takeWhile (fun d => d == 0) =
      List.replicate (digits.reverse.takeWhile fun d => d == 0).length 0 :=
    List.eq_replicate_of_mem fun d hd => by simpa using List.mem_takeWhile_imp hd
  calc digits = digits.reverse.reverse := (List.reverse_reverse _).symm
    _ = (digits.reverse.takeWhile (fun d => d == 0) ++
          digits.reverse.dropWhile fun d => d == 0).reverse := by rw [hTaken]
    _ = _ := by
      rw [List.reverse_append, hZeros, List.reverse_replicate, List.length_replicate]
      rfl

theorem value_append_zeros (digits : List Nat) (zeros : Nat) (point : Int) :
    (Decimal.mk (digits ++ List.replicate zeros 0) point).value =
      (Decimal.mk digits point).value := by
  have hTen : (10 : ℚ) ≠ 0 := by norm_num
  simp only [Decimal.value, Text.digitsNat_append, Text.digitsNat_zeros, List.length_append,
    List.length_replicate, Nat.add_zero]
  push_cast
  rw [← sub_sub, zpow_sub₀ hTen (point - digits.length), zpow_natCast]
  field_simp

/-- What is known of the digits that are found for a number. -/
structure Decimal.Denotes (d : Decimal) (magnitude : Nat) : Prop where
  digits : ∀ digit ∈ d.digits, digit < 10
  positive : 0 < Text.digitsNat d.digits
  atLeast : (2 : ℚ) ^ (-1100 : Int) ≤ d.value
  atMost : d.value ≤ 2 ^ (1100 : Int)
  rounds : ∀ num den : Nat, 0 < den → (num : ℚ) = d.value * den →
    Format.double.round num den = magnitude

theorem Format.unpack_double {magnitude mantissa : Nat} {exponent : Int} (hPos : 0 < magnitude)
    (hFinite : magnitude < Format.double.infinity)
    (hUnpack : Format.double.unpack magnitude = (mantissa, exponent)) :
    0 < mantissa ∧ mantissa < 2 ^ 53 ∧ -1074 ≤ exponent ∧ exponent ≤ 971 := by
  obtain ⟨hMin, hMax, hNormal, hMagnitude⟩ := Format.double.unpack_spec hUnpack
  rw [double_infinity] at hFinite
  rw [double_minExponent] at hMin hNormal hMagnitude
  change mantissa < 2 ^ 53 at hMax
  change exponent = -1074 ∨ 2 ^ 52 ≤ mantissa at hNormal
  change magnitude = (exponent - -1074).toNat * 2 ^ 52 + mantissa at hMagnitude
  omega

namespace Shortest

variable {t : Target} {mantissa : Nat} {exponent : Int}

theorem Target.Spans.value_bounds (h : t.Spans Format.double mantissa exponent)
    (hPos : 0 < mantissa) (hMantissa : mantissa < 2 ^ 53) (hLeast : -1074 ≤ exponent)
    (hMost : exponent ≤ 971) :
    (2 : ℚ) ^ (-1074 : Int) * t.denominator ≤ t.value ∧
      (t.value : ℚ) ≤ 2 ^ (1024 : Int) * t.denominator := by
  have hOne : (1 : ℚ) ≤ mantissa := by exact_mod_cast hPos
  have hMantissa' : (mantissa : ℚ) ≤ 2 ^ (53 : Int) := by exact_mod_cast hMantissa.le
  have hLow : (2 : ℚ) ^ (-1074 : Int) ≤ 2 ^ exponent := zpow_le_zpow_right₀ one_le_two hLeast
  have hHigh : (2 : ℚ) ^ exponent ≤ 2 ^ (971 : Int) := zpow_le_zpow_right₀ one_le_two hMost
  have hDen : (0 : ℚ) ≤ t.denominator := Nat.cast_nonneg _
  have hUnit : (0 : ℚ) ≤ 2 ^ exponent := zpow_nonneg zero_le_two _
  have hSum : (2 : ℚ) ^ (1024 : Int) = 2 ^ (53 : Int) * 2 ^ (971 : Int) := by
    rw [← zpow_add₀ two_ne_zero]
    rfl
  constructor
  · rw [h.value]
    exact mul_le_mul_of_nonneg_right (hLow.trans (le_mul_of_one_le_left hUnit hOne)) hDen
  · rw [h.value, hSum]
    exact mul_le_mul_of_nonneg_right
      (mul_le_mul hMantissa' hHigh hUnit (zpow_nonneg zero_le_two _)) hDen

theorem search_double (tie : Tie) (h : t.Spans Format.double mantissa exponent)
    (hPos : 0 < mantissa) (hMantissa : mantissa < 2 ^ 53) (hLeast : -1074 ≤ exponent)
    (hMost : exponent ≤ 971) :
    ∃ n found, search tie t (point t) 20 1 = (n, found) ∧ 1 ≤ found ∧ 10 ^ (found - 1) ≤ n ∧
      t.admits n (point t - found) = true := by
  obtain ⟨hLow, hHigh⟩ := h.value_bounds hPos hMantissa hLeast hMost
  have hDen : (0 : ℚ) < t.denominator := by exact_mod_cast h.positive
  have hValue : 0 < t.value := by
    have : (0 : ℚ) < t.value := (mul_pos (zpow_pos two_pos _) hDen).trans_le hLow
    exact_mod_cast this
  have hPoint : (10 : ℚ) ^ (point t - 1) * t.denominator ≤ t.value := by
    refine point_le h.positive hValue (le_trans ?_ hLow) (hHigh.trans ?_)
    · exact mul_le_mul_of_nonneg_right (zpow_le_zpow_right₀ one_le_two (by decide)) hDen.le
    · exact mul_le_mul_of_nonneg_right (zpow_le_zpow_right₀ one_le_two (by decide)) hDen.le
  have hBelow : 1 ≤ Format.double.quartersBelow mantissa exponent := by
    unfold Format.quartersBelow
    split <;> omega
  have hUnder : t.value < t.high := by
    have hUnit : (0 : ℚ) < 2 ^ exponent * t.denominator := by positivity
    have : (t.value : ℚ) < t.high := by linarith [h.high, h.value]
    exact_mod_cast this
  have hEighteen : ∃ n, onGrid? tie t (point t) 18 = some n :=
    exists_onGrid? h.positive (h.fine hMantissa hBelow hPoint) hUnder
  obtain ⟨n, found, hSearch, hFound, hGrid⟩ :=
    search_spec (show 1 ≤ 18 by omega) (show 18 < 1 + 20 by omega) hEighteen
  exact ⟨n, found, hSearch, hFound, pow_le_of_onGrid? h.positive hPoint hFound hGrid,
    (admits_of_onGrid? hGrid).1⟩

theorem Target.Spans.admitted_bounds (h : t.Spans Format.double mantissa exponent)
    (hPos : 0 < mantissa) (hMantissa : mantissa < 2 ^ 53) (hLeast : -1074 ≤ exponent)
    (hMost : exponent ≤ 971) {n : Nat} {x : Int} (hAdmits : t.admits n x = true) :
    (2 : ℚ) ^ (-1100 : Int) ≤ n * 10 ^ x ∧ (n * 10 ^ x : ℚ) ≤ 2 ^ (1100 : Int) := by
  have hDen : (0 : ℚ) < t.denominator := by exact_mod_cast h.positive
  have hUnit : (0 : ℚ) < 2 ^ exponent * t.denominator := mul_pos (zpow_pos two_pos _) hDen
  have hBetween := Target.between_of_admits hAdmits
  have hBelow : (Format.double.quartersBelow mantissa exponent : ℚ) ≤ 2 := by
    unfold Format.quartersBelow
    split <;> norm_num
  have hOne : (1 : ℚ) ≤ mantissa := by exact_mod_cast hPos
  have hMantissa' : (mantissa : ℚ) + 1 ≤ 2 ^ (53 : Int) := by exact_mod_cast hMantissa
  constructor
  · refine le_of_mul_le_mul_right ?_ hDen
    refine le_trans ?_ hBetween.1
    have hHalf : (2 : ℚ) ^ (-1100 : Int) ≤ 2 ^ (exponent - 1) :=
      zpow_le_zpow_right₀ one_le_two (by omega)
    calc (2 : ℚ) ^ (-1100 : Int) * t.denominator ≤ 2 ^ (exponent - 1) * t.denominator :=
          mul_le_mul_of_nonneg_right hHalf hDen.le
      _ = 1 / 2 * (2 ^ exponent * t.denominator) := by
          rw [zpow_sub₀ two_ne_zero, zpow_one]
          ring
      _ ≤ (4 * mantissa - Format.double.quartersBelow mantissa exponent) / 4 *
            (2 ^ exponent * t.denominator) := by
          refine mul_le_mul_of_nonneg_right ?_ hUnit.le
          linarith
      _ = t.low := by linarith [h.low]
  · refine le_of_mul_le_mul_right (hBetween.2.trans ?_) hDen
    have hWhole : (2 : ℚ) ^ (53 : Int) * 2 ^ exponent ≤ 2 ^ (1100 : Int) := by
      rw [← zpow_add₀ two_ne_zero]
      exact zpow_le_zpow_right₀ one_le_two (by omega)
    calc (t.high : ℚ) = (mantissa + 1 / 2) * (2 ^ exponent * t.denominator) := by
          linarith [h.high]
      _ ≤ 2 ^ (53 : Int) * (2 ^ exponent * t.denominator) := by
          refine mul_le_mul_of_nonneg_right ?_ hUnit.le
          linarith
      _ = 2 ^ (53 : Int) * 2 ^ exponent * t.denominator := (mul_assoc _ _ _).symm
      _ ≤ 2 ^ (1100 : Int) * t.denominator := mul_le_mul_of_nonneg_right hWhole hDen.le

end Shortest

theorem lt_ten_of_mem_dropTrailingZeros {digits : List Nat} (h : ∀ d ∈ digits, d < 10) :
    ∀ d ∈ dropTrailingZeros digits, d < 10 := by
  obtain ⟨zeros, hDigits⟩ := dropTrailingZeros_spec digits
  intro d hd
  exact h d (hDigits ▸ List.mem_append_left _ hd)

theorem Format.denotes_shortest {magnitude : Nat} (hPos : 0 < magnitude)
    (hFinite : magnitude < Format.double.infinity) (tie : Shortest.Tie) :
    (Format.double.shortest tie magnitude).Denotes magnitude := by
  obtain ⟨⟨mantissa, exponent⟩, hUnpack⟩ : ∃ r, Format.double.unpack magnitude = r := ⟨_, rfl⟩
  obtain ⟨hMantissa, hMax, hLeast, hMost⟩ := Format.unpack_double hPos hFinite hUnpack
  have hSpans := Shortest.spans_target hUnpack hMantissa
  obtain ⟨n, found, hSearch, hFound, hCount, hAdmits⟩ :=
    Shortest.search_double tie hSpans hMantissa hMax hLeast hMost
  have hn : 0 < n := lt_of_lt_of_le (by positivity) hCount
  -- There are at least as many digits as the grid was looked for with.
  have hLength : found ≤ (Text.decimalDigits n).length := by
    have hPowers := hCount.trans_lt (Text.lt_pow_length_decimalDigits hn)
    have := (Nat.pow_lt_pow_iff_right (by omega)).mp hPowers
    omega
  have hDecimal : Format.double.shortest tie magnitude =
      ⟨dropTrailingZeros (Text.decimalDigits n),
        Shortest.point (Shortest.target Format.double magnitude) +
          ((Text.decimalDigits n).length - found : Nat)⟩ := by
    simp only [Format.shortest, hSearch]
  generalize Shortest.point (Shortest.target Format.double magnitude) = point at *
  have hValue : (Format.double.shortest tie magnitude).value = n * 10 ^ (point - found) := by
    obtain ⟨zeros, hDigits⟩ := dropTrailingZeros_spec (Text.decimalDigits n)
    rw [hDecimal, ← value_append_zeros _ zeros, ← hDigits, Decimal.value,
      Text.digitsNat_decimalDigits]
    congr 2
    push_cast [hLength]
    ring
  have hBounds := hSpans.admitted_bounds hMantissa hMax hLeast hMost hAdmits
  refine ⟨?_, ?_, hValue ▸ hBounds.1, hValue ▸ hBounds.2, fun num den hDen hNum => ?_⟩
  · rw [hDecimal]
    exact lt_ten_of_mem_dropTrailingZeros fun d hd => Text.lt_ten_of_mem_decimalDigits hd
  · rw [Nat.pos_iff_ne_zero]
    intro hZero
    have hNone : (Format.double.shortest tie magnitude).value = 0 := by
      rw [Decimal.value, hZero, Nat.cast_zero, zero_mul]
    have : (0 : ℚ) < n * 10 ^ (point - found) := by positivity
    linarith
  · rw [hValue] at hNum
    exact Format.round_near hFinite hUnpack hMantissa hDen (hSpans.near hAdmits hDen hNum)

end NativeBinding.Ieee
