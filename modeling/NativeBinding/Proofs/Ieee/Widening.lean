import NativeBinding.Proofs.Ieee.Exact

/-! # Single precision inside double precision

Widening keeps the value of every number, and narrowing the widened number gives it back. A NaN
becomes quiet on the way and stays a NaN.
-/

set_option autoImplicit false

namespace NativeBinding.Ieee

namespace Format

theorem double_minExponent : double.minExponent = -1074 := by decide

theorem single_minExponent : single.minExponent = -149 := by decide

theorem double_infinity : double.infinity = 2047 * 2 ^ 52 := by decide

theorem single_infinity : single.infinity = 255 * 2 ^ 23 := by decide

variable {fmt : Format} {negative : Bool} {magnitude bits : Nat}

theorem signBit_pos : 0 < fmt.signBit :=
  Nat.pow_pos two_pos

theorem pack_lt (h : magnitude < fmt.signBit) :
    fmt.pack negative magnitude < 2 * fmt.signBit := by
  unfold pack
  split <;> omega

theorem pack_mod (h : magnitude < fmt.signBit) :
    fmt.pack negative magnitude % fmt.signBit = magnitude := by
  cases negative with
  | false => exact Nat.mod_eq_of_lt h
  | true => exact (Nat.add_mod_right ..).trans (Nat.mod_eq_of_lt h)

theorem signBit_le_pack (h : magnitude < fmt.signBit) :
    decide (fmt.signBit ≤ fmt.pack negative magnitude) = negative := by
  cases negative with
  | false => exact decide_eq_false h.not_ge
  | true => exact decide_eq_true (Nat.le_add_left ..)

/-- The bits of a format are a sign and a magnitude. -/
theorem pack_self (h : bits < 2 * fmt.signBit) :
    fmt.pack (decide (fmt.signBit ≤ bits)) (bits % fmt.signBit) = bits := by
  by_cases hSign : fmt.signBit ≤ bits
  · rw [pack, if_pos (decide_eq_true hSign), Nat.mod_eq_sub_mod hSign,
      Nat.mod_eq_of_lt (by omega), Nat.sub_add_cancel hSign]
  · rw [pack, if_neg (by simpa using hSign), Nat.mod_eq_of_lt (by omega)]

end Format

namespace Binary64

variable {negative : Bool} {magnitude : Nat}

theorem toNat_signed (h : magnitude < 2 ^ 63) :
    (signed negative magnitude).bits.toNat = Format.double.pack negative magnitude :=
  UInt64.toNat_ofNat_of_lt' (@Format.pack_lt Format.double _ _ h)

theorem magnitude_signed (h : magnitude < 2 ^ 63) :
    (signed negative magnitude).magnitude = magnitude := by
  rw [Binary64.magnitude, toNat_signed h, Format.pack_mod h]

theorem isNegative_signed (h : magnitude < 2 ^ 63) :
    (signed negative magnitude).isNegative = negative := by
  rw [isNegative, toNat_signed h, Format.signBit_le_pack h]

theorem signed_self (x : Binary64) : signed x.isNegative x.magnitude = x := by
  have hMagnitude : x.magnitude < Format.double.signBit := Nat.mod_lt _ Format.signBit_pos
  exact congrArg mk (UInt64.toNat_inj.mp ((toNat_signed hMagnitude).trans
    (Format.pack_self x.bits.toNat_lt)))

theorem toFraction_spec {x : Binary64} {mantissa : Nat} {exponent : Int}
    (h : Format.double.unpack x.magnitude = (mantissa, exponent)) :
    x.toFraction.negative = x.isNegative ∧ 0 < x.toFraction.denominator ∧
      (x.toFraction.numerator : ℚ) = mantissa * 2 ^ exponent * x.toFraction.denominator := by
  simp only [toFraction, h, Nat.pow_eq]
  split
  · rename_i hExponent
    refine ⟨rfl, Nat.one_pos, ?_⟩
    rw [Format.zpow_toNat hExponent]
    push_cast
    ring
  · rename_i hExponent
    refine ⟨rfl, by positivity, ?_⟩
    linear_combination -(mantissa : ℚ) * Format.zpow_neg_toNat (x := exponent) (by omega)

end Binary64

namespace Binary32

variable {negative : Bool} {magnitude : Nat}

theorem toNat_signed (h : magnitude < 2 ^ 31) :
    (signed negative magnitude).bits.toNat = Format.single.pack negative magnitude :=
  UInt32.toNat_ofNat_of_lt' (@Format.pack_lt Format.single _ _ h)

theorem magnitude_signed (h : magnitude < 2 ^ 31) :
    (signed negative magnitude).magnitude = magnitude := by
  rw [Binary32.magnitude, toNat_signed h, Format.pack_mod h]

theorem isNegative_signed (h : magnitude < 2 ^ 31) :
    (signed negative magnitude).isNegative = negative := by
  rw [isNegative, toNat_signed h, Format.signBit_le_pack h]

theorem signed_self (x : Binary32) : signed x.isNegative x.magnitude = x := by
  have hMagnitude : x.magnitude < Format.single.signBit := Nat.mod_lt _ Format.signBit_pos
  exact congrArg mk (UInt32.toNat_inj.mp ((toNat_signed hMagnitude).trans
    (Format.pack_self x.bits.toNat_lt)))

theorem widen_of_finite {x : Binary32} {mantissa : Nat} {exponent : Int}
    (hFinite : x.magnitude < Format.single.infinity)
    (hUnpack : Format.single.unpack x.magnitude = (mantissa, exponent)) :
    ∃ num den : Nat, 0 < den ∧ (num : ℚ) = mantissa * 2 ^ exponent * den ∧
      x.widen = Binary64.signed x.isNegative (Format.double.round num den) := by
  simp only [widen, if_pos hFinite, hUnpack, Nat.pow_eq]
  split
  · rename_i hExponent
    refine ⟨_, 1, Nat.one_pos, ?_, rfl⟩
    rw [Format.zpow_toNat hExponent]
    push_cast
    ring
  · rename_i hExponent
    refine ⟨_, _, by positivity, ?_, rfl⟩
    linear_combination -(mantissa : ℚ) * Format.zpow_neg_toNat (x := exponent) (by omega)

theorem shifted_bounds {mantissa shift : Nat} (hPos : 0 < mantissa)
    (hMantissa : mantissa.log2 < 24) (hShift : mantissa.log2 + shift = 52) :
    2 ^ 52 ≤ mantissa * 2 ^ shift ∧ mantissa * 2 ^ shift + 2 ^ 29 ≤ 2 ^ 53 := by
  have hSmall : 2 ^ 29 ≤ 2 ^ shift := Nat.pow_le_pow_right (by omega) (by omega)
  constructor
  · calc 2 ^ 52 = 2 ^ mantissa.log2 * 2 ^ shift := by rw [← pow_add, hShift]
      _ ≤ mantissa * 2 ^ shift := Nat.mul_le_mul_right _ (Nat.log2_self_le hPos.ne')
  · calc mantissa * 2 ^ shift + 2 ^ 29 ≤ mantissa * 2 ^ shift + 2 ^ shift := by omega
      _ = (mantissa + 1) * 2 ^ shift := (Nat.succ_mul _ _).symm
      _ ≤ 2 ^ (mantissa.log2 + 1) * 2 ^ shift := Nat.mul_le_mul_right _ Nat.lt_log2_self
      _ = 2 ^ 53 := by rw [← pow_add]; congr 1; omega

theorem round_double {num den mantissa : Nat} {exponent : Int} (hPos : 0 < mantissa)
    (hMantissa : mantissa < 2 ^ 24) (hLeast : -149 ≤ exponent) (hMost : exponent ≤ 104)
    (hDen : 0 < den) (hValue : (num : ℚ) = mantissa * 2 ^ exponent * den) :
    Format.double.round num den ≤ 0x47EFFFFFE0000000 ∧
      ∃ (mantissa' : Nat) (exponent' : Int),
        Format.double.unpack (Format.double.round num den) = (mantissa', exponent') ∧
          (mantissa' : ℚ) * 2 ^ exponent' = mantissa * 2 ^ exponent := by
  obtain ⟨hLow, hHigh⟩ := Format.value_bounds hPos hValue
  have hLog : mantissa.log2 < 24 := (Nat.log2_lt hPos.ne').mpr hMantissa
  have hNum : 0 < num := by
    have hNum' : (0 : ℚ) < num := by
      rw [hValue]
      have hDen' : (0 : ℚ) < den := by exact_mod_cast hDen
      have hPos' : (0 : ℚ) < mantissa := by exact_mod_cast hPos
      positivity
    exact_mod_cast hNum'
  have hUnit : max Format.double.minExponent
      ((mantissa.log2 : Int) + exponent - Format.double.fractionBits) =
      mantissa.log2 + exponent - 52 := by
    rw [Format.double_minExponent]
    change max (-1074) (_ - 52) = _
    omega
  obtain ⟨shift, hShift⟩ : ∃ shift, mantissa.log2 + shift = 52 := ⟨52 - mantissa.log2, by omega⟩
  have hUnits : ((mantissa * 2 ^ shift : Nat) : ℚ) * 2 ^ ((mantissa.log2 : Int) + exponent - 52) =
      mantissa * 2 ^ exponent := by
    have hSum : (shift : Int) + (mantissa.log2 + exponent - 52) = exponent := by omega
    rw [Nat.cast_mul, mul_assoc, Nat.cast_pow, Nat.cast_ofNat, ← zpow_natCast,
      ← zpow_add₀ two_ne_zero, hSum]
  -- The clear low bits keep the number below the overflow.
  obtain ⟨hNormalLow, hNormalHigh⟩ := shifted_bounds hPos hLog hShift
  obtain ⟨k, hk⟩ : ∃ k : Nat, (mantissa.log2 : Int) + exponent - 52 = -1074 + k :=
    ⟨(mantissa.log2 + exponent + 1022).toNat, by omega⟩
  have hRound := Format.double.round_exact hNum hDen hLow (hHigh hDen)
    (k := mantissa * 2 ^ shift) (by rw [hUnit, hUnits, hValue])
  rw [hUnit, Format.double_minExponent, hk, add_sub_cancel_left, Int.toNat_natCast,
    Format.double_infinity, show Format.double.fractionBits = 52 from rfl,
    Nat.min_eq_right (by omega)] at hRound
  rw [hRound]
  refine ⟨by omega, mantissa * 2 ^ shift, -1074 + k,
    Format.double.unpack_normal hNormalLow (by change _ < 2 ^ 53; omega), ?_⟩
  rw [← hk]
  exact hUnits

theorem widen_spec {x : Binary32} {mantissa : Nat} {exponent : Int}
    (hFinite : x.magnitude < Format.single.infinity)
    (hUnpack : Format.single.unpack x.magnitude = (mantissa, exponent)) :
    x.widen.isNegative = x.isNegative ∧ x.widen.magnitude ≤ 0x47EFFFFFE0000000 ∧
      ∃ (mantissa' : Nat) (exponent' : Int),
        Format.double.unpack x.widen.magnitude = (mantissa', exponent') ∧
          (mantissa' : ℚ) * 2 ^ exponent' = mantissa * 2 ^ exponent := by
  obtain ⟨num, den, hDen, hValue, hWiden⟩ := widen_of_finite hFinite hUnpack
  obtain ⟨hMin, hMax, hNormal, hMagnitude⟩ := Format.single.unpack_spec hUnpack
  rw [Format.single_minExponent] at hMin hNormal hMagnitude
  rw [Format.single_infinity] at hFinite
  change _ < 2 ^ 24 at hMax
  change _ ∨ 2 ^ 23 ≤ _ at hNormal
  change _ = _ * 2 ^ 23 + _ at hMagnitude
  have hRound : Format.double.round num den ≤ 0x47EFFFFFE0000000 ∧
      ∃ (mantissa' : Nat) (exponent' : Int),
        Format.double.unpack (Format.double.round num den) = (mantissa', exponent') ∧
          (mantissa' : ℚ) * 2 ^ exponent' = mantissa * 2 ^ exponent := by
    rcases Nat.eq_zero_or_pos mantissa with rfl | hPos
    · have hNum : num = 0 := by simpa using hValue
      rw [hNum, Format.round_zero]
      exact ⟨by omega, 0, _, rfl, by simp⟩
    · exact round_double hPos hMax hMin (by omega) hDen hValue
  have hSmall : Format.double.round num den < 2 ^ 63 := by omega
  rw [hWiden, Binary64.isNegative_signed hSmall, Binary64.magnitude_signed hSmall]
  exact ⟨rfl, hRound⟩

theorem narrow_widen_of_finite {x : Binary32} (hFinite : x.magnitude < Format.single.infinity) :
    narrow x.widen = x := by
  rcases hUnpack : Format.single.unpack x.magnitude with ⟨mantissa, exponent⟩
  obtain ⟨hNegative, hLimit, mantissa', exponent', hUnpack', hSame⟩ := widen_spec hFinite hUnpack
  obtain ⟨hSign, hDen, hValue⟩ := Binary64.toFraction_spec hUnpack'
  have hWide : x.widen.isFinite = true := by
    rw [Binary64.isFinite, Format.double_infinity, decide_eq_true_iff]
    omega
  rw [hSame] at hValue
  simp only [narrow, if_pos hWide, hSign, hNegative,
    Format.single.round_unpack hFinite hUnpack hDen hValue, signed_self]

theorem narrow_widen_of_infinite {x : Binary32} (h : x.magnitude = Format.single.infinity) :
    narrow x.widen = x := by
  have hSmall : Format.double.infinity < 2 ^ 63 := by rw [Format.double_infinity]; omega
  have hWiden : x.widen = Binary64.signed x.isNegative Format.double.infinity := by
    rw [widen, if_neg (by omega), if_pos h, Binary64.infinity]
  have hFinite : x.widen.isFinite = false := by
    rw [hWiden, Binary64.isFinite, Binary64.magnitude_signed hSmall]
    simp
  have hInfinite : x.widen.isInfinite = true := by
    rw [hWiden, Binary64.isInfinite, Binary64.magnitude_signed hSmall]
    simp
  rw [narrow, hFinite, hInfinite, if_neg (by decide), if_pos rfl, hWiden,
    Binary64.isNegative_signed hSmall, ← h, signed_self]

theorem narrow_widen {x : Binary32} (h : x.isNan = false) : narrow x.widen = x := by
  have hNan : x.magnitude ≤ Format.single.infinity := by simpa [isNan] using h
  rcases Nat.lt_or_eq_of_le hNan with hFinite | hInfinite
  · exact narrow_widen_of_finite hFinite
  · exact narrow_widen_of_infinite hInfinite

theorem narrow_widen_of_nan {x : Binary32} (h : x.isNan = true) :
    ∃ payload, payload < 2 ^ 22 ∧
      x.widen = Binary64.signed x.isNegative
        (Format.double.infinity + Format.double.quietBit + payload * Nat.pow 2 29) ∧
      narrow x.widen = signed x.isNegative
        (Format.single.infinity + Format.single.quietBit + payload) := by
  have hNan : Format.single.infinity < x.magnitude := by simpa [isNan] using h
  obtain ⟨payload, hPayload⟩ : ∃ payload, payload = x.magnitude % Nat.pow 2 23 % Nat.pow 2 22 :=
    ⟨_, rfl⟩
  have hBound : payload < 2 ^ 22 := hPayload ▸ Nat.mod_lt _ (by decide)
  have hWiden : x.widen = Binary64.signed x.isNegative
      (Format.double.infinity + Format.double.quietBit + payload * Nat.pow 2 29) := by
    rw [widen, if_neg hNan.le.not_gt, if_neg hNan.ne', hPayload]
  have hQuiet : Format.double.quietBit = 2 ^ 51 := by decide
  have hMagnitude : x.widen.magnitude = 2047 * 2 ^ 52 + 2 ^ 51 + payload * 2 ^ 29 := by
    rw [hWiden, Format.double_infinity, hQuiet, Nat.pow_eq, Binary64.magnitude_signed (by omega)]
  have hFinite : x.widen.isFinite = false := by
    rw [Binary64.isFinite, hMagnitude, Format.double_infinity, decide_eq_false_iff_not]
    omega
  have hInfinite : x.widen.isInfinite = false := by
    rw [Binary64.isInfinite, hMagnitude, Format.double_infinity, decide_eq_false_iff_not]
    omega
  have hNegative : x.widen.isNegative = x.isNegative := by
    rw [hWiden, Format.double_infinity, hQuiet, Nat.pow_eq, Binary64.isNegative_signed (by omega)]
  have hBack : x.widen.magnitude % 2 ^ 52 / 2 ^ 29 % 2 ^ 22 = payload := by
    rw [hMagnitude]
    omega
  refine ⟨payload, hBound, hWiden, ?_⟩
  simp only [narrow, hFinite, hInfinite, hNegative, Nat.pow_eq, hBack]
  rfl

theorem isNan_narrow_widen {x : Binary32} (h : x.isNan = true) :
    (narrow x.widen).isNan = true := by
  obtain ⟨payload, hBound, -, hNarrow⟩ := narrow_widen_of_nan h
  have hQuiet : Format.single.quietBit = 2 ^ 22 := by decide
  rw [hNarrow, isNan, hQuiet, Format.single_infinity, magnitude_signed (by omega),
    decide_eq_true_iff]
  omega

/-- What has crossed over once crosses over unchanged from then on, payloads included. -/
theorem widen_narrow_widen (x : Binary32) : (narrow x.widen).widen = x.widen := by
  cases hNan : x.isNan with
  | false => rw [narrow_widen hNan]
  | true =>
    obtain ⟨payload, hBound, hWiden, hNarrow⟩ := narrow_widen_of_nan hNan
    have hQuiet : Format.single.quietBit = 2 ^ 22 := by decide
    have hSmall : Format.single.infinity + Format.single.quietBit + payload < 2 ^ 31 := by
      rw [hQuiet, Format.single_infinity]
      omega
    have hPayload : (Format.single.infinity + Format.single.quietBit + payload) %
        2 ^ 23 % 2 ^ 22 = payload := by
      rw [hQuiet, Format.single_infinity]
      omega
    rw [hNarrow, hWiden, widen, magnitude_signed hSmall, isNegative_signed hSmall,
      if_neg (by omega), if_neg (by rw [hQuiet]; omega), Nat.pow_eq, Nat.pow_eq, hPayload]

theorem magnitude_widen_le {x : Binary32} (h : x.widen.isFinite = true) :
    x.widen.magnitude ≤ 0x47EFFFFFE0000000 := by
  rcases Nat.lt_trichotomy x.magnitude Format.single.infinity with hFinite | hInfinite | hNan
  · rcases hUnpack : Format.single.unpack x.magnitude with ⟨mantissa, exponent⟩
    exact (widen_spec hFinite hUnpack).2.1
  · rw [widen, if_neg (by omega), if_pos hInfinite, Binary64.infinity, Binary64.isFinite,
      Binary64.magnitude_signed (by rw [Format.double_infinity]; omega)] at h
    simp at h
  · obtain ⟨payload, hBound, hWiden, -⟩ := narrow_widen_of_nan (by simpa [isNan] using hNan)
    have hQuiet : Format.double.quietBit = 2 ^ 51 := by decide
    rw [hWiden, Format.double_infinity, hQuiet, Nat.pow_eq, Binary64.isFinite,
      Binary64.magnitude_signed (by omega), Format.double_infinity, decide_eq_true_iff] at h
    omega

end Binary32

end NativeBinding.Ieee
