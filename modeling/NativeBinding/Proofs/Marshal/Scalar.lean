import NativeBinding.Marshal.Scalar
import NativeBinding.Proofs.Ieee.Widening
import NativeBinding.Proofs.Text.Utf8

/-! # Scalars and values

Writing a scalar as a value and taking it back gives the scalar again, up to the payload of a NaN.
Taking a value and writing it back gives its canonical form. Integer kinds are handled together,
through the integer a scalar stands for.
-/

set_option autoImplicit false

namespace NativeBinding

open Ieee

namespace Scalar

/-- The same scalar, except that any single-precision NaN may stand for any other. -/
def Same (s t : Scalar) : Prop :=
  s = t ∨ ∃ x y, s = .f32 x ∧ t = .f32 y ∧ x.isNan = true ∧ y.isNan = true

end Scalar

namespace Marshal

theorem integerScalar?_integer? {s : Scalar} {n : Int} (h : s.integer? = some n) :
    ∃ low high, s.kind.range? = some (low, high) ∧ integerScalar? s.kind n = some s ∧
      low ≤ n ∧ n ≤ high := by
  cases s with
  | bool value | f32 value | f64 value => cases h
  | char code | u8 code =>
    cases h
    refine ⟨0, 255, rfl, by simp [integerScalar?, Scalar.kind], ?_⟩
    have hLt := code.toNat_lt
    omega
  | u16 value =>
    cases h
    refine ⟨0, 65535, rfl, by simp [integerScalar?, Scalar.kind], ?_⟩
    have hLt := value.toNat_lt
    omega
  | u32 value =>
    cases h
    refine ⟨0, 4294967295, rfl, by simp [integerScalar?, Scalar.kind], ?_⟩
    have hLt := value.toNat_lt
    omega
  | u64 value =>
    cases h
    refine ⟨0, 18446744073709551615, rfl, by simp [integerScalar?, Scalar.kind], ?_⟩
    have hLt := value.toNat_lt
    omega
  | i8 value =>
    cases h
    refine ⟨-128, 127, rfl, by simp [integerScalar?, Scalar.kind], value.le_toInt, value.toInt_le⟩
  | i16 value =>
    cases h
    refine ⟨-32768, 32767, rfl, by simp [integerScalar?, Scalar.kind], value.le_toInt,
      value.toInt_le⟩
  | i32 value =>
    cases h
    refine ⟨-2147483648, 2147483647, rfl, by simp [integerScalar?, Scalar.kind], value.le_toInt,
      value.toInt_le⟩
  | i64 value =>
    cases h
    refine ⟨-9223372036854775808, 9223372036854775807, rfl,
      by simp [integerScalar?, Scalar.kind], value.le_toInt, value.toInt_le⟩

theorem integer?_integerScalar? {kind : ScalarKind} {n low high : Int} {s : Scalar}
    (hRange : kind.range? = some (low, high)) (hLow : low ≤ n) (hHigh : n ≤ high)
    (h : integerScalar? kind n = some s) : s.kind = kind ∧ s.integer? = some n := by
  have hNat (hZero : 0 ≤ n) (size : Nat) (hSize : n < size) : n.toNat % size = n.toNat :=
    Nat.mod_eq_of_lt (by omega)
  cases kind with
  | bool | f32 | f64 => cases h
  | char | u8 =>
    cases hRange
    cases h
    refine ⟨rfl, congrArg some ?_⟩
    rw [UInt8.toNat_ofNat', hNat hLow 256 (by omega)]
    omega
  | u16 =>
    cases hRange
    cases h
    refine ⟨rfl, congrArg some ?_⟩
    rw [UInt16.toNat_ofNat', hNat hLow 65536 (by omega)]
    omega
  | u32 =>
    cases hRange
    cases h
    refine ⟨rfl, congrArg some ?_⟩
    rw [UInt32.toNat_ofNat', hNat hLow 4294967296 (by omega)]
    omega
  | u64 =>
    cases hRange
    cases h
    refine ⟨rfl, congrArg some ?_⟩
    rw [UInt64.toNat_ofNat', hNat hLow 18446744073709551616 (by omega)]
    omega
  | i8 =>
    cases hRange
    cases h
    exact ⟨rfl, congrArg some (Int8.toInt_ofInt_of_le hLow (by omega))⟩
  | i16 =>
    cases hRange
    cases h
    exact ⟨rfl, congrArg some (Int16.toInt_ofInt_of_le hLow (by omega))⟩
  | i32 =>
    cases hRange
    cases h
    exact ⟨rfl, congrArg some (Int32.toInt_ofInt_of_le hLow (by omega))⟩
  | i64 =>
    cases hRange
    cases h
    exact ⟨rfl, congrArg some (Int64.toInt_ofInt_of_le hLow (by omega))⟩

theorem integerToScalar_eq_ok_iff {kind : ScalarKind} {path : String} {v : Value} {s : Scalar} :
    integerToScalar kind path v = .ok s ↔
      ∃ n : Int64, v = .int n ∧ s.kind = kind ∧ s.integer? = some n.toInt := by
  constructor
  · intro h
    unfold integerToScalar at h
    split at h
    · cases h
    · rename_i n hInt
      have hValue : v = .int n := by cases v <;> cases hInt; rfl
      split at h
      · rename_i low high scalar hRange hScalar
        split at h
        · rename_i hBounds
          cases h
          exact ⟨n, hValue, integer?_integerScalar? hRange hBounds.1 hBounds.2 hScalar⟩
        · cases h
      · cases h
  · rintro ⟨n, rfl, rfl, hInteger⟩
    obtain ⟨low, high, hRange, hScalar, hLow, hHigh⟩ := integerScalar?_integer? hInteger
    simp only [integerToScalar, Value.asInt?, hRange, hScalar, hLow, hHigh, and_self, if_true]

/-- What scripting code may give for a `char` with the given code. -/
inductive CharOctet : Value → UInt8 → Prop where
  | empty {v : Value} : v.textBytes? = some [] → CharOctet v 0
  | single {v : Value} {code : UInt8} : v.textBytes? = some [code] → CharOctet v code
  | code {n : Int64} {code : UInt8} : n.toInt = code.toNat → CharOctet (.int n) code

theorem toScalar_char_eq_ok_iff {path : String} {v : Value} {s : Scalar} :
    toScalar .char path v = .ok s ↔ ∃ code, s = .char code ∧ CharOctet v code := by
  simp only [toScalar]
  constructor
  · intro h
    split at h
    · rename_i hText
      cases h
      exact ⟨0, rfl, .empty hText⟩
    · rename_i code hText
      cases h
      exact ⟨code, rfl, .single hText⟩
    · cases h
    · obtain ⟨n, rfl, hKind, hInteger⟩ := integerToScalar_eq_ok_iff.mp h
      cases s <;> cases hKind
      rename_i code
      exact ⟨code, rfl, .code (Option.some_inj.mp hInteger).symm⟩
  · rintro ⟨code, rfl, hOctet⟩
    cases hOctet with
    | empty hText => rw [hText]
    | single hText => rw [hText]
    | code hCode =>
      exact integerToScalar_eq_ok_iff.mpr ⟨_, rfl, rfl, by rw [hCode]; rfl⟩

theorem utf8_ascii {code : UInt8} (h : code < 128) :
    Text.Utf8.ofString (String.singleton (Char.ofNat code.toNat)) = [code] := by
  have hAscii : code.toNat < 128 := UInt8.lt_iff_toNat_lt.mp h
  have hChar : (Char.ofNat code.toNat).toNat = code.toNat :=
    Text.Utf8.toNat_ofNat (Or.inl (by omega))
  simp [Text.Utf8.ofString, Text.Utf8.encode, Text.Utf8.encodeChar, hChar, hAscii]

theorem charOctet_charValue (code : UInt8) : CharOctet (charValue code) code := by
  unfold charValue
  split
  · rename_i hZero
    subst hZero
    exact .empty rfl
  · split
    · rename_i hAscii
      exact .single (congrArg some (utf8_ascii hAscii))
    · refine .code (Int64.toInt_ofInt_of_le ?_ ?_) <;> have hLt := code.toNat_lt <;> omega

theorem ofScalar_integer {s : Scalar} (hChar : s.kind ≠ .char) {n : Int} (h : s.integer? = some n)
    (path : String) :
    (n < 2 ^ 63 ∧ ∃ m : Int64, m.toInt = n ∧ ofScalar path s = .ok (.int m)) ∨
      (2 ^ 63 ≤ n ∧ s.kind = .u64 ∧
        ofScalar path s = .error (.range path (Text.natural n.toNat) .u64)) := by
  have hUnsigned (k : Nat) (hk : k < 2 ^ 63) : (Int64.ofInt k).toInt = k :=
    Int64.toInt_ofInt_of_le (by omega) (by omega)
  cases s with
  | bool value | f32 value | f64 value => cases h
  | char code => exact absurd rfl hChar
  | u8 value | u16 value | u32 value =>
    cases h
    have hLt := value.toNat_lt
    exact Or.inl ⟨by omega, _, hUnsigned _ (by omega), rfl⟩
  | u64 value =>
    cases h
    by_cases hMax : value.toNat < 2 ^ 63
    · refine Or.inl ⟨by omega, _, hUnsigned _ hMax, if_pos ?_⟩
      have hMaxValue : Int64.maxValue.toInt = 2 ^ 63 - 1 := by decide
      omega
    · refine Or.inr ⟨by omega, rfl, if_neg ?_⟩
      have hMaxValue : Int64.maxValue.toInt = 2 ^ 63 - 1 := by decide
      omega
  | i8 value =>
    cases h
    have hLt := value.toInt_lt
    exact Or.inl ⟨by omega, _, value.toInt_toInt64, rfl⟩
  | i16 value =>
    cases h
    have hLt := value.toInt_lt
    exact Or.inl ⟨by omega, _, value.toInt_toInt64, rfl⟩
  | i32 value =>
    cases h
    have hLt := value.toInt_lt
    exact Or.inl ⟨by omega, _, value.toInt_toInt64, rfl⟩
  | i64 value =>
    cases h
    exact Or.inl ⟨value.toInt_lt, value, rfl, rfl⟩

/-- Only an unsigned number above the signed range has no value. -/
theorem ofScalar_eq_error_iff {path : String} {s : Scalar} :
    (∃ e, ofScalar path s = .error e) ↔ ∃ n, s = .u64 n ∧ 2 ^ 63 ≤ n.toNat := by
  have hMaxValue : Int64.maxValue.toInt = 2 ^ 63 - 1 := by decide
  cases s with
  | u64 value =>
    by_cases hMax : value.toNat < 2 ^ 63
    · have hLe : (value.toNat : Int) ≤ Int64.maxValue.toInt := by omega
      simpa [ofScalar, hLe] using hMax
    · have hGt : ¬ (value.toNat : Int) ≤ Int64.maxValue.toInt := by omega
      simpa [ofScalar, hGt] using Nat.le_of_not_lt hMax
  | _ => simp [ofScalar]

theorem toScalar_widen (x : Binary32) (back : String) :
    toScalar .f32 back (.float x.widen) = .ok (.f32 (Binary32.narrow x.widen)) := by
  have hRange : (x.widen.isFinite && singleLimit < x.widen.magnitude) = false := by
    rw [Bool.and_eq_false_iff]
    by_cases hFinite : x.widen.isFinite = true
    · exact Or.inr (decide_eq_false (Nat.not_lt.mpr (Binary32.magnitude_widen_le hFinite)))
    · exact Or.inl (Bool.eq_false_iff.mpr hFinite)
  simp only [toScalar, Value.asFloat?, hRange, Bool.false_eq_true, if_false]

theorem same_narrow_widen (x : Binary32) :
    (Scalar.f32 x).Same (.f32 (Binary32.narrow x.widen)) := by
  by_cases hNan : x.isNan = true
  · exact Or.inr ⟨_, _, rfl, rfl, hNan, Binary32.isNan_narrow_widen hNan⟩
  · exact Or.inl (by rw [Binary32.narrow_widen (Bool.eq_false_iff.mpr hNan)])

theorem toScalar_ofScalar {path : String} {s : Scalar} {v : Value} (h : ofScalar path s = .ok v)
    (back : String) : ∃ t, toScalar s.kind back v = .ok t ∧ s.Same t ∧ ofScalar path t = .ok v := by
  cases hInteger : s.integer? with
  | none =>
    cases s with
    | bool value =>
      cases h
      exact ⟨.bool value, rfl, Or.inl rfl, rfl⟩
    | f64 value =>
      cases h
      exact ⟨.f64 value, rfl, Or.inl rfl, rfl⟩
    | f32 value =>
      cases h
      refine ⟨.f32 (Binary32.narrow value.widen), toScalar_widen value back,
        same_narrow_widen value, ?_⟩
      simp only [ofScalar, Binary32.widen_narrow_widen]
    | _ => cases hInteger
  | some n =>
    refine ⟨s, ?_, Or.inl rfl, h⟩
    by_cases hChar : s.kind = .char
    · cases s <;> cases hChar
      rename_i code
      cases h
      exact toScalar_char_eq_ok_iff.mpr ⟨code, rfl, charOctet_charValue code⟩
    · have hTaken : toScalar s.kind back v = integerToScalar s.kind back v := by
        cases s with
        | char => exact absurd rfl hChar
        | bool | f32 | f64 => cases hInteger
        | _ => rfl
      rcases ofScalar_integer hChar hInteger path with ⟨-, m, hm, hValue⟩ | ⟨-, -, hError⟩
      · rw [h] at hValue
        cases hValue
        rw [hTaken]
        exact integerToScalar_eq_ok_iff.mpr ⟨m, rfl, rfl, by rw [hm, hInteger]⟩
      · rw [h] at hError
        cases hError

/-- The canonical form of a value given for a scalar of a kind: what scripting code reads back. -/
inductive CanonicalScalar : ScalarKind → Value → Value → Prop where
  | bool {b : Bool} : CanonicalScalar .bool (.bool b) (.bool b)
  | integer {kind : ScalarKind} {n : Int64} : kind.isInteger = true → kind ≠ .char →
      CanonicalScalar kind (.int n) (.int n)
  | charEmpty {v : Value} : CharOctet v 0 → CanonicalScalar .char v (.text "")
  | charText {v : Value} {code : UInt8} : CharOctet v code → 0 < code → code < 128 →
      CanonicalScalar .char v (.text (String.singleton (Char.ofNat code.toNat)))
  | charCode {v : Value} {code : UInt8} {n : Int64} : CharOctet v code → 128 ≤ code →
      n.toInt = code.toNat → CanonicalScalar .char v (.int n)
  | single {v : Value} {x : Binary64} : v.asFloat? = some x →
      CanonicalScalar .f32 v (.float (Binary32.narrow x).widen)
  | double {v : Value} {x : Binary64} : v.asFloat? = some x →
      CanonicalScalar .f64 v (.float x)

theorem canonical_charValue {v : Value} {code : UInt8} (h : CharOctet v code) :
    CanonicalScalar .char v (charValue code) := by
  unfold charValue
  split
  · rename_i hZero
    subst hZero
    exact .charEmpty h
  · rename_i hZero
    split
    · rename_i hAscii
      exact .charText h (UInt8.pos_iff_ne_zero.mpr hZero) hAscii
    · rename_i hAscii
      refine .charCode h (UInt8.not_lt.mp hAscii) (Int64.toInt_ofInt_of_le ?_ ?_) <;>
        have hLt := code.toNat_lt <;> omega

/-- A scalar taken from a value has the kind asked for, and is read back in canonical form. -/
theorem ofScalar_toScalar {kind : ScalarKind} {path : String} {v : Value} {s : Scalar}
    (h : toScalar kind path v = .ok s) (back : String) :
    s.kind = kind ∧ ∃ w, ofScalar back s = .ok w ∧ CanonicalScalar kind v w := by
  have hInteger (hKind : kind.isInteger = true) (hChar : kind ≠ .char)
      (h : integerToScalar kind path v = .ok s) :
      s.kind = kind ∧ ∃ w, ofScalar back s = .ok w ∧ CanonicalScalar kind v w := by
    obtain ⟨n, rfl, hSame, hn⟩ := integerToScalar_eq_ok_iff.mp h
    refine ⟨hSame, .int n, ?_, .integer hKind hChar⟩
    have hLt := n.toInt_lt
    rcases ofScalar_integer (hSame ▸ hChar) hn back with ⟨-, m, hm, hValue⟩ | ⟨hLe, -⟩
    · rwa [Int64.toInt_inj.mp hm] at hValue
    · omega
  cases kind with
  | bool =>
    simp only [toScalar] at h
    split at h
    · rename_i b hBool
      cases h
      have hValue : v = .bool b := by cases v <;> cases hBool; rfl
      exact ⟨rfl, .bool b, rfl, hValue ▸ .bool⟩
    · cases h
  | char =>
    obtain ⟨code, rfl, hOctet⟩ := toScalar_char_eq_ok_iff.mp h
    exact ⟨rfl, charValue code, rfl, canonical_charValue hOctet⟩
  | f32 =>
    simp only [toScalar] at h
    split at h
    · rename_i x hFloat
      split at h
      · cases h
      · cases h
        exact ⟨rfl, _, rfl, .single hFloat⟩
    · cases h
  | f64 =>
    simp only [toScalar] at h
    split at h
    · rename_i x hFloat
      cases h
      exact ⟨rfl, _, rfl, .double hFloat⟩
    · cases h
  | _ => exact hInteger rfl nofun h

end Marshal

end NativeBinding
