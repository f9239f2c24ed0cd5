import Mathlib.Algebra.Ring.Nat
import NativeBinding.Native.Scalar

/-! # Scalars and their octets

A scalar read from the octets it was written to is the same scalar. The octets of a scalar that was
read come back as they were, except that every true `bool` is written as one.
-/

set_option autoImplicit false

namespace NativeBinding

theorem length_littleEndian (count n : Nat) : (littleEndian count n).length = count := by
  induction count generalizing n with
  | zero => rfl
  | succ count ih => rw [littleEndian, List.length_cons, ih]

theorem ofLittleEndian_littleEndian (count n : Nat) :
    ofLittleEndian (littleEndian count n) = n % 256 ^ count := by
  induction count generalizing n with
  | zero => simp [littleEndian, ofLittleEndian, Nat.mod_one]
  | succ count ih =>
    have hByte : (UInt8.ofNat n).toNat = n % 256 := UInt8.toNat_ofNat'
    rw [littleEndian, ofLittleEndian, ih, hByte, Nat.pow_succ', Nat.mod_mul]

theorem littleEndian_ofLittleEndian (octets : List UInt8) :
    littleEndian octets.length (ofLittleEndian octets) = octets := by
  induction octets with
  | nil => rfl
  | cons b rest ih =>
    have hByte : b.toNat < 256 := b.toNat_lt
    have hLow : UInt8.ofNat (b.toNat + 256 * ofLittleEndian rest) = b := by
      rw [← UInt8.toNat_inj, UInt8.toNat_ofNat']
      omega
    have hHigh : (b.toNat + 256 * ofLittleEndian rest) / 256 = ofLittleEndian rest := by omega
    rw [List.length_cons, littleEndian, ofLittleEndian, hLow, hHigh, ih]

theorem ofLittleEndian_lt (octets : List UInt8) : ofLittleEndian octets < 256 ^ octets.length := by
  induction octets with
  | nil => simp [ofLittleEndian]
  | cons b rest ih =>
    have hByte : b.toNat < 256 := b.toNat_lt
    rw [ofLittleEndian, List.length_cons, Nat.pow_succ]
    omega

namespace Scalar

@[simp] theorem length_write (s : Scalar) : s.write.length = s.kind.size :=
  length_littleEndian _ _

@[simp] theorem kind_ofBits (kind : ScalarKind) (n : Nat) : (ofBits kind n).kind = kind := by
  cases kind <;> rfl

@[simp] theorem kind_read (kind : ScalarKind) (octets : List UInt8) :
    (read kind octets).kind = kind :=
  kind_ofBits _ _

theorem toBits_lt (s : Scalar) : s.toBits < 256 ^ s.kind.size := by
  cases s with
  | bool value => cases value <;> simp [toBits, kind, ScalarKind.size]
  | char code | u8 code => exact code.toNat_lt
  | i8 value => exact value.toUInt8.toNat_lt
  | i16 value => exact value.toUInt16.toNat_lt
  | i32 value => exact value.toUInt32.toNat_lt
  | i64 value => exact value.toUInt64.toNat_lt
  | u16 value | u32 value | u64 value => exact value.toNat_lt
  | f32 value | f64 value => exact value.bits.toNat_lt

theorem ofBits_toBits (s : Scalar) : ofBits s.kind s.toBits = s := by
  cases s with
  | bool value => cases value <;> rfl
  | _ => simp [ofBits, toBits, kind]

theorem read_write (s : Scalar) : read s.kind s.write = s := by
  rw [read, List.take_of_length_le (Nat.le_of_eq s.length_write), write,
    ofLittleEndian_littleEndian, Nat.mod_eq_of_lt s.toBits_lt, ofBits_toBits]

theorem toBits_ofBits {kind : ScalarKind} (hKind : kind ≠ .bool) {n : Nat}
    (h : n < 256 ^ kind.size) : (ofBits kind n).toBits = n := by
  cases kind with
  | bool => exact absurd rfl hKind
  | char | i8 | u8 => exact Nat.mod_eq_of_lt h
  | i16 | u16 => exact Nat.mod_eq_of_lt h
  | i32 | u32 | f32 => exact Nat.mod_eq_of_lt h
  | i64 | u64 | f64 => exact Nat.mod_eq_of_lt h

theorem write_read {kind : ScalarKind} (hKind : kind ≠ .bool) {octets : List UInt8}
    (hLength : octets.length = kind.size) : (read kind octets).write = octets := by
  have hLt := ofLittleEndian_lt octets
  rw [read, List.take_of_length_le (Nat.le_of_eq hLength), write, kind_ofBits,
    toBits_ofBits hKind (hLength ▸ hLt), ← hLength, littleEndian_ofLittleEndian]

theorem write_read_bool (b : UInt8) :
    (read .bool [b]).write = [if b = 0 then 0 else 1] := by
  by_cases hZero : b = 0
  · subst hZero
    decide
  · have hNat : b.toNat ≠ 0 := fun h => hZero (UInt8.toNat_inj.mp h)
    have hRead : read .bool [b] = .bool true := by
      simp [read, ofBits, ofLittleEndian, ScalarKind.size, hNat]
    rw [hRead, if_neg hZero]
    decide

end Scalar

end NativeBinding
