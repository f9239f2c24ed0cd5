import NativeBinding.Ieee.Basic
import NativeBinding.Model.TypeRef

/-! # Scalars in memory

A scalar of each kind, its octets in little-endian order, and the zero of each kind.
-/

set_option autoImplicit false

namespace NativeBinding

open Ieee

inductive Scalar where
  | bool (value : Bool)
  | char (code : UInt8)
  | i8 (value : Int8)
  | i16 (value : Int16)
  | i32 (value : Int32)
  | i64 (value : Int64)
  | u8 (value : UInt8)
  | u16 (value : UInt16)
  | u32 (value : UInt32)
  | u64 (value : UInt64)
  | f32 (value : Binary32)
  | f64 (value : Binary64)
  deriving DecidableEq, Inhabited

/-- The least significant octets of a number, the lowest first. -/
def littleEndian : Nat → Nat → List UInt8
  | 0, _ => []
  | count + 1, n => UInt8.ofNat n :: littleEndian count (n / 256)

/-- The number whose octets these are, the lowest first. -/
def ofLittleEndian : List UInt8 → Nat
  | [] => 0
  | b :: rest => b.toNat + 256 * ofLittleEndian rest

namespace Scalar

def kind : Scalar → ScalarKind
  | bool _ => .bool
  | char _ => .char
  | i8 _ => .i8
  | i16 _ => .i16
  | i32 _ => .i32
  | i64 _ => .i64
  | u8 _ => .u8
  | u16 _ => .u16
  | u32 _ => .u32
  | u64 _ => .u64
  | f32 _ => .f32
  | f64 _ => .f64

def zero : ScalarKind → Scalar
  | .bool => bool false
  | .char => char 0
  | .i8 => i8 0
  | .i16 => i16 0
  | .i32 => i32 0
  | .i64 => i64 0
  | .u8 => u8 0
  | .u16 => u16 0
  | .u32 => u32 0
  | .u64 => u64 0
  | .f32 => f32 Binary32.zero
  | .f64 => f64 Binary64.zero

def integer? : Scalar → Option Int
  | char code => some code.toNat
  | i8 value => some value.toInt
  | i16 value => some value.toInt
  | i32 value => some value.toInt
  | i64 value => some value.toInt
  | u8 value => some value.toNat
  | u16 value => some value.toNat
  | u32 value => some value.toNat
  | u64 value => some value.toNat
  | bool _ => none
  | f32 _ => none
  | f64 _ => none

def toBits : Scalar → Nat
  | bool value => if value then 1 else 0
  | char code => code.toNat
  | i8 value => value.toUInt8.toNat
  | i16 value => value.toUInt16.toNat
  | i32 value => value.toUInt32.toNat
  | i64 value => value.toUInt64.toNat
  | u8 value => value.toNat
  | u16 value => value.toNat
  | u32 value => value.toNat
  | u64 value => value.toNat
  | f32 value => value.bits.toNat
  | f64 value => value.bits.toNat

/-- The scalar of a kind with the given bits; every number but zero is true. -/
def ofBits (kind : ScalarKind) (n : Nat) : Scalar :=
  match kind with
  | .bool => bool (n != 0)
  | .char => char (UInt8.ofNat n)
  | .i8 => i8 (UInt8.ofNat n).toInt8
  | .i16 => i16 (UInt16.ofNat n).toInt16
  | .i32 => i32 (UInt32.ofNat n).toInt32
  | .i64 => i64 (UInt64.ofNat n).toInt64
  | .u8 => u8 (UInt8.ofNat n)
  | .u16 => u16 (UInt16.ofNat n)
  | .u32 => u32 (UInt32.ofNat n)
  | .u64 => u64 (UInt64.ofNat n)
  | .f32 => f32 ⟨UInt32.ofNat n⟩
  | .f64 => f64 ⟨UInt64.ofNat n⟩

def write (s : Scalar) : List UInt8 :=
  littleEndian s.kind.size s.toBits

def read (kind : ScalarKind) (octets : List UInt8) : Scalar :=
  ofBits kind (ofLittleEndian (octets.take kind.size))

end Scalar

end NativeBinding
