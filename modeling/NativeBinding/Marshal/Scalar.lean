import NativeBinding.Marshal.Error
import NativeBinding.Native.Value

/-! # Scalars and values

How one scalar becomes a scripting value and back. A `char` is text of at most one octet when that
octet is ASCII, and its code otherwise.
-/

set_option autoImplicit false

namespace NativeBinding.Marshal

open Ieee

def charValue (code : UInt8) : Value :=
  if code = 0 then .text ""
  else if code < 128 then .text (String.singleton (Char.ofNat code.toNat))
  else .int (Int64.ofInt code.toNat)

/-- The scripting value of a scalar; only an unsigned 64-bit number can be too large. -/
def ofScalar (path : String) : Scalar → Except MarshalError Value
  | .bool value => .ok (.bool value)
  | .char code => .ok (charValue code)
  | .i8 value => .ok (.int value.toInt64)
  | .i16 value => .ok (.int value.toInt64)
  | .i32 value => .ok (.int value.toInt64)
  | .i64 value => .ok (.int value)
  | .u8 value => .ok (.int (Int64.ofInt value.toNat))
  | .u16 value => .ok (.int (Int64.ofInt value.toNat))
  | .u32 value => .ok (.int (Int64.ofInt value.toNat))
  | .u64 value =>
    if value.toNat ≤ Int64.maxValue.toInt then .ok (.int (Int64.ofInt value.toNat))
    else .error (.range path (Text.natural value.toNat) .u64)
  | .f32 value => .ok (.float value.widen)
  | .f64 value => .ok (.float value)

/-- The magnitude of the greatest finite single-precision number, in double precision. -/
def singleLimit : Nat :=
  0x47EFFFFFE0000000

def mismatch {α : Type} (path : String) (kind : ScalarKind) (value : Value) :
    Except MarshalError α :=
  .error (.typeMismatch path (.scalar kind) value.shape)

def integerScalar? (kind : ScalarKind) (n : Int) : Option Scalar :=
  match kind with
  | .char => some (.char (UInt8.ofNat n.toNat))
  | .i8 => some (.i8 (Int8.ofInt n))
  | .i16 => some (.i16 (Int16.ofInt n))
  | .i32 => some (.i32 (Int32.ofInt n))
  | .i64 => some (.i64 (Int64.ofInt n))
  | .u8 => some (.u8 (UInt8.ofNat n.toNat))
  | .u16 => some (.u16 (UInt16.ofNat n.toNat))
  | .u32 => some (.u32 (UInt32.ofNat n.toNat))
  | .u64 => some (.u64 (UInt64.ofNat n.toNat))
  | .bool | .f32 | .f64 => none

def integerToScalar (kind : ScalarKind) (path : String) (value : Value) :
    Except MarshalError Scalar :=
  match value.asInt? with
  | none => mismatch path kind value
  | some n =>
    match kind.range?, integerScalar? kind n.toInt with
    | some (low, high), some scalar =>
      if low ≤ n.toInt ∧ n.toInt ≤ high then .ok scalar
      else .error (.range path (Text.integer n.toInt) kind)
    | _, _ => mismatch path kind value

def toScalar (kind : ScalarKind) (path : String) (value : Value) : Except MarshalError Scalar :=
  match kind with
  | .bool =>
    match value.asBool? with
    | some b => .ok (.bool b)
    | none => mismatch path kind value
  | .char =>
    match value.textBytes? with
    | some [] => .ok (.char 0)
    | some [b] => .ok (.char b)
    | some octets => .error (.valueTooLong path 1 octets.length)
    | none => integerToScalar kind path value
  | .f32 =>
    match value.asFloat? with
    | some x =>
      if x.isFinite && singleLimit < x.magnitude then
        .error (.range path (x.render .displayed) .f32)
      else .ok (.f32 (Binary32.narrow x))
    | none => mismatch path kind value
  | .f64 =>
    match value.asFloat? with
    | some x => .ok (.f64 x)
    | none => mismatch path kind value
  | _ => integerToScalar kind path value

end NativeBinding.Marshal
