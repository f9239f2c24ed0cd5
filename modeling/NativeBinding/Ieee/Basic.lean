/-! # Binary floating point

IEEE 754 binary numbers as their bits, in exact integer arithmetic. A positive number is
`mantissa * 2 ^ exponent`; `Format.round` is the one place where a value is rounded, to nearest
with ties to even. The two widths in use are `Binary64` and `Binary32`.
-/

set_option autoImplicit false

namespace NativeBinding.Ieee

/-- A binary interchange format: the bits of its stored fraction and of its exponent. -/
structure Format where
  fractionBits : Nat
  exponentBits : Nat
  deriving DecidableEq

namespace Format

def double : Format := ⟨52, 11⟩

def single : Format := ⟨23, 8⟩

variable (fmt : Format)

/-- The exponent of the last place of the smallest numbers. -/
def minExponent : Int :=
  2 - (Nat.pow 2 (fmt.exponentBits - 1) : Nat) - fmt.fractionBits

/-- The bits of positive infinity; every greater magnitude is a NaN. -/
def infinity : Nat :=
  (Nat.pow 2 fmt.exponentBits - 1) * Nat.pow 2 fmt.fractionBits

def signBit : Nat :=
  Nat.pow 2 (fmt.exponentBits + fmt.fractionBits)

/-- The bits of a number, its sign above its magnitude. -/
def pack (negative : Bool) (magnitude : Nat) : Nat :=
  if negative then magnitude + fmt.signBit else magnitude

def quietBit : Nat :=
  Nat.pow 2 (fmt.fractionBits - 1)

def unpack (magnitude : Nat) : Nat × Int :=
  let field := magnitude / Nat.pow 2 fmt.fractionBits
  let fraction := magnitude % Nat.pow 2 fmt.fractionBits
  if field = 0 then (fraction, fmt.minExponent)
  else (fraction + Nat.pow 2 fmt.fractionBits, fmt.minExponent + (field - 1 : Nat))

/-- The nearest integer to `num / den`; a half goes to the even neighbour. -/
def roundQuotient (num den : Nat) : Nat :=
  let quotient := num / den
  let rest := num % den
  if 2 * rest < den then quotient
  else if 2 * rest > den then quotient + 1
  else quotient + quotient % 2

/-- `num / den` in units of `2 ^ exponent`, rounded. -/
def inUnits (num den : Nat) (exponent : Int) : Nat :=
  if 0 ≤ exponent then roundQuotient num (den * Nat.pow 2 exponent.toNat)
  else roundQuotient (num * Nat.pow 2 (-exponent).toNat) den

def atLeastPower (num den : Nat) (exponent : Int) : Bool :=
  if 0 ≤ exponent then den * Nat.pow 2 exponent.toNat ≤ num
  else den ≤ num * Nat.pow 2 (-exponent).toNat

/-- The exponent of the unit in which `num / den` is rounded. -/
def unitExponent (num den : Nat) : Int :=
  let estimate : Int := (num.log2 : Int) - den.log2
  let top := if atLeastPower num den estimate then estimate else estimate - 1
  max fmt.minExponent (top - fmt.fractionBits)

/-- The magnitude nearest to `num / den`, infinity from the greatest finite number's upper
half-unit on. -/
def round (num den : Nat) : Nat :=
  if num = 0 then 0
  else
    let exponent := fmt.unitExponent num den
    let units := inUnits num den exponent
    min fmt.infinity ((exponent - fmt.minExponent).toNat * Nat.pow 2 fmt.fractionBits + units)

end Format

structure Binary64 where
  bits : UInt64
  deriving DecidableEq, Inhabited

structure Binary32 where
  bits : UInt32
  deriving DecidableEq, Inhabited

/-- The value `numerator / denominator` with a sign of its own, so that zero may be negative. -/
structure Fraction where
  negative : Bool
  numerator : Nat
  denominator : Nat
  deriving DecidableEq

namespace Binary64

def signed (negative : Bool) (magnitude : Nat) : Binary64 :=
  ⟨UInt64.ofNat (Format.double.pack negative magnitude)⟩

def isNegative (x : Binary64) : Bool :=
  Format.double.signBit ≤ x.bits.toNat

def magnitude (x : Binary64) : Nat :=
  x.bits.toNat % Format.double.signBit

def isNan (x : Binary64) : Bool :=
  Format.double.infinity < x.magnitude

def isInfinite (x : Binary64) : Bool :=
  x.magnitude = Format.double.infinity

def isFinite (x : Binary64) : Bool :=
  x.magnitude < Format.double.infinity

def nan : Binary64 := ⟨0x7ff8000000000000⟩

def infinity (negative : Bool) : Binary64 :=
  signed negative Format.double.infinity

def zero : Binary64 := ⟨0⟩

def toFraction (x : Binary64) : Fraction :=
  let (mantissa, exponent) := Format.double.unpack x.magnitude
  if 0 ≤ exponent then ⟨x.isNegative, mantissa * Nat.pow 2 exponent.toNat, 1⟩
  else ⟨x.isNegative, mantissa, Nat.pow 2 (-exponent).toNat⟩

def ofFraction (f : Fraction) : Binary64 :=
  signed f.negative (Format.double.round f.numerator f.denominator)

def ofInt (n : Int) : Binary64 :=
  ofFraction ⟨n < 0, n.natAbs, 1⟩

/-- The product of two finite numbers, rounded. -/
def mul (x y : Binary64) : Binary64 :=
  let f := x.toFraction
  let g := y.toFraction
  ofFraction ⟨f.negative != g.negative, f.numerator * g.numerator, f.denominator * g.denominator⟩

/-- The quotient of a finite number by one other than zero, rounded. -/
def div (x y : Binary64) : Binary64 :=
  let f := x.toFraction
  let g := y.toFraction
  ofFraction ⟨f.negative != g.negative, f.numerator * g.denominator, f.denominator * g.numerator⟩

end Binary64

namespace Binary32

def signed (negative : Bool) (magnitude : Nat) : Binary32 :=
  ⟨UInt32.ofNat (Format.single.pack negative magnitude)⟩

def isNegative (x : Binary32) : Bool :=
  Format.single.signBit ≤ x.bits.toNat

def magnitude (x : Binary32) : Nat :=
  x.bits.toNat % Format.single.signBit

def isNan (x : Binary32) : Bool :=
  Format.single.infinity < x.magnitude

def isFinite (x : Binary32) : Bool :=
  x.magnitude < Format.single.infinity

def zero : Binary32 := ⟨0⟩

/-- The same number in double precision. A NaN keeps its payload and becomes quiet. -/
def widen (x : Binary32) : Binary64 :=
  if x.magnitude < Format.single.infinity then
    let (mantissa, exponent) := Format.single.unpack x.magnitude
    if 0 ≤ exponent then Binary64.ofFraction ⟨x.isNegative, mantissa * Nat.pow 2 exponent.toNat, 1⟩
    else Binary64.ofFraction ⟨x.isNegative, mantissa, Nat.pow 2 (-exponent).toNat⟩
  else if x.magnitude = Format.single.infinity then Binary64.infinity x.isNegative
  else
    let payload := x.magnitude % Nat.pow 2 23 % Nat.pow 2 22
    Binary64.signed x.isNegative
      (Format.double.infinity + Format.double.quietBit + payload * Nat.pow 2 29)

/-- The nearest single-precision number. A NaN keeps the upper part of its payload and becomes
quiet. -/
def narrow (x : Binary64) : Binary32 :=
  if x.isFinite then
    let f := x.toFraction
    signed f.negative (Format.single.round f.numerator f.denominator)
  else if x.isInfinite then signed x.isNegative Format.single.infinity
  else
    let payload := x.magnitude % Nat.pow 2 52 / Nat.pow 2 29 % Nat.pow 2 22
    signed x.isNegative (Format.single.infinity + Format.single.quietBit + payload)

end Binary32

end NativeBinding.Ieee
