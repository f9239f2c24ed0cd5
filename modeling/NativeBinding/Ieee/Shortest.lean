import NativeBinding.Ieee.Basic
import NativeBinding.Text.Numeral

/-! # Shortest decimal digits

The fewest decimal digits that still round back to a number, and the nearest such when there is a
choice. An exact tie goes as asked for: to the even digit, or upwards.
-/

set_option autoImplicit false

namespace NativeBinding.Ieee

/-- The number `0.d₁d₂… * 10 ^ point`; the first digit is not zero. -/
structure Decimal where
  digits : List Nat
  point : Int
  deriving DecidableEq

namespace Shortest

/-- A magnitude with the interval of reals that round to it, all over one denominator. -/
structure Target where
  value : Nat
  low : Nat
  high : Nat
  denominator : Nat
  closed : Bool

/-- The interval around a positive magnitude: half a unit on each side, a quarter below a power of
two, with its ends when the mantissa is even. -/
def target (fmt : Format) (magnitude : Nat) : Target :=
  let (mantissa, exponent) := fmt.unpack magnitude
  let below := if mantissa = Nat.pow 2 fmt.fractionBits ∧ fmt.minExponent < exponent then 1 else 2
  let scale := if 0 ≤ exponent then Nat.pow 2 exponent.toNat else 1
  let denominator := if 0 ≤ exponent then 4 else 4 * Nat.pow 2 (-exponent).toNat
  { value := 4 * mantissa * scale
    low := (4 * mantissa - below) * scale
    high := (4 * mantissa + 2) * scale
    denominator := denominator
    closed := mantissa % 2 = 0 }

def Target.admits (t : Target) (count : Nat) (exponent : Int) : Bool :=
  let lhs := if 0 ≤ exponent then count * Nat.pow 10 exponent.toNat * t.denominator
    else count * t.denominator
  let unit := if 0 ≤ exponent then 1 else Nat.pow 10 (-exponent).toNat
  if t.closed then t.low * unit ≤ lhs && lhs ≤ t.high * unit
  else t.low * unit < lhs && lhs < t.high * unit

/-- The least `point` with the value below `10 ^ point`, from an estimate at most a few too low. -/
def pointFrom (t : Target) : Nat → Int → Int
  | 0, point => point
  | fuel + 1, point =>
    let below :=
      if 0 ≤ point then t.value < t.denominator * Nat.pow 10 point.toNat
      else t.value * Nat.pow 10 (-point).toNat < t.denominator
    if below then point else pointFrom t fuel (point + 1)

def point (t : Target) : Int :=
  let top : Int := (t.value.log2 : Int) - t.denominator.log2
  pointFrom t 6 (top * 30103 / 100000 - 1)

/-- Which of two equally near neighbours is taken. -/
inductive Tie where
  | toEven
  | upwards
  deriving DecidableEq

def nearer (tie : Tie) (down rest den : Nat) : Nat :=
  if 2 * rest < den then down
  else if 2 * rest = den ∧ tie = .toEven ∧ down % 2 = 0 then down
  else down + 1

/-- The grid point with `count` digits that rounds back and is nearest, if there is one. -/
def onGrid? (tie : Tie) (t : Target) (point : Int) (count : Nat) : Option Nat :=
  let exponent := point - count
  let num := if 0 ≤ exponent then t.value else t.value * Nat.pow 10 (-exponent).toNat
  let den := if 0 ≤ exponent then t.denominator * Nat.pow 10 exponent.toNat else t.denominator
  let down := num / den
  match t.admits down exponent, t.admits (down + 1) exponent with
  | true, true => some (nearer tie down (num % den) den)
  | true, false => some down
  | false, true => some (down + 1)
  | false, false => none

/-- The first grid from `count` digits on that holds an admissible point. -/
def search (tie : Tie) (t : Target) (point : Int) : Nat → Nat → Nat × Nat
  | 0, count => (t.value, count)
  | fuel + 1, count =>
    match onGrid? tie t point count with
    | some n => (n, count)
    | none => search tie t point fuel (count + 1)

end Shortest

def dropTrailingZeros (digits : List Nat) : List Nat :=
  (digits.reverse.dropWhile (· == 0)).reverse

def Format.shortest (fmt : Format) (tie : Shortest.Tie) (magnitude : Nat) : Decimal :=
  let t := Shortest.target fmt magnitude
  let point := Shortest.point t
  let (n, count) := Shortest.search tie t point 20 1
  let digits := Text.decimalDigits n
  ⟨dropTrailingZeros digits, point + (digits.length - count : Nat)⟩

end NativeBinding.Ieee
