import NativeBinding.Ieee.Text
import NativeBinding.Json.Basic

/-! # Reading JSON numbers

A whole number of 64 bits keeps its value. Any other number is a significand of at most 64 bits,
taken from the leading digits, scaled by one rounded power of ten; digits past the significand are
dropped.
-/

set_option autoImplicit false

namespace NativeBinding.Json.Number

open Ieee

structure Parts where
  negative : Bool
  whole : List Nat
  fraction : Option (List Nat)
  exponent : Option (Bool × List Nat)

def digit? (c : Char) : Option Nat :=
  if '0' ≤ c ∧ c ≤ '9' then some (c.toNat - 48) else none

def digits : List Char → List Nat × List Char
  | [] => ([], [])
  | c :: rest =>
    match digit? c with
    | some d => let (ds, rest) := digits rest; (d :: ds, rest)
    | none => ([], c :: rest)

def readExponent? (text : List Char) : Option (Option (Bool × List Nat)) :=
  match text with
  | [] => some none
  | c :: rest =>
    if c == 'e' || c == 'E' then
      let (negative, rest) := match rest with
        | '-' :: r => (true, r)
        | '+' :: r => (false, r)
        | r => (false, r)
      match digits rest with
      | (d :: ds, []) => some (some (negative, d :: ds))
      | _ => none
    else none

/-- Splits a whole number text; a leading zero stands alone. -/
def Parts.read? (text : List Char) : Option Parts :=
  let (negative, text) := match text with
    | '-' :: r => (true, r)
    | r => (false, r)
  let (whole, rest) := digits text
  let leading := match whole with
    | [] => false
    | 0 :: _ :: _ => false
    | _ => true
  if !leading then none
  else
    match rest with
    | '.' :: r =>
      let (fraction, r) := digits r
      if fraction.isEmpty then none
      else (readExponent? r).map fun e => ⟨negative, whole, some fraction, e⟩
    | r => (readExponent? r).map fun e => ⟨negative, whole, none, e⟩

def wordLimit : Nat := UInt64.size

/-- The digits that fit into a 64-bit significand, and how many are left over. -/
def significand (n : Nat) : List Nat → Nat × Nat
  | [] => (n, 0)
  | d :: rest =>
    if n * 10 + d < wordLimit then significand (n * 10 + d) rest else (n, rest.length + 1)

/-- The value of an exponent, at most the greatest signed 32-bit number. -/
def exponentValue? (ds : List Nat) : Option Nat :=
  let n : Nat := ds.foldl (fun n d => n * 10 + d) 0
  if n ≤ Int32.maxValue.toInt then some n else none

private def clamp (e : Int) : Int :=
  max Int32.minValue.toInt (min Int32.maxValue.toInt e)

private def power (n : Nat) : Binary64 :=
  Binary64.ofDecimal false 1 n

/-- Divides by `10 ^ 308` while the exponent is below the table of powers. -/
private def scaleDown : Nat → Binary64 → Nat → Binary64
  | 0, x, _ => x
  | fuel + 1, x, exponent =>
    if exponent ≤ 308 then x.div (power exponent)
    else if x.magnitude = 0 then x
    else scaleDown fuel (x.div (power 308)) (exponent - 308)

/-- `significand * 10 ^ exponent`, each factor rounded; none when it is too large. -/
def scale? (negative : Bool) (n : Nat) (exponent : Int) : Option Binary64 :=
  let x := Binary64.ofInt n
  let scaled :=
    if exponent < 0 then some (scaleDown 4 x exponent.natAbs)
    else if exponent.toNat ≤ 308 then
      let y := x.mul (power exponent.toNat)
      if y.isFinite then some y else none
    else if n = 0 then some x
    else none
  scaled.map fun y => Binary64.signed negative y.magnitude

/-- Scales by the written exponent on top of the places already counted. -/
private def withExponent? (p : Parts) (n : Nat) (places : Int) : Option Json :=
  match p.exponent with
  | none => (scale? p.negative n places).map float
  | some (down, ds) =>
    match exponentValue? ds with
    | some e =>
      (scale? p.negative n (clamp (if down then places - e else places + e))).map float
    | none =>
      if n ≠ 0 ∧ !down then none else some (float (Binary64.signed p.negative 0))

def Parts.value? (p : Parts) : Option Json :=
  let (n, dropped) := significand 0 p.whole
  match p.fraction, p.exponent with
  | none, none =>
    if 0 < dropped then withExponent? p n dropped
    else if !p.negative then some (int n)
    else if 0 < n ∧ Int64.minValue.toInt ≤ -n then some (int (-n))
    else some (float (Binary64.signed true (Binary64.ofInt n).magnitude))
  | none, some _ => withExponent? p n dropped
  | some fraction, _ =>
    let (m, unused) := significand n fraction
    withExponent? p m (dropped - (fraction.length - unused : Nat))

def read? (text : List Char) : Option Json :=
  (Parts.read? text).bind Parts.value?

end NativeBinding.Json.Number
