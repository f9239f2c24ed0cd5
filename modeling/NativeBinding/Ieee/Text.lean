import NativeBinding.Ieee.Shortest

/-! # Numbers as text

One printer for shortest digits under a `Style`, and the three styles of this library: the literal
form of generated source, the plain form of displayed values, and the form of JSON documents. The
reader takes decimal digits and rounds once.
-/

set_option autoImplicit false

namespace NativeBinding.Ieee

/-- How a number is written: without an exponent while its point lies in the given range, and
always or never with a fractional part; with or without a plus sign on an exponent; and which way an
exact tie between two shortest forms goes. -/
structure Style where
  leastPoint : Option Int
  greatestPoint : Option Int
  keepsFraction : Bool
  signsExponent : Bool
  tie : Shortest.Tie

namespace Style

/-- The literal form: plain from `1e-4` up to below `1e16`, always with a fraction there. -/
def literal : Style := ⟨some (-3), some 16, true, false, .upwards⟩

/-- The displayed form: never an exponent, and no fraction for a whole number. -/
def displayed : Style := ⟨none, none, false, false, .upwards⟩

/-- The document form: plain from `1e-5` up to below `1e16`, always with a fraction there. -/
def document : Style := ⟨some (-4), some 16, true, true, .toEven⟩

def isPlain (style : Style) (point : Int) : Bool :=
  style.leastPoint.all (· ≤ point) && style.greatestPoint.all (point ≤ ·)

end Style

def plainText (keepsFraction : Bool) (d : Decimal) : List Char :=
  let digits := d.digits.map Text.digitChar
  let count := digits.length
  if d.point ≤ 0 then
    ['0', '.'] ++ List.replicate (-d.point).toNat '0' ++ digits
  else
    let whole := d.point.toNat
    if count ≤ whole then
      digits ++ List.replicate (whole - count) '0' ++ (if keepsFraction then ['.', '0'] else [])
    else digits.take whole ++ '.' :: digits.drop whole

def scientificText (signsExponent : Bool) (d : Decimal) : List Char :=
  let power := d.point - 1
  let sign := if signsExponent && 0 ≤ power then ['+'] else []
  let exponent := 'e' :: sign ++ Text.integerChars power
  match d.digits.map Text.digitChar with
  | [] => exponent
  | [c] => c :: exponent
  | c :: rest => c :: '.' :: rest ++ exponent

def magnitudeText (fmt : Format) (style : Style) (magnitude : Nat) : List Char :=
  if magnitude = 0 then (if style.keepsFraction then ['0', '.', '0'] else ['0'])
  else
    let d := fmt.shortest style.tie magnitude
    if style.isPlain d.point then plainText style.keepsFraction d
    else scientificText style.signsExponent d

/-- A number in a style; those without digits are `NaN`, `inf` and `-inf`. -/
def Binary64.render (style : Style) (x : Binary64) : String :=
  if x.isNan then "NaN"
  else
    let body := if x.isInfinite then ['i', 'n', 'f'] else
      magnitudeText Format.double style x.magnitude
    String.ofList (if x.isNegative then '-' :: body else body)

/-- The value `digits * 10 ^ exponent`, rounded once. Exponents far outside the range of numbers are
decided without computing the power. -/
def Binary64.ofDecimal (negative : Bool) (digits : Nat) (exponent : Int) : Binary64 :=
  if digits = 0 then signed negative 0
  else
    let top : Int := exponent + (Text.decimalDigits digits).length
    if 400 < top then infinity negative
    else if top < -400 then signed negative 0
    else if 0 ≤ exponent then ofFraction ⟨negative, digits * Nat.pow 10 exponent.toNat, 1⟩
    else ofFraction ⟨negative, digits, Nat.pow 10 (-exponent).toNat⟩

end NativeBinding.Ieee
