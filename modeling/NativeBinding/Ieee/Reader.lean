import NativeBinding.Ieee.Text

/-! # Reading numbers

Decimal numbers with an optional sign, fraction and exponent, and the words for infinity and for
what is not a number. A number is rounded once.
-/

set_option autoImplicit false

namespace NativeBinding.Ieee

def splitSign : List Char → Bool × List Char
  | '-' :: rest => (true, rest)
  | '+' :: rest => (false, rest)
  | text => (false, text)

/-- An integer in decimal: a sign at most, and one digit at least. -/
def integer? (text : List Char) : Option Int :=
  let (negative, digits) := splitSign text
  (Text.digits? digits).map fun n => if negative then -(n : Int) else n

/-- The exponent behind a mantissa; none is zero. -/
def exponent? : List Char → Option Int
  | [] => some 0
  | c :: rest => if c == 'e' || c == 'E' then integer? rest else none

def splitFraction : List Char → List Char × List Char
  | '.' :: rest => (rest.takeWhile Text.isAsciiDigit, rest.dropWhile Text.isAsciiDigit)
  | text => ([], text)

/-- The digits and the power of ten of a number without a sign. At least one digit stands before or
after the point. -/
def decimal? (text : List Char) : Option (Nat × Int) :=
  let whole := text.takeWhile Text.isAsciiDigit
  let (fraction, rest) := splitFraction (text.dropWhile Text.isAsciiDigit)
  if whole.isEmpty && fraction.isEmpty then none
  else (exponent? rest).map fun e => (Text.digitsValue (whole ++ fraction), e - fraction.length)

def Binary64.parse? (text : List Char) : Option Binary64 :=
  let (negative, body) := splitSign text
  match String.ofList (body.map Text.lowerAscii) with
  | "inf" => some (infinity negative)
  | "infinity" => some (infinity negative)
  | "nan" => some (signed negative nan.magnitude)
  | _ => (decimal? body).map fun d => ofDecimal negative d.1 d.2

end NativeBinding.Ieee
