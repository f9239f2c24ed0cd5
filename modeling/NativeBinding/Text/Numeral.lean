import NativeBinding.Text.Blank

/-! # Decimal numerals

Natural numbers and integers in decimal, and the reading of digits. Digits are read back as the
number they were written for.
-/

set_option autoImplicit false

namespace NativeBinding.Text

/-- The decimal digits of a natural number, first digit first. -/
def decimalDigits (n : Nat) : List Nat :=
  if n < 10 then [n] else decimalDigits (n / 10) ++ [n % 10]

def digitChar (d : Nat) : Char :=
  Char.ofNat (48 + d)

def naturalChars (n : Nat) : List Char :=
  (decimalDigits n).map digitChar

def integerChars (n : Int) : List Char :=
  if n < 0 then '-' :: naturalChars n.natAbs else naturalChars n.natAbs

def natural (n : Nat) : String :=
  String.ofList (naturalChars n)

def integer (n : Int) : String :=
  String.ofList (integerChars n)

def digitsValue (digits : List Char) : Nat :=
  digits.foldl (fun n c => n * 10 + (c.toNat - 48)) 0

/-- The value of a text of digits, one at least. -/
def digits? (text : List Char) : Option Nat :=
  if text.isEmpty || !text.all isAsciiDigit then none else some (digitsValue text)

/-- A count of 64 bits, with an optional plus sign. -/
def count? (text : String) : Option Nat :=
  let digits := match text.toList with
    | '+' :: rest => rest
    | chars => chars
  (digits? digits).filter (· < UInt64.size)

theorem toNat_digitChar {d : Nat} (h : d < 10) : (digitChar d).toNat = 48 + d := by
  have hValid : (48 + d).isValidChar := Or.inl (by omega)
  rw [digitChar, Char.ofNat, dif_pos hValid]
  rfl

theorem digitsValue_naturalChars (n : Nat) : digitsValue (naturalChars n) = n := by
  induction n using decimalDigits.induct with
  | case1 n h =>
    simp [naturalChars, decimalDigits, h, digitsValue, toNat_digitChar h]
  | case2 n h ih =>
    have hMod : n % 10 < 10 := Nat.mod_lt _ (by omega)
    rw [naturalChars, decimalDigits, if_neg h, List.map_append]
    simp only [digitsValue, List.foldl_append, List.map_cons, List.map_nil, List.foldl_cons,
      List.foldl_nil, toNat_digitChar hMod]
    rw [show ((decimalDigits (n / 10)).map digitChar).foldl
        (fun n c => n * 10 + (c.toNat - 48)) 0 = n / 10 from ih]
    omega

end NativeBinding.Text
