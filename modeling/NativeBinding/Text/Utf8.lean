/-! # UTF-8

Characters as octets and back. `decode?` accepts exactly the well-formed sequences; `decodeLossy`
reads any octets and puts one replacement character for each maximal ill-formed piece.
-/

set_option autoImplicit false

namespace NativeBinding.Text.Utf8

def encodeChar (c : Char) : List UInt8 :=
  let n := c.toNat
  let tail (k : Nat) : UInt8 := UInt8.ofNat (0x80 + n / Nat.pow 64 k % 64)
  if n < 0x80 then [UInt8.ofNat n]
  else if n < 0x800 then [UInt8.ofNat (0xC0 + n / 64), tail 0]
  else if n < 0x10000 then [UInt8.ofNat (0xE0 + n / 4096), tail 1, tail 0]
  else [UInt8.ofNat (0xF0 + n / 262144), tail 2, tail 1, tail 0]

def encode (text : List Char) : List UInt8 :=
  text.flatMap encodeChar

def ofString (text : String) : List UInt8 :=
  encode text.toList

/-- What a first octet asks for: how many octets follow, the bits it gives, and the range of the
octet after it. -/
def lead? (b : Nat) : Option (Nat × Nat × Nat × Nat) :=
  if b < 0x80 then some (0, b, 0, 0)
  else if 0xC2 ≤ b ∧ b ≤ 0xDF then some (1, b - 0xC0, 0x80, 0xBF)
  else if b = 0xE0 then some (2, 0, 0xA0, 0xBF)
  else if b = 0xED then some (2, 0xD, 0x80, 0x9F)
  else if 0xE1 ≤ b ∧ b ≤ 0xEF then some (2, b - 0xE0, 0x80, 0xBF)
  else if b = 0xF0 then some (3, 0, 0x90, 0xBF)
  else if 0xF1 ≤ b ∧ b ≤ 0xF3 then some (3, b - 0xF0, 0x80, 0xBF)
  else if b = 0xF4 then some (3, 4, 0x80, 0x8F)
  else none

/-- Reads `count` more octets of a character, the first of them between `low` and `high`. The
answer is the character if it is complete and well formed, and the number of octets used. -/
def readTail : Nat → Nat → Nat → Nat → List UInt8 → Option Char × Nat
  | 0, bits, _, _, _ => (some (Char.ofNat bits), 0)
  | _ + 1, _, _, _, [] => (none, 0)
  | count + 1, bits, low, high, b :: rest =>
    if low ≤ b.toNat ∧ b.toNat ≤ high then
      let (c, used) := readTail count (bits * 64 + (b.toNat - 0x80)) 0x80 0xBF rest
      (c, used + 1)
    else (none, 0)

/-- Reads one character, or one maximal ill-formed piece, and says how many octets follow its
first one. -/
def readChar (b : UInt8) (rest : List UInt8) : Option Char × Nat :=
  match lead? b.toNat with
  | none => (none, 0)
  | some (count, bits, low, high) => readTail count bits low high rest

/-- The pieces of any octet sequence: characters, and `none` for each ill-formed piece. -/
def pieces : List UInt8 → List (Option Char)
  | [] => []
  | b :: rest =>
    let (c, used) := readChar b rest
    c :: pieces (rest.drop used)
termination_by octets => octets.length
decreasing_by simp only [List.length_cons, List.length_drop]; omega

def allChars : List (Option Char) → Option (List Char)
  | [] => some []
  | none :: _ => none
  | some c :: rest => (allChars rest).map (c :: ·)

def decode? (octets : List UInt8) : Option (List Char) :=
  allChars (pieces octets)

/-- The text of any sequence, with U+FFFD for each ill-formed piece. -/
def decodeLossy (octets : List UInt8) : List Char :=
  (pieces octets).map fun piece => piece.getD '\uFFFD'

def toString? (octets : List UInt8) : Option String :=
  (decode? octets).map String.ofList

end NativeBinding.Text.Utf8
