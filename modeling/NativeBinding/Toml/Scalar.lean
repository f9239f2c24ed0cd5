import NativeBinding.Ieee.Text
import NativeBinding.Toml.Basic

/-! # TOML scalars

Strings in their four spellings, and the unquoted scalars: booleans, integers in four bases, floats,
and moments of time, which are only checked. Each string reader answers the text and what follows
its closing quotes.
-/

set_option autoImplicit false

namespace NativeBinding.Toml

open Ieee

/-- Text that was read, with the characters that follow it. -/
abbrev Read := Option (List Char × List Char)

private def cons (c : Char) (read : Read) : Read :=
  read.map fun (chars, rest) => (c :: chars, rest)

private def hexDigit? (c : Char) : Option Nat :=
  if '0' ≤ c ∧ c ≤ '9' then some (c.toNat - 48)
  else if 'a' ≤ c ∧ c ≤ 'f' then some (c.toNat - 87)
  else if 'A' ≤ c ∧ c ≤ 'F' then some (c.toNat - 55)
  else none

/-- The character of a hexadecimal number, unless it is none or a surrogate. -/
def scalarOfHex? (digits : List Char) : Option Char :=
  (digits.mapM hexDigit?).bind fun ds =>
    let n := ds.foldl (fun n d => n * 16 + d) 0
    if n < 0x110000 ∧ !(0xD800 ≤ n ∧ n ≤ 0xDFFF) then some (Char.ofNat n) else none

private def shortEscape? (c : Char) : Option Char :=
  match c with
  | 'b' => some '\x08'
  | 't' => some '\t'
  | 'n' => some '\n'
  | 'f' => some '\x0c'
  | 'r' => some '\r'
  | '"' => some '"'
  | '\\' => some '\\'
  | _ => none

/-- Characters that may stand in a string or a comment: a tab and everything but controls. -/
def isPlain (c : Char) : Bool :=
  c == '\t' || (0x20 ≤ c.toNat && c.toNat != 0x7F)

def basicString : List Char → Read
  | [] => none
  | '"' :: rest => some ([], rest)
  | '\\' :: 'u' :: a :: b :: c :: d :: rest =>
    (scalarOfHex? [a, b, c, d]).bind fun e => cons e (basicString rest)
  | '\\' :: 'U' :: a :: b :: c :: d :: e :: f :: g :: h :: rest =>
    (scalarOfHex? [a, b, c, d, e, f, g, h]).bind fun x => cons x (basicString rest)
  | '\\' :: c :: rest => (shortEscape? c).bind fun d => cons d (basicString rest)
  | c :: rest => if isPlain c then cons c (basicString rest) else none

def literalString : List Char → Read
  | [] => none
  | '\x27' :: rest => some ([], rest)
  | c :: rest => if isPlain c then cons c (literalString rest) else none

/-- Whether white space is being dropped after a backslash at the end of a line. -/
inductive Folding where
  | off
  | beforeLineEnd
  | afterLineEnd

/-- Whether only blanks stand before the next line end. -/
private def blankToLineEnd : List Char → Bool
  | [] => false
  | '\n' :: _ => true
  | '\r' :: '\n' :: _ => true
  | c :: rest => (c == ' ' || c == '\t') && blankToLineEnd rest

/-- The rest of a string between triple double quotes. Up to two quotes may stand before the closing
ones. -/
def basicBlock : Folding → List Char → Read
  | _, [] => none
  | .beforeLineEnd, '\n' :: rest => basicBlock .afterLineEnd rest
  | .beforeLineEnd, _ :: rest => basicBlock .beforeLineEnd rest
  | .afterLineEnd, ' ' :: rest => basicBlock .afterLineEnd rest
  | .afterLineEnd, '\t' :: rest => basicBlock .afterLineEnd rest
  | .afterLineEnd, '\n' :: rest => basicBlock .afterLineEnd rest
  | .afterLineEnd, '\r' :: '\n' :: rest => basicBlock .afterLineEnd rest
  | _, '"' :: '"' :: '"' :: '"' :: '"' :: rest => some (['"', '"'], rest)
  | _, '"' :: '"' :: '"' :: '"' :: rest => some (['"'], rest)
  | _, '"' :: '"' :: '"' :: rest => some ([], rest)
  | _, '\r' :: '\n' :: rest => cons '\n' (basicBlock .off rest)
  | _, '\n' :: rest => cons '\n' (basicBlock .off rest)
  | _, '\\' :: 'u' :: a :: b :: c :: d :: rest =>
    (scalarOfHex? [a, b, c, d]).bind fun e => cons e (basicBlock .off rest)
  | _, '\\' :: 'U' :: a :: b :: c :: d :: e :: f :: g :: h :: rest =>
    (scalarOfHex? [a, b, c, d, e, f, g, h]).bind fun x => cons x (basicBlock .off rest)
  | _, '\\' :: c :: rest =>
    match shortEscape? c with
    | some d => cons d (basicBlock .off rest)
    | none => if blankToLineEnd (c :: rest) then basicBlock (if c == '\n' then .afterLineEnd else
        .beforeLineEnd) rest else none
  | _, c :: rest => if isPlain c then cons c (basicBlock .off rest) else none

def literalBlock : List Char → Read
  | [] => none
  | '\x27' :: '\x27' :: '\x27' :: '\x27' :: '\x27' :: rest => some (['\x27', '\x27'], rest)
  | '\x27' :: '\x27' :: '\x27' :: '\x27' :: rest => some (['\x27'], rest)
  | '\x27' :: '\x27' :: '\x27' :: rest => some ([], rest)
  | '\r' :: '\n' :: rest => cons '\n' (literalBlock rest)
  | '\n' :: rest => cons '\n' (literalBlock rest)
  | c :: rest => if isPlain c then cons c (literalBlock rest) else none

private def dropFirstLineEnd : List Char → List Char
  | '\n' :: rest => rest
  | '\r' :: '\n' :: rest => rest
  | chars => chars

def string? : List Char → Read
  | '"' :: '"' :: '"' :: rest => basicBlock .off (dropFirstLineEnd rest)
  | '"' :: rest => basicString rest
  | '\x27' :: '\x27' :: '\x27' :: rest => literalBlock (dropFirstLineEnd rest)
  | '\x27' :: rest => literalString rest
  | _ => none

private def digitIn? (base : Nat) (c : Char) : Option Nat :=
  (hexDigit? c).bind fun d => if d < base then some d else none

/-- Digits of a base with single underscores between them. -/
def digitRun? (base : Nat) : List Char → Option (List Nat)
  | [] => none
  | [c] => (digitIn? base c).map fun d => [d]
  | c :: '_' :: rest => (digitIn? base c).bind fun d => (digitRun? base rest).map (d :: ·)
  | c :: rest => (digitIn? base c).bind fun d => (digitRun? base rest).map (d :: ·)

private def ofDigits (base : Nat) (ds : List Nat) : Nat :=
  ds.foldl (fun n d => n * base + d) 0

private def plainRun? (chars : List Char) : Option (List Nat) :=
  match digitRun? 10 chars with
  | some (0 :: _ :: _) => none
  | ds => ds

private def splitSign : List Char → Option Bool × List Char
  | '-' :: rest => (some true, rest)
  | '+' :: rest => (some false, rest)
  | chars => (none, chars)

private def based? (base : Nat) (chars : List Char) : Option Toml :=
  (digitRun? base chars).bind fun ds =>
    let n := ofDigits base ds
    if n ≤ Int64.maxValue.toInt then some (int n) else none

/-- An integer of 64 bits: signed decimal, or unsigned in base 16, 8 or 2. -/
def integer? (chars : List Char) : Option Toml :=
  match chars with
  | '0' :: 'x' :: rest => based? 16 rest
  | '0' :: 'o' :: rest => based? 8 rest
  | '0' :: 'b' :: rest => based? 2 rest
  | _ =>
    let (sign, body) := splitSign chars
    (plainRun? body).bind fun ds =>
      let n := ofDigits 10 ds
      if sign = some true then if Int64.minValue.toInt ≤ -n then some (int (-n)) else none
      else if n ≤ Int64.maxValue.toInt then some (int n) else none

private def exponent? (chars : List Char) : Option Int :=
  match chars with
  | [] => some 0
  | _ :: rest =>
    let (sign, body) := splitSign rest
    (digitRun? 10 body).map fun ds =>
      let n : Int := ofDigits 10 ds
      if sign = some true then -n else n

private def isExponentMark (c : Char) : Bool :=
  c == 'e' || c == 'E'

/-- A float: digits with a fraction, an exponent, or both; or one of the named values. A number too
large for the format is refused when it is positive. -/
def float? (chars : List Char) : Option Toml :=
  let (sign, body) := splitSign chars
  let negative := sign = some true
  match String.ofList body with
  | "inf" => some (float (Binary64.infinity negative))
  | "nan" => some (float (Binary64.signed negative Binary64.nan.magnitude))
  | _ =>
    let mantissa := body.takeWhile fun c => !isExponentMark c
    let exponent := body.dropWhile fun c => !isExponentMark c
    let whole := mantissa.takeWhile (· != '.')
    let fraction := mantissa.dropWhile (· != '.')
    if exponent.isEmpty && fraction.isEmpty then none
    else
      (plainRun? whole).bind fun ds =>
        (if fraction.isEmpty then some [] else digitRun? 10 (fraction.drop 1)).bind fun fs =>
          (exponent? exponent).bind fun e =>
            let x := Binary64.ofDecimal negative (ofDigits 10 (ds ++ fs)) (e - fs.length)
            if x.isInfinite && !negative then none else some (float x)

private def number? (count : Nat) (chars : List Char) : Option (Nat × List Char) :=
  let digits := chars.take count
  if digits.length == count then
    (digits.mapM (digitIn? 10)).map fun ds => (ofDigits 10 ds, chars.drop count)
  else none

private def skip? (c : Char) : List Char → Option (List Char)
  | d :: rest => if c == d then some rest else none
  | [] => none

private def isLeapYear (year : Nat) : Bool :=
  (year % 4 == 0 && year % 100 != 0) || year % 400 == 0

private def daysInMonth (year month : Nat) : Nat :=
  if month == 2 then if isLeapYear year then 29 else 28
  else if [4, 6, 9, 11].contains month then 30 else 31

def date? (chars : List Char) : Option (List Char) := do
  let (year, rest) ← number? 4 chars
  let (month, rest) ← number? 2 (← skip? '-' rest)
  let (day, rest) ← number? 2 (← skip? '-' rest)
  if 1 ≤ month && month ≤ 12 && 1 ≤ day && day ≤ daysInMonth year month then some rest else none

def time? (chars : List Char) : Option (List Char) := do
  let (hour, rest) ← number? 2 chars
  let (minute, rest) ← number? 2 (← skip? ':' rest)
  let (second, rest) ← number? 2 (← skip? ':' rest)
  if 23 < hour || 59 < minute || 60 < second then none
  else
    match rest with
    | '.' :: tail =>
      let fraction := tail.takeWhile fun c => (digitIn? 10 c).isSome
      if fraction.isEmpty then none else some (tail.drop fraction.length)
    | _ => some rest

private def offset? (chars : List Char) : Option (List Char) :=
  match chars with
  | [] => some []
  | c :: rest =>
    if c == 'Z' || c == 'z' then some rest
    else if c == '+' || c == '-' then do
      let (hour, rest) ← number? 2 rest
      let (minute, rest) ← number? 2 (← skip? ':' rest)
      if hour ≤ 23 && minute ≤ 59 then some rest else none
    else none

def isMoment (chars : List Char) : Bool :=
  match date? chars with
  | some [] => true
  | some (c :: rest) =>
    (c == 'T' || c == 't' || c == ' ') && ((time? rest).bind offset?).any (·.isEmpty)
  | none => (time? chars).any (·.isEmpty)

def bare? (chars : List Char) : Option Toml :=
  match String.ofList chars with
  | "true" => some (bool true)
  | "false" => some (bool false)
  | _ =>
    if isMoment chars then some moment
    else (float? chars).or (integer? chars)

private def isBareChar (c : Char) : Bool :=
  ('0' ≤ c && c ≤ '9') || ('a' ≤ c && c ≤ 'z') || ('A' ≤ c && c ≤ 'Z') ||
    c == '+' || c == '-' || c == '_' || c == '.' || c == ':'

/-- Splits off an unquoted scalar. A date takes a time of day after one space with it. -/
def bareSplit (chars : List Char) : List Char × List Char :=
  let run := chars.takeWhile isBareChar
  let rest := chars.drop run.length
  match date? run, rest with
  | some [], ' ' :: after =>
    let more := after.takeWhile isBareChar
    if (time? more).isSome then (run ++ ' ' :: more, after.drop more.length) else (run, rest)
  | _, _ => (run, rest)

end NativeBinding.Toml
