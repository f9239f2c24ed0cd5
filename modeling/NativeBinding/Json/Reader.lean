import NativeBinding.Json.Number

/-! # Reading JSON text

A scanner that turns characters into tokens one at a time, and a reader that folds the tokens over
a stack of open containers. Both are structural; nesting is limited as the format's readers do.
-/

set_option autoImplicit false

namespace NativeBinding.Json

inductive Token where
  | openArray
  | closeArray
  | openObject
  | closeObject
  | colon
  | comma
  | text (value : String)
  | scalar (value : Json)

/-- Where the scanner stands: between tokens, inside a string (with its characters in reverse, and
the escape in progress), or inside a number or a word. -/
inductive Scan where
  | between
  | string (done : List Char)
  | escape (done : List Char)
  | unicode (done : List Char) (high : Option Nat) (count value : Nat)
  | lowBackslash (done : List Char) (high : Nat)
  | lowMarker (done : List Char) (high : Nat)
  | number (done : List Char)
  | word (done : List Char)

def hexValue? (c : Char) : Option Nat :=
  if '0' ≤ c ∧ c ≤ '9' then some (c.toNat - 48)
  else if 'a' ≤ c ∧ c ≤ 'f' then some (c.toNat - 87)
  else if 'A' ≤ c ∧ c ≤ 'F' then some (c.toNat - 55)
  else none

def isNumberChar (c : Char) : Bool :=
  ('0' ≤ c && c ≤ '9') || c == '+' || c == '-' || c == '.' || c == 'e' || c == 'E'

def isWordChar (c : Char) : Bool :=
  'a' ≤ c && c ≤ 'z'

def wordToken? (done : List Char) : Option Token :=
  match String.ofList done.reverse with
  | "true" => some (.scalar (bool true))
  | "false" => some (.scalar (bool false))
  | "null" => some (.scalar null)
  | _ => none

def start? (c : Char) : Option (List Token × Scan) :=
  if c == ' ' || c == '\n' || c == '\t' || c == '\r' then some ([], .between)
  else if c == '[' then some ([.openArray], .between)
  else if c == ']' then some ([.closeArray], .between)
  else if c == '\x7b' then some ([.openObject], .between)
  else if c == '\x7d' then some ([.closeObject], .between)
  else if c == ':' then some ([.colon], .between)
  else if c == ',' then some ([.comma], .between)
  else if c == '"' then some ([], .string [])
  else if isNumberChar c then some ([], .number [c])
  else if isWordChar c then some ([], .word [c])
  else none

def escaped? (c : Char) : Option Char :=
  match c with
  | '"' => some '"'
  | '\\' => some '\\'
  | '/' => some '/'
  | 'b' => some '\x08'
  | 'f' => some '\x0c'
  | 'n' => some '\n'
  | 'r' => some '\r'
  | 't' => some '\t'
  | _ => none

/-- A complete `\u` escape: a character, or the first half of a pair. -/
def unit? (done : List Char) (high : Option Nat) (value : Nat) : Option Scan :=
  let isLow := 0xDC00 ≤ value ∧ value ≤ 0xDFFF
  match high with
  | some h =>
    if isLow then
      some (.string (Char.ofNat (0x10000 + (h - 0xD800) * 1024 + (value - 0xDC00)) :: done))
    else none
  | none =>
    if isLow then none
    else if 0xD800 ≤ value ∧ value ≤ 0xDBFF then some (.lowBackslash done value)
    else some (.string (Char.ofNat value :: done))

/-- Takes one character: the tokens it completes and where the scanner stands after it. -/
def advance? (scan : Scan) (c : Char) : Option (List Token × Scan) :=
  match scan with
  | .between => start? c
  | .string done =>
    if c == '"' then some ([.text (String.ofList done.reverse)], .between)
    else if c == '\\' then some ([], .escape done)
    else if c.toNat < 0x20 then none
    else some ([], .string (c :: done))
  | .escape done =>
    if c == 'u' then some ([], .unicode done none 0 0)
    else (escaped? c).map fun d => ([], .string (d :: done))
  | .unicode done high count value =>
    (hexValue? c).bind fun d =>
      let value := value * 16 + d
      if count == 3 then (unit? done high value).map fun s => ([], s)
      else some ([], .unicode done high (count + 1) value)
  | .lowBackslash done high => if c == '\\' then some ([], .lowMarker done high) else none
  | .lowMarker done high => if c == 'u' then some ([], .unicode done (some high) 0 0) else none
  | .number done =>
    if isNumberChar c then some ([], .number (c :: done))
    else
      match Number.read? done.reverse, start? c with
      | some value, some (tokens, next) => some (.scalar value :: tokens, next)
      | _, _ => none
  | .word done =>
    if isWordChar c then some ([], .word (c :: done))
    else
      match wordToken? done, start? c with
      | some token, some (tokens, next) => some (token :: tokens, next)
      | _, _ => none

def finish? : Scan → Option (List Token)
  | .between => some []
  | .number done => (Number.read? done.reverse).map fun value => [.scalar value]
  | .word done => (wordToken? done).map fun token => [token]
  | _ => none

def scanFrom (scan : Scan) (tokens : List Token) : List Char → Option (List Token)
  | [] => (finish? scan).map (· ++ tokens)
  | c :: rest =>
    match advance? scan c with
    | some (new, next) => scanFrom next (new.reverse ++ tokens) rest
    | none => none

/-- A container that is not closed yet, with what it holds in reverse. -/
inductive Frame where
  | array (items : List Json)
  | object (members : List (String × Json))
  | member (members : List (String × Json)) (name : String)

inductive Expected where
  | value
  | firstItem
  | firstName
  | name
  | colon
  | nextOrClose
  | nothing (value : Json)

structure Reading where
  stack : List Frame
  expected : Expected

/-- At most this many containers are open at once. -/
def depthLimit : Nat := 127

def complete (value : Json) : List Frame → Option Reading
  | [] => some ⟨[], .nothing value⟩
  | .array items :: stack => some ⟨.array (value :: items) :: stack, .nextOrClose⟩
  | .member members name :: stack =>
    some ⟨.object ((name, value) :: members) :: stack, .nextOrClose⟩
  | .object _ :: _ => none

def openFrame (frame : Frame) (expected : Expected) (stack : List Frame) : Option Reading :=
  if stack.length < depthLimit then some ⟨frame :: stack, expected⟩ else none

def valueToken (token : Token) (stack : List Frame) : Option Reading :=
  match token with
  | .text value => complete (text value) stack
  | .scalar value => complete value stack
  | .openArray => openFrame (.array []) .firstItem stack
  | .openObject => openFrame (.object []) .firstName stack
  | _ => none

def take (r : Reading) (token : Token) : Option Reading :=
  match r.expected, token, r.stack with
  | .value, token, stack => valueToken token stack
  | .firstItem, .closeArray, .array items :: stack => complete (array items.reverse) stack
  | .firstItem, token, stack => valueToken token stack
  | .firstName, .closeObject, .object members :: stack => complete (object members.reverse) stack
  | .firstName, .text name, .object members :: stack => some ⟨.member members name :: stack, .colon⟩
  | .name, .text name, .object members :: stack => some ⟨.member members name :: stack, .colon⟩
  | .colon, .colon, stack => some ⟨stack, .value⟩
  | .nextOrClose, .comma, .array items :: stack => some ⟨.array items :: stack, .value⟩
  | .nextOrClose, .comma, .object members :: stack => some ⟨.object members :: stack, .name⟩
  | .nextOrClose, .closeArray, .array items :: stack => complete (array items.reverse) stack
  | .nextOrClose, .closeObject, .object members :: stack =>
    complete (object members.reverse) stack
  | _, _, _ => none

def takeAll (r : Reading) : List Token → Option Json
  | [] =>
    match r.expected with
    | .nothing value => some value
    | _ => none
  | token :: rest => (take r token).bind fun r => takeAll r rest

def parse? (source : String) : Option Json :=
  (scanFrom .between [] source.toList).bind fun tokens => takeAll ⟨[], .value⟩ tokens.reverse

end NativeBinding.Json
