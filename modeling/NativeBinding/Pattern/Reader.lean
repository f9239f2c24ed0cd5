import NativeBinding.Pattern.CharClass
import NativeBinding.Text.Numeral

/-! # Reading patterns

The pattern syntax: alternatives of sequences of items, each with repetitions; groups, switches,
classes, escapes and anchors. `Pattern.compile?` is partial on texts outside the syntax and on
patterns whose repetitions grow too large.
-/

set_option autoImplicit false

namespace NativeBinding.Pattern

/-- What a group reads so far: finished alternatives, the items of the current one in reverse, and
whether the last item can be repeated. -/
private structure Branch where
  alternatives : List Pattern := []
  items : List Pattern := []
  repeatable : Bool := false

private def sequence : List Pattern → Pattern
  | [] => .empty
  | [p] => p
  | p :: rest => .seq p (sequence rest)

private def anyOf : List Pattern → Pattern
  | [] => .empty
  | [p] => p
  | p :: rest => .alt p (anyOf rest)

private def Branch.push (b : Branch) (p : Pattern) : Branch :=
  { b with items := p :: b.items, repeatable := true }

private def Branch.next (b : Branch) : Branch :=
  { alternatives := sequence b.items.reverse :: b.alternatives }

private def Branch.finish (b : Branch) : Pattern :=
  anyOf (sequence b.items.reverse :: b.alternatives).reverse

private def Branch.repeatLast? (b : Branch) (least : Nat) (most : Option Nat) : Option Branch :=
  match b.items with
  | p :: items =>
    if b.repeatable then some { b with items := .repeated p least most :: items } else none
  | [] => none

private def literal (s : Switches) (c : Char) : Pattern :=
  .chars (if s.ignoreCase then .fold (.char c) else .char c)

private def dot? (s : Switches) : Option Pattern :=
  if s.ascii then none
  else if s.dotAll then some (.chars .any)
  else if s.crlf then some (.chars (.complement (.union (.char '\n') (.char '\r'))))
  else some (.chars (.complement (.char '\n')))

private def startAnchor (s : Switches) : Anchor :=
  if !s.multiLine then .textStart else if s.crlf then .lineStartCrlf else .lineStart

private def endAnchor (s : Switches) : Anchor :=
  if !s.multiLine then .textEnd else if s.crlf then .lineEndCrlf else .lineEnd

private def decimal? (text : List Char) : Option Nat × List Char :=
  let rest := Text.trimStart text
  let digits := rest.takeWhile Text.isAsciiDigit
  let after := Text.trimStart (rest.drop digits.length)
  if digits.isEmpty then (none, after)
  else (some (Text.digitsValue digits), after)

private def wordOfCount? (n : Nat) : Option Nat :=
  if n < UInt32.size then some n else none

private def counts? (text : List Char) : Option (Nat × Option Nat × List Char) :=
  match decimal? text with
  | (some least, '\x7d' :: rest) => (wordOfCount? least).map fun n => (n, some n, rest)
  | (some least, ',' :: rest) =>
    match decimal? rest with
    | (none, '\x7d' :: rest) => (wordOfCount? least).map fun n => (n, none, rest)
    | (some most, '\x7d' :: rest) => do
      let least ← wordOfCount? least
      let most ← wordOfCount? most
      if least ≤ most then some (least, some most, rest) else none
    | _ => none
  | _ => none

private def dropLazy : List Char → List Char
  | '?' :: rest => rest
  | text => text

/-- Sets one switch on or off. The switch for laziness changes nothing here. -/
private def setSwitch? (s : Switches) (on : Bool) (c : Char) : Option Switches :=
  match c with
  | 'i' => some { s with ignoreCase := on }
  | 'm' => some { s with multiLine := on }
  | 's' => some { s with dotAll := on }
  | 'R' => some { s with crlf := on }
  | 'x' => some { s with verbose := on }
  | 'u' => some { s with ascii := !on }
  | 'U' => some s
  | _ => none

/-- Switches up to a colon or the closing parenthesis: those then set, whether a group follows, and
the text after them. Each letter may stand once, and one must follow a minus sign. -/
private def switches? (s : Switches) (on : Bool) (seen : List Char) (afterMinus : Bool) :
    List Char → Option (Switches × Bool × List Char)
  | [] => none
  | ':' :: rest => if afterMinus then none else some (s, true, rest)
  | ')' :: rest => if afterMinus || seen.isEmpty then none else some (s, false, rest)
  | '-' :: rest => if on then switches? s false ('-' :: seen) true rest else none
  | c :: rest =>
    if seen.contains c then none
    else (setSwitch? s on c).bind fun s => switches? s on (c :: seen) false rest

private def startsGroupName (c : Char) : Bool :=
  c == '_' || CharSet.alphabetic.contains c

private def continuesGroupName (c : Char) : Bool :=
  c == '_' || c == '.' || c == '[' || c == ']' || CharSet.alphabetic.contains c ||
    CharSet.digit.contains c

private def groupName? (text : List Char) : Option (String × List Char) :=
  let name := text.takeWhile (· != '>')
  match name, text.drop name.length with
  | c :: cs, _ :: rest =>
    if startsGroupName c && cs.all continuesGroupName then some (String.ofList name, rest) else none
  | _, _ => none

private inductive Opening where
  | group (s : Switches) (name : Option String)
  | switches (s : Switches)

private def opening? (s : Switches) (text : List Char) : Option (Opening × List Char) :=
  match text with
  | '?' :: 'P' :: '<' :: rest => (groupName? rest).map fun (n, rest) => (.group s (some n), rest)
  | '?' :: '<' :: '=' :: _ => none
  | '?' :: '<' :: '!' :: _ => none
  | '?' :: '<' :: rest => (groupName? rest).map fun (n, rest) => (.group s (some n), rest)
  | '?' :: rest =>
    (switches? s true [] false rest).map fun (s, isGroup, rest) =>
      (if isGroup then .group s none else .switches s, rest)
  | _ => some (.group s none, text)

private def dropBlankAndComments (s : Switches) : Nat → List Char → List Char
  | 0, text => text
  | fuel + 1, text =>
    if !s.verbose then text
    else
      match text with
      | '#' :: rest => dropBlankAndComments s fuel (rest.dropWhile (· != '\n'))
      | c :: rest => if Text.isBlank c then dropBlankAndComments s fuel rest else text
      | [] => []

/-- Reads a group up to its closing parenthesis or the end of the text. `names` are the group names
in use. -/
private def group? (fuel : Nat) (s : Switches) (names : List String) (b : Branch)
    (text : List Char) : Option (Pattern × List String × List Char) :=
  match fuel with
  | 0 => none
  | fuel + 1 =>
    match dropBlankAndComments s text.length text with
    | [] => some (b.finish, names, [])
    | c :: rest =>
      match c with
      | ')' => some (b.finish, names, c :: rest)
      | '|' => group? fuel s names b.next rest
      | '(' =>
        match opening? s rest with
        | none => none
        | some (.switches s, rest) => group? fuel s names { b with repeatable := false } rest
        | some (.group inner name, rest) =>
          if name.any names.contains then none
          else
            match group? fuel inner (name.toList ++ names) {} rest with
            | some (p, names, ')' :: rest) => group? fuel s names (b.push p) rest
            | _ => none
      | '*' => (b.repeatLast? 0 none).bind fun b => group? fuel s names b (dropLazy rest)
      | '+' => (b.repeatLast? 1 none).bind fun b => group? fuel s names b (dropLazy rest)
      | '?' => (b.repeatLast? 0 (some 1)).bind fun b => group? fuel s names b (dropLazy rest)
      | '\x7b' =>
        (counts? rest).bind fun (least, most, rest) =>
          (b.repeatLast? least most).bind fun b => group? fuel s names b (dropLazy rest)
      | '[' =>
        (class? (rest.length + 1) s rest).bind fun (set, rest) =>
          group? fuel s names (b.push (.chars set)) rest
      | '.' => (dot? s).bind fun p => group? fuel s names (b.push p) rest
      | '^' => group? fuel s names (b.push (.anchor (startAnchor s))) rest
      | '$' => group? fuel s names (b.push (.anchor (endAnchor s))) rest
      | '\\' =>
        match escape? s rest with
        | some (.char c, rest) => group? fuel s names (b.push (literal s c)) rest
        | some (.set set, rest) => group? fuel s names (b.push (.chars set)) rest
        | some (.anchor place, rest) => group? fuel s names (b.push (.anchor place)) rest
        | none => none
      | c => group? fuel s names (b.push (literal s c)) rest

/-- Patterns that write out to more tests than this are refused. -/
def weightLimit : Nat := 400000

def compile? (source : String) : Option Pattern :=
  let text := source.toList
  match group? (text.length + 1) {} [] {} text with
  | some (p, _, []) => if p.weight ≤ weightLimit then some p else none
  | _ => none

end NativeBinding.Pattern
