import NativeBinding.Pattern.Basic

/-! # Character classes

Escapes and bracketed classes of the pattern syntax. All readers answer what they read and the
characters after it.
-/

set_option autoImplicit false

namespace NativeBinding.Pattern

/-- The switches that a pattern can set for what follows. -/
structure Switches where
  ignoreCase : Bool := false
  multiLine : Bool := false
  dotAll : Bool := false
  crlf : Bool := false
  verbose : Bool := false
  ascii : Bool := false
  deriving DecidableEq

inductive Escape where
  | char (c : Char)
  | set (value : CharSet)
  | anchor (place : Anchor)

private def hexDigit? (c : Char) : Option Nat :=
  if '0' ≤ c ∧ c ≤ '9' then some (c.toNat - 48)
  else if 'a' ≤ c ∧ c ≤ 'f' then some (c.toNat - 87)
  else if 'A' ≤ c ∧ c ≤ 'F' then some (c.toNat - 55)
  else none

private def scalarOfHex? (digits : List Char) : Option Char :=
  if digits.isEmpty then none
  else
    (digits.mapM hexDigit?).bind fun ds =>
      let n := ds.foldl (fun n d => n * 16 + d) 0
      if n < 0x110000 ∧ !(0xD800 ≤ n ∧ n ≤ 0xDFFF) then some (Char.ofNat n) else none

/-- A hexadecimal escape: so many digits, or any number of them in braces. -/
private def hexEscape? (count : Nat) (text : List Char) : Option (Escape × List Char) :=
  match text with
  | '\x7b' :: rest =>
    let digits := rest.takeWhile (· != '\x7d')
    match rest.drop digits.length with
    | _ :: rest => (scalarOfHex? digits).map fun c => (.char c, rest)
    | [] => none
  | _ =>
    let digits := text.take count
    if digits.length == count then
      (scalarOfHex? digits).map fun c => (.char c, text.drop count)
    else none

private def longCategories : List (String × String) :=
  [("letter", "L"), ("uppercaseletter", "Lu"), ("lowercaseletter", "Ll"),
   ("titlecaseletter", "Lt"), ("modifierletter", "Lm"), ("otherletter", "Lo"), ("mark", "M"),
   ("combiningmark", "M"), ("nonspacingmark", "Mn"), ("spacingmark", "Mc"), ("enclosingmark", "Me"),
   ("number", "N"), ("decimalnumber", "Nd"), ("digit", "Nd"), ("letternumber", "Nl"),
   ("othernumber", "No"), ("punctuation", "P"), ("punct", "P"), ("connectorpunctuation", "Pc"),
   ("dashpunctuation", "Pd"), ("openpunctuation", "Ps"), ("closepunctuation", "Pe"),
   ("initialpunctuation", "Pi"), ("finalpunctuation", "Pf"), ("otherpunctuation", "Po"),
   ("symbol", "S"), ("mathsymbol", "Sm"), ("currencysymbol", "Sc"), ("modifiersymbol", "Sk"),
   ("othersymbol", "So"), ("separator", "Z"), ("spaceseparator", "Zs"), ("lineseparator", "Zl"),
   ("paragraphseparator", "Zp"), ("other", "C"), ("control", "Cc"), ("cntrl", "Cc"),
   ("format", "Cf"), ("surrogate", "Cs"), ("privateuse", "Co"), ("unassigned", "Cn")]

private def shortCategories : List String :=
  ["L", "Lu", "Ll", "Lt", "Lm", "Lo", "M", "Mn", "Mc", "Me", "N", "Nd", "Nl", "No", "P", "Pc", "Pd",
   "Ps", "Pe", "Pi", "Pf", "Po", "S", "Sm", "Sc", "Sk", "So", "Z", "Zs", "Zl", "Zp", "C", "Cc",
   "Cf", "Cs", "Co", "Cn"]

private def looseName (name : List Char) : String :=
  String.ofList
    ((name.filter fun c => !(Text.isBlank c || c == '_' || c == '-')).map Text.lowerAscii)

private def generalCategory? (name : String) : Option CharSet :=
  let short := shortCategories.find? fun s => looseName s.toList == name
  let long := (longCategories.find? fun entry => entry.1 == name).map (·.2)
  match short.or long with
  | some lead => some (.category lead)
  | none =>
    match name with
    | "lc" => some (.union (.category "Lu") (.union (.category "Ll") (.category "Lt")))
    | "casedletter" => some (.union (.category "Lu") (.union (.category "Ll") (.category "Lt")))
    | "any" => some .any
    | "assigned" => some (.complement (.category "Cn"))
    | "ascii" => some (.range 0 0x7F)
    | _ => none

/-- The set of a property, by any of its names. -/
private def property? (name : String) : Option CharSet :=
  match generalCategory? name with
  | some set => some set
  | none =>
    match name with
    | "alphabetic" => some .alphabetic
    | "alpha" => some .alphabetic
    | "lowercase" => some .lower
    | "lower" => some .lower
    | "uppercase" => some .upper
    | "upper" => some .upper
    | "whitespace" => some .blank
    | "wspace" => some .blank
    | "space" => some .blank
    | _ => none

private def foldIf (s : Switches) (set : CharSet) : CharSet :=
  if s.ignoreCase then .fold set else set

private def propertyEscape? (s : Switches) (negated : Bool) (text : List Char) :
    Option (CharSet × List Char) := do
  let (name, rest) ← match text with
    | '\x7b' :: rest =>
      let name := rest.takeWhile (· != '\x7d')
      match rest.drop name.length with
      | _ :: rest => some (name, rest)
      | [] => none
    | c :: rest => some ([c], rest)
    | [] => none
  let key := name.takeWhile fun c => c != '=' && c != ':' && c != '!'
  let (set, negated) ← match name.drop key.length with
    | [] => (property? (looseName name)).map fun set => (set, negated)
    | '!' :: '=' :: value => (keyed? key value).map fun set => (set, !negated)
    | _ :: value => (keyed? key value).map fun set => (set, negated)
  some (if negated then .complement (foldIf s set) else foldIf s set, rest)
where
  keyed? (key value : List Char) : Option CharSet :=
    if ["gc", "generalcategory"].contains (looseName key) then generalCategory? (looseName value)
    else none

private def shortClass? (s : Switches) (c : Char) : Option CharSet :=
  match c with
  | 'd' => some (if s.ascii then .asciiDigit else .digit)
  | 's' => some (if s.ascii then .asciiBlank else .blank)
  | 'w' => some (if s.ascii then .asciiWord else .word)
  | 'D' => if s.ascii then none else some (.complement .digit)
  | 'S' => if s.ascii then none else some (.complement .blank)
  | 'W' => if s.ascii then none else some (.complement .word)
  | _ => none

private def namedBoundary? (text : List Char) : Option (Anchor × List Char) :=
  [("\x7bstart\x7d", Anchor.wordStart), ("\x7bend\x7d", Anchor.wordEnd),
   ("\x7bstart-half\x7d", Anchor.wordStartHalf),
   ("\x7bend-half\x7d", Anchor.wordEndHalf)].findSome? fun entry =>
    (Text.dropLead? entry.1.toList text).map fun rest => (entry.2, rest)

/-- Whether a backslash may stand before a character that has no meaning of its own. -/
private def isEscapable (c : Char) : Bool :=
  c.toNat < 0x80 && !Text.isAsciiLetter c && !Text.isAsciiDigit c && c != '<' && c != '>'

def escape? (s : Switches) (text : List Char) : Option (Escape × List Char) :=
  match text with
  | [] => none
  | c :: rest =>
    match c with
    | 'x' => hexEscape? 2 rest
    | 'u' => hexEscape? 4 rest
    | 'U' => hexEscape? 8 rest
    | 'p' => if s.ascii then none else
        (propertyEscape? s false rest).map fun (set, rest) => (.set set, rest)
    | 'P' => if s.ascii then none else
        (propertyEscape? s true rest).map fun (set, rest) => (.set set, rest)
    | 'a' => some (.char '\x07', rest)
    | 'f' => some (.char '\x0c', rest)
    | 't' => some (.char '\t', rest)
    | 'n' => some (.char '\n', rest)
    | 'r' => some (.char '\r', rest)
    | 'v' => some (.char '\x0b', rest)
    | 'A' => some (.anchor .textStart, rest)
    | 'z' => some (.anchor .textEnd, rest)
    | 'B' => some (.anchor .notWordBoundary, rest)
    | '<' => some (.anchor .wordStart, rest)
    | '>' => some (.anchor .wordEnd, rest)
    | 'b' =>
      match namedBoundary? rest with
      | some (place, rest) => some (.anchor place, rest)
      | none => some (.anchor .wordBoundary, rest)
    | _ =>
      match shortClass? s c with
      | some set => some (.set set, rest)
      | none => if isEscapable c then some (.char c, rest) else none

private def posixRanges : List (String × List (Char × Char)) :=
  [("alnum", [('0', '9'), ('A', 'Z'), ('a', 'z')]), ("alpha", [('A', 'Z'), ('a', 'z')]),
   ("ascii", [('\x00', '\x7f')]), ("blank", [('\t', '\t'), (' ', ' ')]),
   ("cntrl", [('\x00', '\x1f'), ('\x7f', '\x7f')]), ("digit", [('0', '9')]),
   ("graph", [('!', '~')]), ("lower", [('a', 'z')]), ("print", [(' ', '~')]),
   ("punct", [('!', '/'), (':', '@'), ('[', '\x60'), ('\x7b', '~')]),
   ("space", [('\t', '\r'), (' ', ' ')]), ("upper", [('A', 'Z')]),
   ("word", [('0', '9'), ('A', 'Z'), ('_', '_'), ('a', 'z')]),
   ("xdigit", [('0', '9'), ('A', 'F'), ('a', 'f')])]

/-- A class name between colons, from its opening colon on. -/
private def posixClass? (s : Switches) (text : List Char) : Option (CharSet × List Char) :=
  match text with
  | ':' :: rest =>
    let (negated, rest) := match rest with
      | '^' :: r => (true, r)
      | r => (false, r)
    let name := rest.takeWhile (· != ':')
    match rest.drop name.length with
    | ':' :: ']' :: rest =>
      ((posixRanges.find? fun entry => entry.1 == String.ofList name).map (·.2)).map fun ranges =>
        let set := foldIf s (CharSet.ofRanges ranges)
        (if negated then .complement set else set, rest)
    | _ => none
  | _ => none

private def dropVerbose (s : Switches) : List Char → List Char
  | [] => []
  | c :: rest =>
    if !s.verbose then c :: rest
    else if Text.isBlank c then dropVerbose s rest
    else if c == '#' then
      dropVerbose s (rest.dropWhile (· != '\n'))
    else c :: rest
termination_by text => text.length
decreasing_by
  · simp
  · have := (List.dropWhile_suffix (· != '\n') (l := rest)).length_le
    simp only [List.length_cons]
    omega

/-- The text after the hyphens that a class begins with, which stand for themselves. -/
private def dropHyphens (s : Switches) : Nat → List Char → List Char
  | fuel + 1, '-' :: rest => dropHyphens s fuel (dropVerbose s rest)
  | _, text => text

private inductive SetOperator where
  | inter
  | difference
  | symmetricDifference

private def SetOperator.apply : SetOperator → CharSet → CharSet → CharSet
  | inter, a, b => .inter a b
  | difference, a, b => a.difference b
  | symmetricDifference, a, b => a.symmetricDifference b

/-- The class so far: the part left of the last operator, and the part being read. -/
private structure ClassParts where
  left : Option (SetOperator × CharSet) := none
  current : CharSet := .none

private def ClassParts.add (p : ClassParts) (set : CharSet) : ClassParts :=
  { p with current := .union p.current set }

private def ClassParts.value (s : Switches) (p : ClassParts) : CharSet :=
  match p.left with
  | none => foldIf s p.current
  | some (op, left) => op.apply left (foldIf s p.current)

private def ClassParts.operator (s : Switches) (p : ClassParts) (op : SetOperator) : ClassParts :=
  { left := some (op, p.value s) }

/-- One member of a class: a character, or a set by an escape. -/
private def classMember? (s : Switches) (text : List Char) : Option (Escape × List Char) :=
  match text with
  | '\\' :: rest =>
    match escape? s rest with
    | some (.anchor _, _) => none
    | other => other
  | c :: rest => some (.char c, rest)
  | [] => none

mutual

def class? (fuel : Nat) (s : Switches) (text : List Char) : Option (CharSet × List Char) :=
  match fuel with
  | 0 => none
  | fuel + 1 =>
    let (negated, rest) := match dropVerbose s text with
      | '^' :: rest => (true, dropVerbose s rest)
      | rest => (false, rest)
    if negated && s.ascii then none
    else
      match rest with
      | ']' :: rest => members? fuel s negated (({} : ClassParts).add (.char ']')) rest
      | '-' :: _ =>
        members? fuel s negated (({} : ClassParts).add (.char '-')) (dropHyphens s fuel rest)
      | _ => members? fuel s negated {} rest

private def members? (fuel : Nat) (s : Switches) (negated : Bool) (parts : ClassParts)
    (text : List Char) : Option (CharSet × List Char) :=
  match fuel with
  | 0 => none
  | fuel + 1 =>
    match dropVerbose s text with
    | [] => none
    | ']' :: rest =>
      let set := parts.value s
      some (if negated then .complement set else set, rest)
    | '[' :: rest =>
      match posixClass? s rest with
      | some (set, rest) => members? fuel s negated (parts.add set) rest
      | none =>
        match class? fuel s rest with
        | some (set, rest) => members? fuel s negated (parts.add set) rest
        | none => none
    | '&' :: '&' :: rest => members? fuel s negated (parts.operator s .inter) rest
    | '-' :: '-' :: rest => members? fuel s negated (parts.operator s .difference) rest
    | '~' :: '~' :: rest => members? fuel s negated (parts.operator s .symmetricDifference) rest
    | rest =>
      match classMember? s rest with
      | none => none
      | some (first, after) =>
        let high := match dropVerbose s after with
          | '-' :: rest => dropVerbose s rest
          | _ => []
        let isRange := high.head?.any fun c => c != ']' && c != '-'
        if isRange then
          match first, classMember? s high with
          | .char low, some (.char high, rest) =>
            if low ≤ high then
              members? fuel s negated (parts.add (.range low.toNat high.toNat)) rest
            else none
          | _, _ => none
        else
          match first with
          | .char c => members? fuel s negated (parts.add (.char c)) after
          | .set set => members? fuel s negated (parts.add set) after
          | .anchor _ => none

end

end NativeBinding.Pattern
