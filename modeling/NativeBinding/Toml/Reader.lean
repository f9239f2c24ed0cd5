import NativeBinding.Toml.Scalar

/-! # Reading TOML documents

Values are read by recursion that consumes at least one character at each call, with the length of
the text as its measure; lines then build the document table by the rules of `Toml.Basic`.
-/

set_option autoImplicit false

namespace NativeBinding.Toml

private def dropBlanks (chars : List Char) : List Char :=
  chars.dropWhile fun c => c == ' ' || c == '\t'

/-- Drops a comment up to its line end; none when it holds a control character. -/
private def dropComment? : List Char → Option (List Char)
  | [] => some []
  | '\n' :: rest => some ('\n' :: rest)
  | '\r' :: '\n' :: rest => some ('\r' :: '\n' :: rest)
  | c :: rest => if isPlain c then dropComment? rest else none

private def dropFiller? : Nat → List Char → Option (List Char)
  | 0, chars => some chars
  | fuel + 1, chars =>
    match dropBlanks chars with
    | '\n' :: rest => dropFiller? fuel rest
    | '\r' :: '\n' :: rest => dropFiller? fuel rest
    | '#' :: rest => (dropComment? rest).bind (dropFiller? fuel)
    | rest => some rest

private def isBareKeyChar (c : Char) : Bool :=
  ('0' ≤ c && c ≤ '9') || ('a' ≤ c && c ≤ 'z') || ('A' ≤ c && c ≤ 'Z') || c == '-' || c == '_'

private def simpleKey? (chars : List Char) : Option (String × List Char) :=
  match chars with
  | '"' :: rest => (basicString rest).map fun (key, rest) => (String.ofList key, rest)
  | '\x27' :: rest => (literalString rest).map fun (key, rest) => (String.ofList key, rest)
  | _ =>
    let key := chars.takeWhile isBareKeyChar
    if key.isEmpty then none else some (String.ofList key, chars.drop key.length)

/-- At most this many containers or key parts lie inside one another. -/
def depthLimit : Nat := 80

/-- A dotted key: the parents, the last part, and what follows the blanks after it. -/
private def key? : Nat → List Char → Option (List String × String × List Char)
  | 0, _ => none
  | fuel + 1, chars => do
    let (name, rest) ← simpleKey? (dropBlanks chars)
    match dropBlanks rest with
    | '.' :: rest =>
      let (parents, last, rest) ← key? fuel rest
      some (name :: parents, last, rest)
    | rest => some ([], name, rest)

mutual

/-- One value, and what follows it. -/
private def value? (fuel depth : Nat) (chars : List Char) : Option (Toml × List Char) :=
  match fuel with
  | 0 => none
  | fuel + 1 =>
    match chars with
    | '[' :: rest => if depth + 1 < depthLimit then items? fuel (depth + 1) [] rest else none
    | '\x7b' :: rest =>
      if depth + 1 < depthLimit then
        match dropBlanks rest with
        | '\x7d' :: rest => some (table .braces [], rest)
        | rest => members? fuel (depth + 1) [] rest
      else none
    | '"' :: _ => (string? chars).map fun (value, rest) => (Toml.text (String.ofList value), rest)
    | '\x27' :: _ =>
      (string? chars).map fun (value, rest) => (Toml.text (String.ofList value), rest)
    | _ =>
      let (run, rest) := bareSplit chars
      (bare? run).map fun value => (value, rest)

/-- The items of an array up to its closing bracket; a comma may stand before it. -/
private def items? (fuel depth : Nat) (done : List Toml) (chars : List Char) :
    Option (Toml × List Char) :=
  match fuel with
  | 0 => none
  | fuel + 1 =>
    match dropFiller? chars.length chars with
    | none => none
    | some (']' :: rest) => some (array done.reverse, rest)
    | some rest =>
      match value? fuel depth rest with
      | none => none
      | some (value, rest) =>
        match dropFiller? rest.length rest with
        | some (',' :: rest) => items? fuel depth (value :: done) rest
        | some (']' :: rest) => some (array (value :: done).reverse, rest)
        | _ => none

/-- The members of a table between braces; no comma may stand before the closing one. -/
private def members? (fuel depth : Nat) (done : Entries) (chars : List Char) :
    Option (Toml × List Char) :=
  match fuel with
  | 0 => none
  | fuel + 1 =>
    match key? depthLimit chars with
    | some (parents, name, '=' :: rest) =>
      match value? fuel depth (dropBlanks rest) with
      | none => none
      | some (value, rest) =>
        match atKey? name value parents done, dropBlanks rest with
        | some done, ',' :: rest => members? fuel depth done rest
        | some done, '\x7d' :: rest => some (table .braces done, rest)
        | _, _ => none
    | _ => none

end

/-- The end of a line: blanks, a comment, and a line end or the end of the text. -/
private def lineEnd? (chars : List Char) : Option (List Char) :=
  match dropBlanks chars with
  | '#' :: rest =>
    (dropComment? rest).map fun rest =>
      match rest with
      | '\n' :: rest => rest
      | '\r' :: '\n' :: rest => rest
      | rest => rest
  | '\n' :: rest => some rest
  | '\r' :: '\n' :: rest => some rest
  | [] => some []
  | _ => none

/-- The document so far, and the header that the next keys belong to. -/
private structure Document where
  root : Entries
  header : List String

private def openTable? (path : List String) (name : String) (root : Entries) : Option Entries :=
  atHeader? (fun parent =>
    match find? name parent with
    | none => some (put name (table .header []) parent)
    | some (table .implied inner) => some (put name (table .header inner) parent)
    | some _ => none) path root

private def addTable? (path : List String) (name : String) (root : Entries) : Option Entries :=
  atHeader? (fun parent =>
    match find? name parent with
    | none => some (put name (tables [[]]) parent)
    | some (tables items) => some (put name (tables (items ++ [[]])) parent)
    | some _ => none) path root

/-- One line that is not blank: a header, a header of a list, or a key with its value. -/
private def line? (doc : Document) (chars : List Char) : Option (Document × List Char) :=
  match chars with
  | '[' :: '[' :: rest =>
    match key? depthLimit rest with
    | some (path, name, ']' :: ']' :: rest) => do
      let root ← addTable? path name doc.root
      let rest ← lineEnd? rest
      some (⟨root, path ++ [name]⟩, rest)
    | _ => none
  | '[' :: rest =>
    match key? depthLimit rest with
    | some (path, name, ']' :: rest) => do
      let root ← openTable? path name doc.root
      let rest ← lineEnd? rest
      some (⟨root, path ++ [name]⟩, rest)
    | _ => none
  | _ =>
    match key? depthLimit chars with
    | some (parents, name, '=' :: rest) => do
      let (value, rest) ← value? (rest.length + 1) 0 (dropBlanks rest)
      let root ← atHeader? (atKey? name value parents) doc.header doc.root
      let rest ← lineEnd? rest
      some (⟨root, doc.header⟩, rest)
    | _ => none

private def lines? : Nat → Document → List Char → Option Entries
  | 0, _, _ => none
  | fuel + 1, doc, chars =>
    match dropFiller? chars.length chars with
    | none => none
    | some [] => some doc.root
    | some rest => (line? doc rest).bind fun (doc, rest) => lines? fuel doc rest

def parse? (source : String) : Option Entries :=
  let chars := match source.toList with
    | '\uFEFF' :: rest => rest
    | chars => chars
  lines? (chars.length + 1) ⟨[], []⟩ chars

end NativeBinding.Toml
