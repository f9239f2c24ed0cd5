import NativeBinding.Text.Blank

/-! # Identifiers in generated source

Native names in lower case with underscores between words, and the raw form that a keyword takes.
-/

set_option autoImplicit false

namespace NativeBinding.Source

def keywords : List String :=
  ["as", "async", "await", "break", "const", "continue", "crate", "dyn", "else", "enum", "extern",
   "false", "fn", "for", "if", "impl", "in", "let", "loop", "match", "mod", "move", "mut", "pub",
   "ref", "return", "static", "struct", "super", "trait", "true", "type", "unsafe", "use", "where",
   "while"]

/-- Names that have no raw form. -/
def unspellable : List String :=
  ["_", "crate", "self", "Self", "super"]

def isUpper (c : Char) : Bool :=
  'A' ≤ c && c ≤ 'Z'

def isLower (c : Char) : Bool :=
  'a' ≤ c && c ≤ 'z'

/-- Whether a word begins at a capital: after a small letter or a digit, or at the last capital of a
run that a small letter follows. -/
def beginsWord (before after : Option Char) : Bool :=
  match before with
  | none => false
  | some p =>
    isLower p || Text.isAsciiDigit p || (isUpper p && after.any isLower)

def snakeFrom (before : Option Char) : List Char → List Char
  | [] => []
  | c :: rest =>
    if isUpper c then
      (if beginsWord before rest.head? then ['_'] else []) ++
        Text.lowerAscii c :: snakeFrom (some c) rest
    else c :: snakeFrom (some c) rest

/-- A name in lower case with its words joined by underscores; a run of capitals is one word. -/
def snakeCase (name : String) : String :=
  String.ofList (snakeFrom none name.toList)

def rawIdentifier (name : String) : String :=
  if keywords.contains name then "r#" ++ name else name

def identifier (name : String) : String :=
  rawIdentifier (snakeCase name)

end NativeBinding.Source
