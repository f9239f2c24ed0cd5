import NativeBinding.Header.Error
import NativeBinding.Header.Token
import NativeBinding.Text.Numeral

/-! # Types as headers spell them

A type before any name in it is looked up: its base spelling, and what the declarator adds to it.
`TypeSpelling.parse` reads one, `TypeSpelling.render` writes its canonical form.
-/

set_option autoImplicit false

namespace NativeBinding.Header

/-- A declared type. The base is the canonical spelling of a built-in type, or a name. Stars are
counted in an octet, so the count starts again after 255 of them. -/
structure TypeSpelling where
  base : String
  isConst : Bool := false
  pointerDepth : UInt8 := 0
  isReference : Bool := false
  arrayLength : Option Nat := none
  deriving DecidableEq, Inhabited

namespace TypeSpelling

def isVoid (type : TypeSpelling) : Bool :=
  type.base == "void" && type.pointerDepth == 0 && !type.isReference

def render (type : TypeSpelling) : String :=
  (if type.isConst then "const " else "") ++ type.base ++
    String.ofList (List.replicate type.pointerDepth.toNat '*') ++
    (if type.isReference then "&" else "") ++
    match type.arrayLength with
    | some n => "[" ++ Text.natural n ++ "]"
    | none => ""

end TypeSpelling

/-- Drops leading `const` and `volatile`, and says whether there was a `const`. -/
def readQualifiers : List Token → Bool × List Token
  | .word "const" :: rest => (true, (readQualifiers rest).2)
  | .word "volatile" :: rest => readQualifiers rest
  | tokens => (false, tokens)

/-- Drops one word that only says what kind of name follows. -/
def dropElaboration : List Token → List Token
  | .word "struct" :: rest => rest
  | .word "class" :: rest => rest
  | .word "enum" :: rest => rest
  | tokens => tokens

def dropInt : List Token → List Token
  | .word "int" :: rest => rest
  | tokens => tokens

/-- The base after `unsigned` or `signed`; a missing one is `int`. -/
def readSigned (isUnsigned : Bool) (tokens : List Token) : String × List Token :=
  let spell (unsignedBase signedBase : String) := if isUnsigned then unsignedBase else signedBase
  match tokens with
  | .word "char" :: rest => (spell "unsigned char" "signed char", rest)
  | .word "short" :: rest => (spell "unsigned short" "short", dropInt rest)
  | .word "int" :: rest => (spell "unsigned int" "int", rest)
  | .word "long" :: .word "long" :: rest => (spell "unsigned long long" "long long", dropInt rest)
  | .word "long" :: rest => (spell "unsigned long" "long", dropInt rest)
  | rest => (spell "unsigned int" "int", rest)

/-- The canonical base spelling at the front of a declaration. -/
def readBase : List Token → Except SignatureError (String × List Token)
  | [] => .error .expectedType
  | .word "unsigned" :: rest => .ok (readSigned true rest)
  | .word "signed" :: rest => .ok (readSigned false rest)
  | .word "long" :: .word "long" :: rest => .ok ("long long", rest)
  | .word "long" :: .word "double" :: rest => .ok ("long double", rest)
  | .word "long" :: rest => .ok ("long", rest)
  | .word "short" :: rest => .ok ("short", dropInt rest)
  | .word name :: rest =>
    if Text.isQualifiedName name then .ok (name, rest) else .error (.invalidTypeName name)
  | token :: _ => .error (.expectedTypeFound token.spelling)

/-- The specifiers of a type: qualifiers, the base, and a `const` after it. -/
def readSpecifiers (tokens : List Token) : Except SignatureError (TypeSpelling × List Token) := do
  let (isConst, tokens) := readQualifiers tokens
  let (base, tokens) ← readBase (dropElaboration tokens)
  match tokens with
  | .word "const" :: rest => pure ({ base, isConst := true }, rest)
  | _ => pure ({ base, isConst }, tokens)

/-- What follows the specifiers: indirections, at most one name, at most one array extent. -/
structure Declarator where
  pointerDepth : UInt8 := 0
  isReference : Bool := false
  name : Option String := none
  arrayLength : Option Nat := none
  deriving DecidableEq

def Declarator.apply (declarator : Declarator) (type : TypeSpelling) : TypeSpelling :=
  { type with
    pointerDepth := type.pointerDepth + declarator.pointerDepth
    isReference := type.isReference || declarator.isReference
    arrayLength := declarator.arrayLength.or type.arrayLength }

def readExtent (token : Token) : Except SignatureError Nat :=
  match Text.count? token.spelling with
  | none => .error (.invalidExtent token.spelling)
  | some 0 => .error .zeroLength
  | some n => .ok n

def readDeclarator (d : Declarator) : List Token → Except SignatureError Declarator
  | [] => .ok d
  | .star :: rest => readDeclarator { d with pointerDepth := d.pointerDepth + 1 } rest
  | .ampersand :: rest => readDeclarator { d with isReference := true } rest
  | .word "const" :: rest => readDeclarator d rest
  | [.openBracket] => .error .missingExtent
  | .openBracket :: extent :: .closeBracket :: rest =>
    if d.arrayLength.isSome then .error .multiDimensional
    else
      match readExtent extent with
      | .ok n => readDeclarator { d with arrayLength := some n } rest
      | .error e => .error e
  | .openBracket :: _ => .error .missingBracket
  | token :: rest =>
    if d.name.isSome || !Text.isQualifiedName token.spelling then
      .error (.unexpectedToken token.spelling)
    else readDeclarator { d with name := some token.spelling } rest

/-- Reads all tokens as one declaration: its type, and its name if it has one. -/
def readDeclaration (tokens : List Token) :
    Except SignatureError (TypeSpelling × Option String) := do
  let (type, rest) ← readSpecifiers tokens
  let declarator ← readDeclarator {} rest
  pure (declarator.apply type, declarator.name)

/-- Reads a type that stands alone, such as `char[11]` or `const char*`. -/
def TypeSpelling.parse (input : String) : Except SignatureError TypeSpelling := do
  let tokens := Token.scan (Text.trim input.toList)
  if tokens.isEmpty then throw .emptyType
  let (type, name) ← readDeclaration tokens
  match name with
  | some name => throw (.nameInType name input)
  | none => pure type

def readTypeAndName (text : List Char) : Except SignatureError (TypeSpelling × String) := do
  let tokens := Token.scan text
  if tokens.isEmpty then throw .emptyTypeAndName
  let (type, name) ← readDeclaration tokens
  match name with
  | some name => pure (type, name)
  | none => throw (.missingName (String.ofList text))

end NativeBinding.Header
