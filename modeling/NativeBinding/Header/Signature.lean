import NativeBinding.Header.TypeSpelling

/-! # Fields and methods

Declarations of struct fields and class methods, read from their header text. A method is cut at
its parameter list; the cuts skip quoted text and count brackets.
-/

set_option autoImplicit false

namespace NativeBinding.Header

structure FieldSignature where
  name : String
  type : TypeSpelling
  deriving DecidableEq, Inhabited

/-- A declared parameter. An unnamed one has the empty name; the default is kept as written. -/
structure ParamSignature where
  name : String
  type : TypeSpelling
  default : Option String := none
  deriving DecidableEq, Inhabited

structure MethodSignature where
  name : String
  returnType : TypeSpelling
  params : List ParamSignature := []
  isVirtual : Bool := false
  isStatic : Bool := false
  isPure : Bool := false
  isConst : Bool := false
  isFinal : Bool := false
  deriving DecidableEq, Inhabited

def isQuote (c : Char) : Bool :=
  c == '"' || c == '\x27'

/-- Cuts at the parenthesis that closes the one already open. `depth` counts the others that are
open, and `quote` is the quote that has to end first. -/
def splitAtClose (depth : Nat) (quote : Option Char) :
    List Char → Option (List Char × List Char)
  | [] => none
  | c :: rest =>
    let keep (depth : Nat) (quote : Option Char) :=
      (splitAtClose depth quote rest).map fun (inner, after) => (c :: inner, after)
    match quote with
    | some q => keep depth (if c == q then none else some q)
    | none =>
      if isQuote c then keep depth (some c)
      else if c == '(' then keep (depth + 1) none
      else if c == ')' then
        match depth with
        | 0 => some ([], rest)
        | depth + 1 => keep depth none
      else keep depth none

def isOpening (c : Char) : Bool :=
  c == '(' || c == '[' || c == '\x7b'

def isClosing (c : Char) : Bool :=
  c == ')' || c == ']' || c == '\x7d'

def splitFrom (delimiter : Char) (depth : Int) (quote : Option Char) (part : List Char) :
    List Char → List (List Char)
  | [] => [part.reverse]
  | c :: rest =>
    match quote with
    | some q => splitFrom delimiter depth (if c == q then none else some q) (c :: part) rest
    | none =>
      if isQuote c then splitFrom delimiter depth (some c) (c :: part) rest
      else if isOpening c then splitFrom delimiter (depth + 1) none (c :: part) rest
      else if isClosing c then splitFrom delimiter (depth - 1) none (c :: part) rest
      else if c == delimiter && depth == 0 then
        part.reverse :: splitFrom delimiter depth none [] rest
      else splitFrom delimiter depth none (c :: part) rest

/-- Splits at each delimiter outside quotes where as many brackets have closed as opened. -/
def splitTopLevel (delimiter : Char) (text : List Char) : List (List Char) :=
  splitFrom delimiter 0 none [] text

/-- Trimmed text without semicolons at its end. -/
def statement (input : String) : List Char :=
  Text.trimEnd (Text.dropEndWhile (· == ';') (Text.trim input.toList))

def FieldSignature.parse (input : String) : Except SignatureError FieldSignature := do
  let (type, name) ← readTypeAndName (statement input)
  if type.isVoid then throw (.voidField name)
  pure ⟨name, type⟩

/-- Reads one parameter; text after a second equals sign is dropped. -/
def readParam (text : List Char) : Except SignatureError ParamSignature := do
  let text := Text.trim text
  if text == ['.', '.', '.'] then throw .variadic
  let pieces := splitTopLevel '=' text
  let declaration := Text.trim (pieces.headD [])
  let default := (pieces[1]?).map fun piece => String.ofList (Text.trim piece)
  let tokens := Token.scan declaration
  if tokens.isEmpty then throw .emptyParameter
  let (type, name) ← readDeclaration tokens
  if type.isVoid then throw .voidParameter
  pure { name := name.getD "", type, default }

/-- Reads the text between the parentheses; nothing and `void` are the empty list. -/
def readParams (text : List Char) : Except SignatureError (List ParamSignature) :=
  let text := Text.trim text
  if text.isEmpty || String.ofList text == "void" then .ok []
  else (splitTopLevel ',' text).mapM readParam

structure Tail where
  isPure : Bool := false
  isConst : Bool := false
  isFinal : Bool := false
  deriving DecidableEq

def dropBody (input : String) (text : List Char) : Except SignatureError (List Char) :=
  if text.contains '\x7b' then
    if text.getLast? == some '\x7d' then .ok (Text.trim (text.takeWhile (· != '\x7b')))
    else .error (.unterminatedBody input)
  else .ok text

/-- Drops a `= 0` at the end, and says whether there was one. -/
def dropPure (text : List Char) : Bool × List Char :=
  match text.reverse with
  | '0' :: before =>
    match before.dropWhile Text.isBlank with
    | '=' :: before => (true, Text.trimEnd before.reverse)
    | _ => (false, text)
  | _ => (false, text)

def readQualifierWords (input : String) (tail : Tail) :
    List (List Char) → Except SignatureError Tail
  | [] => .ok tail
  | word :: rest =>
    match String.ofList word with
    | "const" => readQualifierWords input { tail with isConst := true } rest
    | "final" => readQualifierWords input { tail with isFinal := true } rest
    | "override" => readQualifierWords input tail rest
    | "noexcept" => readQualifierWords input tail rest
    | other => .error (.unexpectedQualifier other input)

def readTail (input : String) (text : List Char) : Except SignatureError Tail := do
  let text ← dropBody input (Text.trim text)
  let (isPure, text) := dropPure text
  readQualifierWords input { isPure } (Text.words text)

inductive Specifier where
  | isVirtual
  | isStatic
  | isInline
  deriving DecidableEq

def Specifier.keyword : Specifier → List Char
  | isVirtual => ['v', 'i', 'r', 't', 'u', 'a', 'l']
  | isStatic => ['s', 't', 'a', 't', 'i', 'c']
  | isInline => ['i', 'n', 'l', 'i', 'n', 'e']

def dropKeyword? (s : Specifier) (text : List Char) : Option (List Char) :=
  match Text.dropLead? s.keyword text with
  | some (c :: rest) => if Text.isBlank c then some (Text.trimStart rest) else none
  | _ => none

theorem length_dropKeyword? {s : Specifier} {text rest : List Char}
    (h : dropKeyword? s text = some rest) : rest.length < text.length := by
  unfold dropKeyword? at h
  split at h
  · rename_i c after hLead
    have hLength := Text.length_dropLead? hLead
    split at h
    · cases h
      have := Text.length_trimStart_le after
      simp only [List.length_cons] at hLength
      omega
    · cases h
  · cases h

/-- The keyword in front of a text, with the text after it. -/
def dropSpecifier? (text : List Char) : Option (Specifier × List Char) :=
  [Specifier.isVirtual, .isStatic, .isInline].findSome? fun s =>
    (dropKeyword? s text).map fun rest => (s, rest)

theorem length_dropSpecifier? {text rest : List Char} {s : Specifier}
    (h : dropSpecifier? text = some (s, rest)) : rest.length < text.length := by
  obtain ⟨t, _, hDrop⟩ := List.exists_of_findSome?_eq_some h
  obtain ⟨r, hRest, hPair⟩ := Option.map_eq_some_iff.mp hDrop
  cases hPair
  exact length_dropKeyword? hRest

def readKeywords (text : List Char) : List Specifier × List Char :=
  match _hDrop : dropSpecifier? text with
  | none => ([], text)
  | some (s, rest) =>
    let (more, rest) := readKeywords rest
    (s :: more, rest)
termination_by text.length
decreasing_by exact length_dropSpecifier? _hDrop

/-- Reads a method declaration such as `virtual int Req(Field *pField, int nId) = 0;`. -/
def MethodSignature.parse (input : String) : Except SignatureError MethodSignature := do
  let text := statement input
  if text.isEmpty then throw .emptyMethod
  let head := text.takeWhile (· != '(')
  match text.dropWhile (· != '(') with
  | [] => throw (.missingOpen input)
  | _ :: afterOpen =>
    match splitAtClose 0 none afterOpen with
    | none => throw (.missingClose input)
    | some (inner, after) =>
      let tail ← readTail input after
      let (keywords, rest) := readKeywords (Text.trim head)
      let (returnType, name) ← readTypeAndName rest
      let params ← readParams inner
      pure
        { name, returnType, params
          isVirtual := keywords.contains .isVirtual
          isStatic := keywords.contains .isStatic
          isPure := tail.isPure
          isConst := tail.isConst
          isFinal := tail.isFinal }

end NativeBinding.Header
