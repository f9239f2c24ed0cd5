import NativeBinding.Ieee.Text
import NativeBinding.Json.Basic
import NativeBinding.Text.Quoted

/-! # JSON text

The compact form, without any white space, and the indented form, two columns a level. In strings
only quotes, backslashes and controls are escaped.
-/

set_option autoImplicit false

namespace NativeBinding.Json

open Ieee Text.Quoted

def encodeChar (c : Char) : List Char :=
  if c == '"' then ['\\', '"']
  else if c == '\\' then ['\\', '\\']
  else if c == '\x08' then ['\\', 'b']
  else if c == '\x0c' then ['\\', 'f']
  else if c == '\n' then ['\\', 'n']
  else if c == '\r' then ['\\', 'r']
  else if c == '\t' then ['\\', 't']
  else if c.toNat < 0x20 then
    ['\\', 'u', '0', '0', hexDigit (c.toNat / 16), hexDigit (c.toNat % 16)]
  else [c]

def stringText (value : String) : List Char :=
  '"' :: value.toList.flatMap encodeChar ++ ['"']

/-- A number's shortest digits; null where there are none. -/
def floatText (x : Binary64) : List Char :=
  if x.isFinite then (x.render .document).toList else ['n', 'u', 'l', 'l']

def separated (separator : List Char) : List (List Char) → List Char
  | [] => []
  | [piece] => piece
  | piece :: rest => piece ++ separator ++ separated separator rest

mutual

def compactChars : Json → List Char
  | null => ['n', 'u', 'l', 'l']
  | bool true => ['t', 'r', 'u', 'e']
  | bool false => ['f', 'a', 'l', 's', 'e']
  | int n => Text.integerChars n
  | float x => floatText x
  | text value => stringText value
  | array items => '[' :: separated [','] (compactItems items) ++ [']']
  | object members => '\x7b' :: separated [','] (compactMembers members) ++ ['\x7d']

def compactItems : List Json → List (List Char)
  | [] => []
  | item :: rest => compactChars item :: compactItems rest

def compactMembers : List (String × Json) → List (List Char)
  | [] => []
  | (name, value) :: rest =>
    (stringText name ++ ':' :: compactChars value) :: compactMembers rest

end

/-- Pieces on lines of their own between two brackets, or the bare brackets when there are none. -/
def bracketed (opening closing : Char) (level : Nat) (pieces : List (List Char)) : List Char :=
  if pieces.isEmpty then [opening, closing]
  else
    let line := '\n' :: List.replicate (2 * (level + 1)) ' '
    opening :: line ++ separated (',' :: line) pieces ++
      '\n' :: List.replicate (2 * level) ' ' ++ [closing]

mutual

/-- The indented form of a value that stands `level` levels deep. -/
def indentedChars (level : Nat) : Json → List Char
  | array items => bracketed '[' ']' level (indentedItems (level + 1) items)
  | object members => bracketed '\x7b' '\x7d' level (indentedMembers (level + 1) members)
  | null => ['n', 'u', 'l', 'l']
  | bool true => ['t', 'r', 'u', 'e']
  | bool false => ['f', 'a', 'l', 's', 'e']
  | int n => Text.integerChars n
  | float x => floatText x
  | text value => stringText value

def indentedItems (level : Nat) : List Json → List (List Char)
  | [] => []
  | item :: rest => indentedChars level item :: indentedItems level rest

def indentedMembers (level : Nat) : List (String × Json) → List (List Char)
  | [] => []
  | (name, value) :: rest =>
    (stringText name ++ ':' :: ' ' :: indentedChars level value) :: indentedMembers level rest

end

def compact (value : Json) : String :=
  String.ofList (compactChars value)

def indented (value : Json) : String :=
  String.ofList (indentedChars 0 value)

end NativeBinding.Json
