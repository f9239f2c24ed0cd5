import NativeBinding.Text.Blank

/-! # Tokens of a declaration

White space separates words; stars, ampersands and square brackets stand for themselves wherever
they occur.
-/

set_option autoImplicit false

namespace NativeBinding.Header

inductive Token where
  | star
  | ampersand
  | openBracket
  | closeBracket
  | word (text : String)
  deriving DecidableEq

namespace Token

def spelling : Token → String
  | star => "*"
  | ampersand => "&"
  | openBracket => "["
  | closeBracket => "]"
  | word text => text

def ofMark? (c : Char) : Option Token :=
  match c with
  | '*' => some star
  | '&' => some ampersand
  | '[' => some openBracket
  | ']' => some closeBracket
  | _ => none

def flush (word : List Char) : List Token :=
  if word.isEmpty then [] else [Token.word (String.ofList word.reverse)]

def scanFrom (word : List Char) : List Char → List Token
  | [] => flush word
  | c :: rest =>
    if Text.isBlank c then flush word ++ scanFrom [] rest
    else
      match ofMark? c with
      | some mark => flush word ++ mark :: scanFrom [] rest
      | none => scanFrom (c :: word) rest

def scan (text : List Char) : List Token :=
  scanFrom [] text

end Token

end NativeBinding.Header
