/-! # White space and identifiers

The cuts that declaration text is read by: trimming both ends, splitting at white space, and the
two identifier classes. White space is the Unicode property `White_Space`; identifiers are ASCII.
-/

set_option autoImplicit false

namespace NativeBinding.Text

/-- The Unicode property `White_Space`. -/
def isBlank (c : Char) : Bool :=
  let n := c.toNat
  (9 ≤ n && n ≤ 13) || n == 0x20 || n == 0x85 || n == 0xA0 || n == 0x1680 ||
    (0x2000 ≤ n && n ≤ 0x200A) || n == 0x2028 || n == 0x2029 || n == 0x202F || n == 0x205F ||
    n == 0x3000

def dropEndWhile (p : Char → Bool) (text : List Char) : List Char :=
  (text.reverse.dropWhile p).reverse

def trimStart (text : List Char) : List Char :=
  text.dropWhile isBlank

def trimEnd (text : List Char) : List Char :=
  dropEndWhile isBlank text

def trim (text : List Char) : List Char :=
  trimEnd (trimStart text)

def flushWord (word : List Char) : List (List Char) :=
  if word.isEmpty then [] else [word.reverse]

def wordsFrom (word : List Char) : List Char → List (List Char)
  | [] => flushWord word
  | c :: rest =>
    if isBlank c then flushWord word ++ wordsFrom [] rest else wordsFrom (c :: word) rest

/-- The maximal runs without white space. -/
def words (text : List Char) : List (List Char) :=
  wordsFrom [] text

def isAsciiLetter (c : Char) : Bool :=
  ('a' ≤ c && c ≤ 'z') || ('A' ≤ c && c ≤ 'Z')

def isAsciiDigit (c : Char) : Bool :=
  '0' ≤ c && c ≤ '9'

def startsIdentifier (c : Char) : Bool :=
  isAsciiLetter c || c == '_'

def continuesIdentifier (c : Char) : Bool :=
  isAsciiLetter c || isAsciiDigit c || c == '_'

/-- A C identifier: a letter or underscore, then letters, digits and underscores. -/
def isIdentifier (text : String) : Bool :=
  match text.toList with
  | [] => false
  | c :: rest => startsIdentifier c && rest.all continuesIdentifier

/-- A possibly qualified C++ name: an identifier that may also hold colons after its first
character. -/
def isQualifiedName (text : String) : Bool :=
  match text.toList with
  | [] => false
  | c :: rest => startsIdentifier c && rest.all fun d => continuesIdentifier d || d == ':'

def dropLead? : List Char → List Char → Option (List Char)
  | [], text => some text
  | _ :: _, [] => none
  | l :: lead, c :: rest => if l == c then dropLead? lead rest else none

theorem length_dropLead? {lead text rest : List Char} (h : dropLead? lead text = some rest) :
    rest.length + lead.length = text.length := by
  induction lead generalizing text with
  | nil => simp only [dropLead?, Option.some.injEq] at h; simp [h]
  | cons l lead ih =>
    cases text with
    | nil => simp [dropLead?] at h
    | cons c text =>
      simp only [dropLead?] at h
      split at h
      · have := ih h
        simp only [List.length_cons]
        omega
      · simp at h

theorem length_trimStart_le (text : List Char) : (trimStart text).length ≤ text.length :=
  (List.dropWhile_suffix _).length_le

def contains (part : List Char) : List Char → Bool
  | [] => part.isEmpty
  | c :: rest => part.isPrefixOf (c :: rest) || contains part rest

def lowerAscii (c : Char) : Char :=
  if 'A' ≤ c && c ≤ 'Z' then Char.ofNat (c.toNat + 32) else c

def join (separator : String) : List String → String
  | [] => ""
  | [part] => part
  | part :: rest => part ++ separator ++ join separator rest

end NativeBinding.Text
