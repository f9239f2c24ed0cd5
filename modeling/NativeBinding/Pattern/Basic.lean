import NativeBinding.Text.Blank
import NativeBinding.Text.CaseFold
import NativeBinding.Text.Category

/-! # Name patterns

Regular expressions over characters: their syntax tree and the positions at which a match can end.
Matching only asks whether some part of a name matches, so repetitions have no preference.
-/

set_option autoImplicit false

namespace NativeBinding

inductive CharSet where
  | none
  | any
  | range (low high : Nat)
  /-- The characters of one general category, or of a group of them. -/
  | category (lead : String)
  | digit
  | blank
  | word
  | lower
  | upper
  | alphabetic
  | union (a b : CharSet)
  | inter (a b : CharSet)
  | complement (a : CharSet)
  /-- All characters that differ in case only from one of the set. -/
  | fold (a : CharSet)
  deriving DecidableEq, Inhabited

namespace CharSet

private def isEnclosed (n : Nat) : Bool :=
  (0x24B6 ≤ n && n ≤ 0x24E9) || (0x1F130 ≤ n && n ≤ 0x1F149) || (0x1F150 ≤ n && n ≤ 0x1F169) ||
    (0x1F170 ≤ n && n ≤ 0x1F189)

private def isLetter (c : Char) : Bool :=
  ["Lu", "Ll", "Lt", "Lm", "Lo", "Nl"].contains (Text.category c) || isEnclosed c.toNat

/-- Letters, marks, decimal digits, connecting punctuation and the two joiners. -/
def isWordChar (c : Char) : Bool :=
  isLetter c || ["Mn", "Mc", "Me", "Nd", "Pc"].contains (Text.category c) ||
    c.toNat == 0x200C || c.toNat == 0x200D

def contains : CharSet → Char → Bool
  | none, _ => false
  | any, _ => true
  | range low high, c => low ≤ c.toNat && c.toNat ≤ high
  | category lead, c => lead.toList.isPrefixOf (Text.category c).toList
  | digit, c => Text.category c == "Nd"
  | blank, c => Text.isBlank c
  | word, c => isWordChar c
  | lower, c => Text.category c == "Ll"
  | upper, c => Text.category c == "Lu"
  | alphabetic, c => isLetter c
  | union a b, c => a.contains c || b.contains c
  | inter a b, c => a.contains c && b.contains c
  | complement a, c => !a.contains c
  | fold a, c => (Text.caseVariants c).any a.contains

def char (c : Char) : CharSet :=
  range c.toNat c.toNat

def difference (a b : CharSet) : CharSet :=
  inter a (complement b)

def symmetricDifference (a b : CharSet) : CharSet :=
  union (difference a b) (difference b a)

def ofRanges : List (Char × Char) → CharSet
  | [] => none
  | [(low, high)] => range low.toNat high.toNat
  | (low, high) :: rest => union (range low.toNat high.toNat) (ofRanges rest)

def asciiDigit : CharSet :=
  ofRanges [('0', '9')]

def asciiBlank : CharSet :=
  ofRanges [('\t', '\r'), (' ', ' ')]

def asciiWord : CharSet :=
  ofRanges [('0', '9'), ('A', 'Z'), ('_', '_'), ('a', 'z')]

end CharSet

inductive Anchor where
  | textStart
  | textEnd
  | lineStart
  | lineEnd
  | lineStartCrlf
  | lineEndCrlf
  | wordBoundary
  | notWordBoundary
  | wordStart
  | wordEnd
  | wordStartHalf
  | wordEndHalf
  deriving DecidableEq

namespace Anchor

private def isWord (c : Option Char) : Bool :=
  c.any CharSet.isWordChar

def holds (anchor : Anchor) (before after : Option Char) : Bool :=
  match anchor with
  | textStart => before.isNone
  | textEnd => after.isNone
  | lineStart => before.isNone || before == some '\n'
  | lineEnd => after.isNone || after == some '\n'
  | lineStartCrlf => before.isNone || before == some '\n' ||
      (before == some '\r' && after != some '\n')
  | lineEndCrlf => after.isNone || after == some '\r' ||
      (after == some '\n' && before != some '\r')
  | wordBoundary => isWord before != isWord after
  | notWordBoundary => isWord before == isWord after
  | wordStart => !isWord before && isWord after
  | wordEnd => isWord before && !isWord after
  | wordStartHalf => !isWord before
  | wordEndHalf => !isWord after

end Anchor

inductive Pattern where
  | empty
  | chars (set : CharSet)
  | anchor (place : Anchor)
  | seq (a b : Pattern)
  | alt (a b : Pattern)
  /-- At least `least` times, and at most `most` times if that is given. -/
  | repeated (a : Pattern) (least : Nat) (most : Option Nat)
  deriving DecidableEq, Inhabited

namespace Pattern

private def step (ends : Nat → List Nat) (positions : List Nat) : List Nat :=
  (positions.flatMap ends).eraseDups

private def exactly (ends : Nat → List Nat) : Nat → List Nat → List Nat
  | 0, positions => positions
  | count + 1, positions =>
    if positions.isEmpty then [] else exactly ends count (step ends positions)

/-- All positions reached in at most the given number of rounds. -/
private def atMost (ends : Nat → List Nat) : Nat → List Nat → List Nat → List Nat
  | 0, seen, _ => seen
  | rounds + 1, seen, frontier =>
    let fresh := (step ends frontier).filter fun p => !seen.contains p
    if fresh.isEmpty then seen else atMost ends rounds (seen ++ fresh) fresh

/-- The positions at which a match that starts at the given one can end. -/
def ends (text : Array Char) : Pattern → Nat → List Nat
  | empty, i => [i]
  | chars set, i =>
    match text[i]? with
    | some c => if set.contains c then [i + 1] else []
    | none => []
  | anchor place, i =>
    let before := if i = 0 then none else text[i - 1]?
    if place.holds before text[i]? then [i] else []
  | seq a b, i => step (ends text b) (ends text a i)
  | alt a b, i => (ends text a i ++ ends text b i).eraseDups
  | repeated a least most, i =>
    let start := exactly (ends text a) least [i]
    let rounds := match most with
      | some most => min (most - least) (text.size + 1)
      | none => text.size + 1
    atMost (ends text a) rounds start start

def isMatch (p : Pattern) (text : String) : Bool :=
  let chars := text.toList.toArray
  (List.range (chars.size + 1)).any fun i => !(ends chars p i).isEmpty

/-- How many character tests a pattern holds once its repetitions are written out. -/
def weight : Pattern → Nat
  | empty => 1
  | chars _ => 1
  | anchor _ => 1
  | seq a b => weight a + weight b
  | alt a b => weight a + weight b
  | repeated a least most => weight a * max 1 (most.getD (least + 1)) + 1

end Pattern

end NativeBinding
