import NativeBinding.Header.TypeSpelling
import NativeBinding.Proofs.Ieee.Reading

/-! # Types and names in tokens

Which tokens a declaration of a type is spelled with, and that they are read as this type.
-/

set_option autoImplicit false

namespace NativeBinding

theorem Text.count?_natural {n : Nat} (h : n < UInt64.size) : count? (natural n) = some n := by
  obtain ⟨c, digits, hChars, hDigit⟩ := Ieee.exists_naturalChars n
  have hPlus (rest : List Char) : naturalChars n ≠ '+' :: rest := by
    rw [hChars]
    rintro hEq
    cases hEq
    exact absurd hDigit (by decide)
  rw [count?, natural, String.toList_ofList]
  split
  · exact absurd ‹naturalChars n = _› (hPlus _)
  · rw [digits?_naturalChars]
    simp [h]

namespace Header

/-- Words that mean something of their own in a declaration. A base or a name is none of these. -/
def reserved : List String :=
  ["const", "volatile", "struct", "class", "enum", "unsigned", "signed", "long", "short", "int",
    "double", "virtual", "static", "inline"]

def builtins : List (String × List String) :=
  [("void", ["void"]), ("bool", ["bool"]), ("char", ["char"]), ("signed char", ["signed", "char"]),
    ("unsigned char", ["unsigned", "char"]), ("short", ["short"]),
    ("unsigned short", ["unsigned", "short"]), ("int", ["int"]),
    ("unsigned int", ["unsigned", "int"]), ("long", ["long"]),
    ("unsigned long", ["unsigned", "long"]), ("long long", ["long", "long"]),
    ("unsigned long long", ["unsigned", "long", "long"]), ("float", ["float"]),
    ("double", ["double"]), ("long double", ["long", "double"])]

/-- A name that a declaration may give to what it declares, or use for a type. -/
def IsName (name : String) : Prop :=
  Text.isQualifiedName name = true ∧ name ∉ reserved

instance (name : String) : Decidable (IsName name) :=
  inferInstanceAs (Decidable (_ ∧ _))

inductive SpellsBase : String → List Token → Prop
  | builtin {base words} (hWords : (base, words) ∈ builtins) :
      SpellsBase base (words.map Token.word)
  | name {base} (hName : IsName base) : SpellsBase base [.word base]

namespace TypeSpelling

def indirections (type : TypeSpelling) : List Token :=
  List.replicate type.pointerDepth.toNat .star ++ if type.isReference then [.ampersand] else []

def extent (type : TypeSpelling) : List Token :=
  match type.arrayLength with
  | some n => [.openBracket, .word (Text.natural n), .closeBracket]
  | none => []

/-- The base of a type, with its `const` on either side. -/
inductive SpellsSpecifiers (type : TypeSpelling) : List Token → Prop
  | unqualified {tokens} (hConst : type.isConst = false) (hBase : SpellsBase type.base tokens) :
      SpellsSpecifiers type tokens
  | constBefore {tokens} (hConst : type.isConst = true) (hBase : SpellsBase type.base tokens) :
      SpellsSpecifiers type (.word "const" :: tokens)
  | constAfter {tokens} (hConst : type.isConst = true) (hBase : SpellsBase type.base tokens) :
      SpellsSpecifiers type (tokens ++ [.word "const"])

/-- A type with the name it declares, if any. The array extent stands on either side of the name. -/
inductive SpellsDeclaration (type : TypeSpelling) (name : Option String) : List Token → Prop
  | extentLast {tokens} (hSpecifiers : type.SpellsSpecifiers tokens) :
      SpellsDeclaration type name
        (tokens ++ type.indirections ++ name.toList.map Token.word ++ type.extent)
  | extentFirst {tokens} (hSpecifiers : type.SpellsSpecifiers tokens) :
      SpellsDeclaration type name
        (tokens ++ type.indirections ++ type.extent ++ name.toList.map Token.word)

/-- A type that a declaration can give. -/
structure Declarable (type : TypeSpelling) : Prop where
  base : ∃ tokens, SpellsBase type.base tokens
  counted : ∀ n, type.arrayLength = some n → 0 < n ∧ n < UInt64.size

end TypeSpelling

open TypeSpelling

variable {type : TypeSpelling} {name : Option String} {tokens rest : List Token}

/-- A list of tokens does not go on with one of some words. -/
def Avoids (words : List String) (tokens : List Token) : Prop :=
  ∀ word ∈ words, tokens.head? ≠ some (.word word)

instance (words : List String) (tokens : List Token) : Decidable (Avoids words tokens) :=
  inferInstanceAs (Decidable (∀ word ∈ words, _))

theorem avoids_nil (words : List String) : Avoids words [] := by
  intro _ _ hHead
  cases hHead

theorem avoids_name {words : List String} {name : String} (h : name ∉ words) :
    Avoids words (.word name :: rest) := by
  intro word hWord hHead
  cases hHead
  exact h hWord

theorem Avoids.mono {words more : List String} (hSubset : more ⊆ words) (h : Avoids words tokens) :
    Avoids more tokens :=
  fun word hWord => h word (hSubset hWord)

/-- Words that would go on with a base. -/
def continuing : List String :=
  ["long", "double", "int"]

theorem dropInt_of_avoids (h : Avoids continuing tokens) : dropInt tokens = tokens := by
  unfold dropInt
  split
  · exact absurd rfl (h "int" (by decide))
  · rfl

theorem readSigned_long (isUnsigned : Bool) (h : Avoids continuing tokens) :
    readSigned isUnsigned (.word "long" :: tokens) =
      (if isUnsigned then "unsigned long" else "long", tokens) := by
  have hLong (more : List Token) : tokens ≠ .word "long" :: more := by
    rintro rfl
    exact h "long" (by decide) rfl
  rw [readSigned, dropInt_of_avoids h]
  exact hLong

theorem readBase_long (h : Avoids continuing tokens) :
    readBase (.word "long" :: tokens) = .ok ("long", tokens) := by
  have hLong (more : List Token) : tokens ≠ .word "long" :: more := by
    rintro rfl
    exact h "long" (by decide) rfl
  have hDouble (more : List Token) : tokens ≠ .word "double" :: more := by
    rintro rfl
    exact h "double" (by decide) rfl
  rw [readBase]
  · exact hLong
  · exact hDouble

/-- Words that begin a base of several words, or are short for one. -/
def opening : List String :=
  ["unsigned", "signed", "long", "short"]

theorem readBase_name {base : String} (hName : Text.isQualifiedName base = true)
    (hBase : base ∉ opening) : readBase (.word base :: rest) = .ok (base, rest) := by
  simp only [opening, List.mem_cons, List.not_mem_nil, or_false, not_or] at hBase
  obtain ⟨hUnsigned, hSigned, hLong, hShort⟩ := hBase
  unfold readBase
  split
  · cases ‹Token.word base :: rest = _›
  · cases ‹Token.word base :: rest = _›
    exact absurd rfl hUnsigned
  · cases ‹Token.word base :: rest = _›
    exact absurd rfl hSigned
  · cases ‹Token.word base :: rest = _›
    exact absurd rfl hLong
  · cases ‹Token.word base :: rest = _›
    exact absurd rfl hLong
  · cases ‹Token.word base :: rest = _›
    exact absurd rfl hLong
  · cases ‹Token.word base :: rest = _›
    exact absurd rfl hShort
  · cases ‹Token.word base :: rest = _›
    rw [if_pos hName]
  · rename_i hOther hEq
    cases hEq
    exact absurd rfl (hOther base)

theorem readBase_of_spells {base : String} (hBase : SpellsBase base tokens)
    (hRest : Avoids continuing rest) : readBase (tokens ++ rest) = .ok (base, rest) := by
  have hInt (base : String) :
      (.ok (base, dropInt rest) : Except SignatureError (String × List Token)) =
        .ok (base, rest) := by
    rw [dropInt_of_avoids hRest]
  cases hBase with
  | builtin hWords =>
    simp only [builtins, List.mem_cons, Prod.mk.injEq, List.not_mem_nil, or_false] at hWords
    rcases hWords with ⟨rfl, rfl⟩ | ⟨rfl, rfl⟩ | ⟨rfl, rfl⟩ | ⟨rfl, rfl⟩ | ⟨rfl, rfl⟩ | ⟨rfl, rfl⟩ |
      ⟨rfl, rfl⟩ | ⟨rfl, rfl⟩ | ⟨rfl, rfl⟩ | ⟨rfl, rfl⟩ | ⟨rfl, rfl⟩ | ⟨rfl, rfl⟩ | ⟨rfl, rfl⟩ |
      ⟨rfl, rfl⟩ | ⟨rfl, rfl⟩ | ⟨rfl, rfl⟩
    · exact readBase_name (by decide) (by decide)
    · exact readBase_name (by decide) (by decide)
    · exact readBase_name (by decide) (by decide)
    · rfl
    · rfl
    · exact hInt "short"
    · exact hInt "unsigned short"
    · exact readBase_name (by decide) (by decide)
    · rfl
    · exact readBase_long hRest
    · exact congrArg Except.ok (readSigned_long true hRest)
    · rfl
    · exact hInt "unsigned long long"
    · exact readBase_name (by decide) (by decide)
    · exact readBase_name (by decide) (by decide)
    · rfl
  | name hName =>
    refine readBase_name hName.1 fun hMem => hName.2 ?_
    have hSubset : opening ⊆ reserved := by decide
    exact hSubset hMem

/-- Words that are read in front of a base and are no part of it. -/
def qualifying : List String :=
  ["const", "volatile", "struct", "class", "enum"]

/-- Words that may stand in front of the base of a return type. -/
def leading : List String :=
  qualifying ++ ["virtual", "static", "inline"]

theorem SpellsBase.exists_first {base : String} (hBase : SpellsBase base tokens) :
    ∃ first more, tokens = .word first :: more ∧ first ∉ leading := by
  rcases hBase with hWords | hName
  · rename_i words
    have hAll : ∀ entry ∈ builtins, entry.2 ≠ [] ∧ ∀ first ∈ entry.2.head?, first ∉ leading := by
      decide
    obtain ⟨hSome, hFirst⟩ := hAll _ hWords
    cases words with
    | nil => exact absurd rfl hSome
    | cons first more => exact ⟨first, more.map .word, rfl, hFirst first rfl⟩
  · have hSubset : leading ⊆ reserved := by decide
    exact ⟨base, [], rfl, fun hMem => hName.2 (hSubset hMem)⟩

theorem TypeSpelling.SpellsDeclaration.exists_first (h : type.SpellsDeclaration name tokens) :
    ∃ first more, tokens = .word first :: more ∧ first ∉ ["virtual", "static", "inline"] := by
  have hLeading : ["virtual", "static", "inline"] ⊆ leading := by decide
  have hSpecifiers {tokens : List Token} (h : type.SpellsSpecifiers tokens) (rest : List Token) :
      ∃ first more, tokens ++ rest = .word first :: more ∧
        first ∉ ["virtual", "static", "inline"] := by
    cases h with
    | unqualified _ hBase =>
      obtain ⟨first, more, rfl, hFirst⟩ := hBase.exists_first
      exact ⟨first, more ++ rest, rfl, fun hMem => hFirst (hLeading hMem)⟩
    | @constBefore tokens _ hBase => exact ⟨"const", tokens ++ rest, rfl, by decide⟩
    | constAfter _ hBase =>
      obtain ⟨first, more, rfl, hFirst⟩ := hBase.exists_first
      exact ⟨first, _, rfl, fun hMem => hFirst (hLeading hMem)⟩
  cases h with
  | extentLast h =>
    rw [List.append_assoc, List.append_assoc]
    exact hSpecifiers h _
  | extentFirst h =>
    rw [List.append_assoc, List.append_assoc]
    exact hSpecifiers h _

theorem readQualifiers_of_avoids (h : Avoids qualifying tokens) :
    readQualifiers tokens = (false, tokens) := by
  unfold readQualifiers
  split
  · exact absurd rfl (h "const" (by decide))
  · exact absurd rfl (h "volatile" (by decide))
  · rfl

theorem dropElaboration_of_avoids (h : Avoids qualifying tokens) :
    dropElaboration tokens = tokens := by
  unfold dropElaboration
  split
  · exact absurd rfl (h "struct" (by decide))
  · exact absurd rfl (h "class" (by decide))
  · exact absurd rfl (h "enum" (by decide))
  · rfl

/-- Tokens that are read as a base, whatever stands behind them. -/
structure ReadsBase (base : String) (tokens : List Token) : Prop where
  read : ∀ rest, Avoids continuing rest → readBase (tokens ++ rest) = .ok (base, rest)
  front : ∀ rest, Avoids qualifying (tokens ++ rest)

theorem SpellsBase.readsBase {base : String} (hBase : SpellsBase base tokens) :
    ReadsBase base tokens where
  read _ hRest := readBase_of_spells hBase hRest
  front rest := by
    have hSubset : qualifying ⊆ leading := List.subset_append_left _ _
    obtain ⟨first, more, rfl, hFirst⟩ := hBase.exists_first
    exact avoids_name fun hMem => hFirst (hSubset hMem)

section Specifiers

variable {base : String} {isConst : Bool} {input : List Token}

theorem readSpecifiers_of_readBase (hFront : readQualifiers input = (isConst, tokens))
    (hFree : Avoids qualifying tokens) (hBase : readBase tokens = .ok (base, rest))
    (hRest : Avoids ["const"] rest) : readSpecifiers input = .ok ({ base, isConst }, rest) := by
  rw [readSpecifiers, hFront]
  simp only [dropElaboration_of_avoids hFree, hBase, bind, Except.bind]
  split
  · exact absurd rfl (hRest "const" List.mem_cons_self)
  · rfl

theorem readSpecifiers_base (hFront : readQualifiers input = (isConst, tokens ++ rest))
    (hBase : ReadsBase base tokens) (hRest : Avoids ("const" :: continuing) rest) :
    readSpecifiers input = .ok ({ base, isConst }, rest) :=
  readSpecifiers_of_readBase hFront (hBase.front rest)
    (hBase.read rest (hRest.mono (List.subset_cons_self _ _)))
    (hRest.mono (List.cons_subset_cons _ (List.nil_subset _)))

theorem readSpecifiers_const (hFront : readQualifiers input =
    (isConst, tokens ++ .word "const" :: rest)) (hBase : ReadsBase base tokens) :
    readSpecifiers input = .ok ({ base, isConst := true }, rest) := by
  have hRead : readBase (dropElaboration (tokens ++ .word "const" :: rest)) =
      .ok (base, .word "const" :: rest) := by
    rw [dropElaboration_of_avoids (hBase.front _)]
    exact hBase.read _ (avoids_name (by decide))
  rw [readSpecifiers, hFront]
  simp only [hRead, bind, Except.bind]
  rfl

end Specifiers

theorem readSpecifiers_of_spells (h : type.SpellsSpecifiers tokens)
    (hRest : Avoids ("const" :: continuing) rest) :
    readSpecifiers (tokens ++ rest) =
      .ok ({ base := type.base, isConst := type.isConst }, rest) := by
  cases h with
  | unqualified hConst hBase =>
    have hReads := hBase.readsBase
    rw [hConst]
    exact readSpecifiers_base (readQualifiers_of_avoids (hReads.front rest)) hReads hRest
  | @constBefore tokens hConst hBase =>
    have hReads := hBase.readsBase
    have hFront : readQualifiers (.word "const" :: tokens ++ rest) = (true, tokens ++ rest) := by
      rw [List.cons_append, readQualifiers, readQualifiers_of_avoids (hReads.front rest)]
    rw [hConst]
    exact readSpecifiers_base hFront hReads hRest
  | @constAfter tokens hConst hBase =>
    have hReads := hBase.readsBase
    rw [hConst, List.append_assoc, List.singleton_append]
    exact readSpecifiers_const (readQualifiers_of_avoids (hReads.front _)) hReads

section Declarator

variable {d : Declarator}

theorem readDeclarator_stars (d : Declarator) (n : Nat) (rest : List Token) :
    readDeclarator d (List.replicate n .star ++ rest) =
      readDeclarator { d with pointerDepth := d.pointerDepth + UInt8.ofNat n } rest := by
  induction n generalizing d with
  | zero =>
    have hNone : d.pointerDepth + UInt8.ofNat 0 = d.pointerDepth := UInt8.add_zero _
    rw [hNone]
    rfl
  | succ n ih =>
    have hStar : readDeclarator d (.star :: (List.replicate n .star ++ rest)) =
        readDeclarator { d with pointerDepth := d.pointerDepth + 1 }
          (List.replicate n .star ++ rest) := rfl
    have hSum : d.pointerDepth + 1 + UInt8.ofNat n = d.pointerDepth + UInt8.ofNat (n + 1) := by
      rw [UInt8.add_assoc, UInt8.add_comm 1, UInt8.ofNat_add]
      rfl
    rw [List.replicate_succ, List.cons_append, hStar, ih, hSum]

theorem readDeclarator_indirections (type : TypeSpelling) (rest : List Token) :
    readDeclarator {} (type.indirections ++ rest) = readDeclarator
      { pointerDepth := type.pointerDepth, isReference := type.isReference } rest := by
  rw [indirections, List.append_assoc, readDeclarator_stars, UInt8.zero_add, UInt8.ofNat_toNat]
  cases type.isReference with
  | true => rfl
  | false => rfl

theorem readDeclarator_name (hName : ∀ n, name = some n → IsName n) (hNone : d.name = none)
    (rest : List Token) :
    readDeclarator d (name.toList.map Token.word ++ rest) =
      readDeclarator { d with name } rest := by
  cases name with
  | none =>
    have hSame : { d with name := none } = d := by rw [← hNone]
    rw [hSame]
    rfl
  | some n =>
    obtain ⟨hQualified, hFree⟩ := hName n rfl
    have hConst : n ≠ "const" := fun hEq => hFree (hEq ▸ by decide)
    have hList : (some n).toList.map Token.word ++ rest = .word n :: rest := rfl
    rw [hList, readDeclarator]
    · simp [hNone, Token.spelling, hQualified]
    all_goals simp [hConst]

theorem readExtent_natural {n : Nat} (hCount : 0 < n ∧ n < UInt64.size) :
    readExtent (.word (Text.natural n)) = .ok n := by
  rw [readExtent, Token.spelling, Text.count?_natural hCount.2]
  split
  · cases ‹some n = none›
  · cases ‹some n = some 0›
    exact absurd hCount.1 (Nat.lt_irrefl 0)
  · cases ‹some n = some _›
    rfl

theorem readDeclarator_extent
    (hCounted : ∀ n, type.arrayLength = some n → 0 < n ∧ n < UInt64.size)
    (hNone : d.arrayLength = none) (rest : List Token) :
    readDeclarator d (type.extent ++ rest) =
      readDeclarator { d with arrayLength := type.arrayLength } rest := by
  rw [extent]
  cases hLength : type.arrayLength with
  | none =>
    have hSame : { d with arrayLength := none } = d := by rw [← hNone]
    rw [hSame]
    rfl
  | some n =>
    have hExtent := readExtent_natural (hCounted n hLength)
    simp only [List.cons_append, List.nil_append]
    rw [readDeclarator, hExtent, hNone]
    rfl

end Declarator

theorem avoids_indirections {words : List String} (h : Avoids words rest) :
    Avoids words (type.indirections ++ rest) := by
  rw [indirections, List.append_assoc]
  cases type.pointerDepth.toNat with
  | succ n => exact fun word _ => nofun
  | zero =>
    cases type.isReference with
    | true => exact fun word _ => nofun
    | false => exact h

theorem avoids_extent {words : List String} (h : Avoids words rest) :
    Avoids words (type.extent ++ rest) := by
  rw [extent]
  cases type.arrayLength with
  | some n => exact fun word _ => nofun
  | none => exact h

theorem avoids_names {words : List String} (hWords : words ⊆ reserved)
    (hName : ∀ n, name = some n → IsName n) (h : Avoids words rest) :
    Avoids words (name.toList.map Token.word ++ rest) := by
  cases name with
  | some n => exact avoids_name fun hMem => (hName n rfl).2 (hWords hMem)
  | none => exact h

theorem readDeclaration_of_spells (h : type.SpellsDeclaration name tokens)
    (hType : type.Declarable) (hName : ∀ n, name = some n → IsName n) :
    readDeclaration tokens = .ok (type, name) := by
  have hReserved : "const" :: continuing ⊆ reserved := by decide
  have hRead {specifiers rest : List Token} (hSpecifiers : type.SpellsSpecifiers specifiers)
      (hAvoids : Avoids ("const" :: continuing) rest)
      (hRest : readDeclarator
        { pointerDepth := type.pointerDepth, isReference := type.isReference } rest = .ok
          { pointerDepth := type.pointerDepth, isReference := type.isReference, name
            arrayLength := type.arrayLength }) :
      readDeclaration (specifiers ++ (type.indirections ++ rest)) = .ok (type, name) := by
    rw [readDeclaration, readSpecifiers_of_spells hSpecifiers (avoids_indirections hAvoids)]
    simp only [bind, Except.bind, readDeclarator_indirections, hRest, Declarator.apply,
      UInt8.zero_add, Bool.false_or, Option.or_none]
    rfl
  have hDone : type.extent = type.extent ++ [] := (List.append_nil _).symm
  cases h with
  | extentLast hSpecifiers =>
    rw [List.append_assoc, List.append_assoc, hDone]
    refine hRead hSpecifiers (avoids_names hReserved hName (avoids_extent (avoids_nil _))) ?_
    rw [readDeclarator_name hName rfl, readDeclarator_extent hType.counted rfl]
    rfl
  | extentFirst hSpecifiers =>
    rw [List.append_assoc, List.append_assoc, ← List.append_nil (name.toList.map Token.word)]
    refine hRead hSpecifiers (avoids_extent (avoids_names hReserved hName (avoids_nil _))) ?_
    rw [readDeclarator_extent hType.counted rfl, readDeclarator_name hName rfl]
    rfl

end Header

end NativeBinding
