import Mathlib.Tactic.SplitIfs
import NativeBinding.Header.Signature

/-! # Depth of a text

How many brackets a text opens outside quotes, less how many it closes; nothing is asked of the
text. A character moves the cuts at a delimiter, and the search for a closing parenthesis, by its
own depth.
-/

set_option autoImplicit false

namespace NativeBinding.Header

def quoteAfter (quote : Option Char) (c : Char) : Option Char :=
  match quote with
  | some q => if c == q then none else some q
  | none => if isQuote c then some c else none

def openQuote (quote : Option Char) (text : List Char) : Option Char :=
  text.foldl quoteAfter quote

theorem openQuote_cons (quote : Option Char) (c : Char) (text : List Char) :
    openQuote quote (c :: text) = openQuote (quoteAfter quote c) text := rfl

theorem openQuote_append (quote : Option Char) (before after : List Char) :
    openQuote quote (before ++ after) = openQuote (openQuote quote before) after :=
  List.foldl_append

/-- The characters outside quotes, without the quotes themselves. -/
def unquoted (quote : Option Char) : List Char → List Char
  | [] => []
  | c :: rest =>
    (if quote = none ∧ isQuote c = false then [c] else []) ++ unquoted (quoteAfter quote c) rest

theorem unquoted_append (quote : Option Char) (before after : List Char) :
    unquoted quote (before ++ after) =
      unquoted quote before ++ unquoted (openQuote quote before) after := by
  induction before generalizing quote with
  | nil => rfl
  | cons c before ih =>
    rw [List.cons_append, unquoted, unquoted, ih, List.append_assoc]
    rfl

theorem length_unquoted_le (quote : Option Char) (text : List Char) :
    (unquoted quote text).length ≤ text.length := by
  induction text generalizing quote with
  | nil => exact Nat.le_refl 0
  | cons c text ih =>
    have hRest := ih (quoteAfter quote c)
    rw [unquoted, List.length_append, List.length_cons]
    split
    · rw [List.length_singleton]
      omega
    · rw [List.length_nil]
      omega

/-- Which characters open and which close. -/
structure Brackets where
  opens : Char → Bool
  closes : Char → Bool
  apart : ∀ c, opens c = true → closes c = false

namespace Brackets

/-- All kinds alike, as the cuts at a delimiter take them. -/
def all : Brackets where
  opens := isOpening
  closes := isClosing
  apart c h := by
    simp only [isOpening, Bool.or_eq_true, beq_iff_eq] at h
    rcases h with (rfl | rfl) | rfl <;> rfl

def parens : Brackets where
  opens := (· == '(')
  closes := (· == ')')
  apart c h := by
    rw [eq_of_beq h]
    rfl

/-- How many brackets outside quotes are opened, less how many are closed. -/
def depth (b : Brackets) (quote : Option Char) (text : List Char) : Int :=
  (unquoted quote text).countP b.opens - (unquoted quote text).countP b.closes

variable {b : Brackets} {quote : Option Char} {c : Char}

theorem depth_nil : b.depth quote [] = 0 := rfl

theorem depth_append (before after : List Char) :
    b.depth quote (before ++ after) =
      b.depth quote before + b.depth (openQuote quote before) after := by
  simp only [depth, unquoted_append, List.countP_append]
  omega

theorem depth_cons (c : Char) (text : List Char) :
    b.depth quote (c :: text) = b.depth quote [c] + b.depth (quoteAfter quote c) text :=
  depth_append [c] text

@[simp] theorem depth_inside {q : Char} : b.depth (some q) [c] = 0 := rfl

theorem depth_quote (h : isQuote c = true) : b.depth none [c] = 0 := by
  simp [depth, unquoted, h]

theorem depth_opening (hQuote : isQuote c = false) (h : b.opens c = true) :
    b.depth none [c] = 1 := by
  simp [depth, unquoted, hQuote, h, b.apart c h]

theorem depth_closing (hQuote : isQuote c = false) (hOpen : b.opens c = false)
    (h : b.closes c = true) : b.depth none [c] = -1 := by
  simp [depth, unquoted, hQuote, hOpen, h]

theorem depth_other (hQuote : isQuote c = false) (hOpen : b.opens c = false)
    (hClose : b.closes c = false) : b.depth none [c] = 0 := by
  simp [depth, unquoted, hQuote, hOpen, hClose]

theorem natAbs_depth_le (text : List Char) : (b.depth quote text).natAbs ≤ text.length := by
  have hLength := length_unquoted_le quote text
  have hOpens : (unquoted quote text).countP b.opens ≤ _ := List.countP_le_length
  have hCloses : (unquoted quote text).countP b.closes ≤ _ := List.countP_le_length
  rw [depth]
  omega

end Brackets

/-- A character that neither quotes nor brackets. -/
def Separates (delimiter : Char) : Prop :=
  isQuote delimiter = false ∧ isOpening delimiter = false ∧ isClosing delimiter = false

instance (delimiter : Char) : Decidable (Separates delimiter) :=
  inferInstanceAs (Decidable (_ ∧ _))

theorem splitFrom_step (delimiter : Char) (depth : Int) (quote : Option Char)
    (part : List Char) (c : Char) (rest : List Char) :
    splitFrom delimiter depth quote part (c :: rest) =
      if quote = none ∧ c = delimiter ∧ Separates c ∧ depth = 0 then
        part.reverse :: splitFrom delimiter 0 none [] rest
      else
        splitFrom delimiter (depth + Brackets.all.depth quote [c]) (quoteAfter quote c) (c :: part)
          rest := by
  cases quote with
  | some q => simp [splitFrom, quoteAfter]
  | none =>
    by_cases hPlain : Separates c
    · obtain ⟨hQuote, hOpen, hClose⟩ := hPlain
      have hDepth : Brackets.all.depth none [c] = 0 := Brackets.depth_other hQuote hOpen hClose
      by_cases hZero : depth = 0
      · simp [splitFrom, quoteAfter, Separates, hQuote, hOpen, hClose, hDepth, hZero]
      · simp [splitFrom, quoteAfter, hQuote, hOpen, hClose, hDepth, hZero]
    · have hPass : ¬ ((none : Option Char) = none ∧ c = delimiter ∧ Separates c ∧ depth = 0) :=
        fun h => hPlain h.2.2.1
      rw [if_neg hPass, splitFrom, quoteAfter]
      split_ifs with hQuote hOpen hClose
      · rw [Brackets.depth_quote hQuote, Int.add_zero]
      · rw [Brackets.depth_opening (eq_false_of_ne_true hQuote) hOpen]
      · rw [Brackets.depth_closing (eq_false_of_ne_true hQuote) (eq_false_of_ne_true hOpen) hClose]
        rfl
      · exact absurd ⟨eq_false_of_ne_true hQuote, eq_false_of_ne_true hOpen,
          eq_false_of_ne_true hClose⟩ hPlain
      · exact absurd ⟨eq_false_of_ne_true hQuote, eq_false_of_ne_true hOpen,
          eq_false_of_ne_true hClose⟩ hPlain

theorem paren_cases (quote : Option Char) (c : Char) :
    quote = none ∧ c = '(' ∨ quote = none ∧ c = ')' ∨
      Brackets.parens.depth quote [c] = 0 ∧ (quote = none → c ≠ '(' ∧ c ≠ ')') := by
  cases quote with
  | some q => exact .inr (.inr ⟨rfl, nofun⟩)
  | none =>
    by_cases hOpen : c = '('
    · exact .inl ⟨rfl, hOpen⟩
    by_cases hClose : c = ')'
    · exact .inr (.inl ⟨rfl, hClose⟩)
    refine .inr (.inr ⟨?_, fun _ => ⟨hOpen, hClose⟩⟩)
    by_cases hQuote : isQuote c = true
    · exact Brackets.depth_quote hQuote
    · exact Brackets.depth_other (eq_false_of_ne_true hQuote) (beq_false_of_ne hOpen)
        (beq_false_of_ne hClose)

/-- The number of open parentheses, the one searched for among them, is never moved below zero. -/
theorem splitAtClose_step (opened : Nat) (quote : Option Char) (c : Char) (text : List Char) :
    ∃ next : Nat, (next : Int) = opened + 1 + Brackets.parens.depth quote [c] ∧
      splitAtClose opened quote (c :: text) =
        match next with
        | 0 => some ([], text)
        | next + 1 => (splitAtClose next (quoteAfter quote c) text).map
            fun (inner, after) => (c :: inner, after) := by
  rcases paren_cases quote c with ⟨rfl, rfl⟩ | ⟨rfl, rfl⟩ | ⟨hDepth, hOther⟩
  · exact ⟨opened + 2, rfl, rfl⟩
  · refine ⟨opened, (Int.add_neg_cancel_right _ 1).symm, ?_⟩
    cases opened <;> rfl
  · refine ⟨opened + 1, by rw [hDepth, Int.add_zero]; rfl, ?_⟩
    cases quote with
    | some q => rfl
    | none =>
      obtain ⟨hOpen, hClose⟩ := hOther rfl
      by_cases hQuote : isQuote c = true <;>
        simp [splitAtClose, quoteAfter, hQuote, hOpen, hClose]

end NativeBinding.Header
