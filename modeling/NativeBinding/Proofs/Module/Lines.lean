import Mathlib.Algebra.Ring.Nat
import NativeBinding.Module.Files
import NativeBinding.Proofs.Source.Template

/-! # Counting lines

A text has at least as many lines as ends of lines, and just as many if it ends its last line.
Filling a placeholder adds the ends of lines of its value wherever it stands, so a value on one line
adds none, and no value takes one away.
-/

set_option autoImplicit false

namespace NativeBinding

theorem count_newline_le_go (pending : Nat) (text : List Char) :
    text.count '\n' ≤ lineCount.go pending text := by
  induction text generalizing pending with
  | nil => exact Nat.zero_le _
  | cons c text ih =>
    rw [lineCount.go, List.count_cons]
    split
    · exact Nat.succ_le_succ (ih 0)
    · exact ih 1

theorem count_newline_le_lineCount (text : String) :
    text.toList.count '\n' ≤ lineCount text :=
  count_newline_le_go 0 text.toList

theorem go_concat_newline (pending : Nat) (text : List Char) :
    lineCount.go pending (text ++ ['\n']) = (text ++ ['\n']).count '\n' := by
  induction text generalizing pending with
  | nil => rfl
  | cons c text ih =>
    rw [List.cons_append, lineCount.go, List.count_cons]
    split
    · rw [ih]
    · exact ih 1

theorem lineCount_of_endsLine {text : String} (h : Source.EndsLine text.toList) :
    lineCount text = text.toList.count '\n' := by
  rcases h with hNil | ⟨part, hPart⟩
  · simp [lineCount, lineCount.go, hNil]
  · rw [lineCount, ← hPart, go_concat_newline]

theorem count_newline_join {parts : List String} (h : parts ≠ []) :
    (Text.join "\n" parts).toList.count '\n' + 1 =
      (parts.map fun part => part.toList.count '\n' + 1).sum := by
  induction parts with
  | nil => exact absurd rfl h
  | cons part parts ih =>
    cases parts with
    | nil => simp [Text.join]
    | cons next parts =>
      have hRest := ih (List.cons_ne_nil _ _)
      have hNewline : "\n".toList.count '\n' = 1 := rfl
      rw [List.map_cons, List.sum_cons, ← hRest]
      simp only [Text.join, String.toList_append, List.count_append, hNewline]
      omega

namespace Source

section Lines

variable {texts : List String} {last : String}

theorem toList_lines_cons (text : String) (texts : List String) :
    (lines (text :: texts)).toList = text.toList ++ '\n' :: (lines texts).toList := by
  simp [lines]

theorem lines_append (texts more : List String) :
    lines (texts ++ more) = lines texts ++ lines more := by
  simp [lines, String.join_append]

theorem length_le_count_newline_lines (texts : List String) :
    texts.length ≤ (lines texts).toList.count '\n' := by
  induction texts with
  | nil => exact Nat.zero_le _
  | cons text texts ih =>
    rw [toList_lines_cons, List.count_append, List.count_cons_self, List.length_cons]
    omega

theorem count_newline_lines (h : ∀ text ∈ texts, '\n' ∉ text.toList) :
    (lines texts).toList.count '\n' = texts.length := by
  induction texts with
  | nil => rfl
  | cons text texts ih =>
    rw [List.forall_mem_cons] at h
    rw [toList_lines_cons, List.count_append, List.count_cons_self,
      List.count_eq_zero_of_not_mem h.1, ih h.2, List.length_cons, Nat.zero_add]

theorem count_newline_trimEnd_lines (hLast : ∃ c ∈ last.toList, Text.isBlank c = false) :
    texts.length ≤ (Text.trimEnd (lines (texts ++ [last])).toList).count '\n' ∧
      ((∀ text ∈ texts ++ [last], '\n' ∉ text.toList) →
        (Text.trimEnd (lines (texts ++ [last])).toList).count '\n' = texts.length) := by
  obtain ⟨c, hc, hMark⟩ := hLast
  obtain ⟨before, after, hSplit⟩ := List.append_of_mem hc
  have hText : (lines (texts ++ [last])).toList =
      (lines texts).toList ++ before ++ c :: (after ++ ['\n']) := by
    rw [lines_append, String.toList_append, toList_lines_cons, hSplit]
    simp [lines]
  rw [hText, Text.trimEnd_append_cons hMark]
  constructor
  · have hLines := length_le_count_newline_lines texts
    rw [List.count_append, List.count_append]
    omega
  · intro hOneLine
    rw [List.forall_mem_append, List.forall_mem_singleton, hSplit] at hOneLine
    obtain ⟨hTexts, hLine⟩ := hOneLine
    have hTrimmed : '\n' ∉ Text.trimEnd (after ++ ['\n']) := by
      have hEnd : Text.trimEnd (after ++ ['\n']) = Text.trimEnd after := by
        simp [Text.trimEnd, Text.dropEndWhile, Text.isBlank]
      rw [hEnd]
      exact fun hMem => hLine (by simp [(Text.prefix_trimEnd after).subset hMem])
    have hNone : '\n' ∉ before ++ c :: Text.trimEnd (after ++ ['\n']) := by
      rw [List.mem_append, List.mem_cons] at hLine ⊢
      rintro (hBefore | hHere | hAfter)
      · exact hLine (.inl hBefore)
      · exact hLine (.inr (.inl hHere))
      · exact hTrimmed hAfter
    rw [List.append_assoc, List.count_append, count_newline_lines hTexts,
      List.count_eq_zero_of_not_mem hNone, Nat.add_zero]

end Lines

variable {pattern value : List Char}

theorem drop_of_isPrefixOf {c : Char} {text : List Char} (hPattern : pattern ≠ [])
    (hPrefix : pattern.isPrefixOf (c :: text) = true) :
    ∃ rest, c :: text = pattern ++ rest ∧ text.drop (pattern.length - 1) = rest := by
  obtain ⟨rest, hRest⟩ := List.isPrefixOf_iff_prefix.mp hPrefix
  refine ⟨rest, hRest.symm, ?_⟩
  cases pattern with
  | nil => exact absurd rfl hPattern
  | cons p pattern =>
    obtain ⟨-, rfl⟩ := List.cons.inj hRest
    simp

theorem count_newline_le_replaceFrom (hPattern : pattern ≠ []) (hNewline : '\n' ∉ pattern)
    (skip : Nat) (text : List Char) :
    (text.drop skip).count '\n' ≤ (replaceFrom pattern value skip text).count '\n' := by
  induction text generalizing skip with
  | nil => simp [replaceFrom]
  | cons c text ih =>
    cases skip with
    | succ skip => simpa [replaceFrom] using ih skip
    | zero =>
      rw [replaceFrom, List.drop_zero]
      split
      · rename_i hPrefix
        obtain ⟨rest, hRest, hDrop⟩ := drop_of_isPrefixOf hPattern hPrefix
        have hLess := ih (pattern.length - 1)
        rw [hDrop] at hLess
        rw [hRest, List.count_append, List.count_append, List.count_eq_zero_of_not_mem hNewline]
        omega
      · rw [List.count_cons, List.count_cons]
        exact Nat.add_le_add_right (by simpa using ih 0) _

theorem count_newline_replaceFrom (hPattern : pattern ≠ []) (hNewline : '\n' ∉ pattern)
    (hValue : '\n' ∉ value) (skip : Nat) (text : List Char) :
    (replaceFrom pattern value skip text).count '\n' = (text.drop skip).count '\n' := by
  -- A match is passed over by a skip, so the induction is for what is left of any skip.
  induction text generalizing skip with
  | nil => simp [replaceFrom]
  | cons c text ih =>
    cases skip with
    | succ skip => simpa [replaceFrom] using ih skip
    | zero =>
      rw [replaceFrom, List.drop_zero]
      split
      · rename_i hPrefix
        obtain ⟨rest, hRest, hDrop⟩ := drop_of_isPrefixOf hPattern hPrefix
        rw [List.count_append, ih, hDrop, hRest, List.count_append,
          List.count_eq_zero_of_not_mem hValue, List.count_eq_zero_of_not_mem hNewline]
      · rw [List.count_cons, List.count_cons, ih 0, List.drop_zero]

theorem count_newline_refill {values : List (String × String)}
    (h : ∀ entry ∈ values, '\n' ∉ placeholder entry.1 ∧ '\n' ∉ entry.2.toList) (text : List Char) :
    (refill values text).count '\n' = text.count '\n' := by
  induction values generalizing text with
  | nil => rfl
  | cons entry values ih =>
    rw [List.forall_mem_cons] at h
    rw [refill, List.foldl_cons]
    have hFirst : (replaceFrom (placeholder entry.1) entry.2.toList 0 text).count '\n' =
        text.count '\n' :=
      count_newline_replaceFrom (List.cons_ne_nil _ _) h.1.1 h.1.2 0 text
    exact (ih h.2 _).trans hFirst

theorem count_newline_le_refill {values : List (String × String)}
    (h : ∀ entry ∈ values, '\n' ∉ placeholder entry.1) (text : List Char) :
    text.count '\n' ≤ (refill values text).count '\n' := by
  induction values generalizing text with
  | nil => exact Nat.le_refl _
  | cons entry values ih =>
    rw [List.forall_mem_cons] at h
    rw [refill, List.foldl_cons]
    have hFirst : text.count '\n' ≤
        (replaceFrom (placeholder entry.1) entry.2.toList 0 text).count '\n' :=
      count_newline_le_replaceFrom (List.cons_ne_nil _ _) h.1 0 text
    exact Nat.le_trans hFirst (ih h.2 _)

theorem count_newline_refill_lines {values : List (String × String)}
    (h : ∀ entry ∈ values, '\n' ∉ placeholder entry.1) (texts : List String) :
    (refill values (lines texts).toList).count '\n' =
      (texts.map fun text => (refill values text.toList).count '\n' + 1).sum := by
  induction texts with
  | nil =>
    have hEmpty : (lines []).toList = [] := rfl
    rw [hEmpty, refill_nil]
    rfl
  | cons text texts ih =>
    rw [toList_lines_cons, refill_append_cons h, List.count_append, List.count_cons_self, ih,
      List.map_cons, List.sum_cons]
    omega

end Source

end NativeBinding
