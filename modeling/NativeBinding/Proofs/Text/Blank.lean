import Mathlib.Data.List.Basic
import Mathlib.Data.List.DropRight
import NativeBinding.Text.Blank

/-! # Trimmed text

What is left of a text when the white space at its ends is cut, or a lead that it starts with, and
its words.
-/

set_option autoImplicit false

namespace NativeBinding.Text

/-- What holds of all characters of a list is decided along the list. -/
instance decidableForallMem {p : Char → Prop} [DecidablePred p] (text : List Char) :
    Decidable (∀ c ∈ text, p c) :=
  List.decidableBAll p text

def AllBlank (text : List Char) : Prop :=
  ∀ c ∈ text, isBlank c = true

instance (text : List Char) : Decidable (AllBlank text) :=
  inferInstanceAs (Decidable (∀ c ∈ text, _))

variable {text blanks : List Char} {c : Char}

theorem trimStart_cons (h : isBlank c = false) : trimStart (c :: text) = c :: text :=
  List.dropWhile_cons_of_neg (by simp [h])

theorem trimStart_blank (h : isBlank c = true) : trimStart (c :: text) = trimStart text :=
  List.dropWhile_cons_of_pos h

theorem trimStart_blanks (h : AllBlank blanks) : trimStart (blanks ++ text) = trimStart text := by
  induction blanks with
  | nil => rfl
  | cons c blanks ih =>
    rw [AllBlank, List.forall_mem_cons] at h
    rw [List.cons_append, trimStart_blank h.1, ih h.2]

theorem prefix_trimEnd (text : List Char) : trimEnd text <+: text := by
  rw [← List.reverse_suffix, trimEnd, dropEndWhile, List.reverse_reverse]
  exact List.dropWhile_suffix _

section EndWhile

variable {p : Char → Bool}

theorem dropEndWhile_append_cons (h : p c = false) (before after : List Char) :
    dropEndWhile p (before ++ c :: after) = before ++ c :: dropEndWhile p after := by
  simp only [dropEndWhile, List.reverse_append, List.reverse_cons, List.append_assoc,
    List.dropWhile_append]
  cases hAll : (List.dropWhile p after.reverse).isEmpty with
  | true => simp [List.isEmpty_iff.mp hAll, h]
  | false => simp

theorem dropEndWhile_append {run : List Char} (h : ∀ c ∈ run, p c = true) (text : List Char) :
    dropEndWhile p (text ++ run) = dropEndWhile p text := by
  have hReverse : ∀ c ∈ run.reverse, p c = true := fun c hc => h c (List.mem_reverse.mp hc)
  rw [dropEndWhile, dropEndWhile, List.reverse_append, List.dropWhile_append_of_pos hReverse]

theorem dropEndWhile_of_forall (h : ∀ c ∈ text, p c = false) : dropEndWhile p text = text := by
  rcases List.eq_nil_or_concat' text with rfl | ⟨before, last, rfl⟩
  · rfl
  · exact dropEndWhile_append_cons (h last (by simp)) before []

end EndWhile

theorem trimEnd_append_cons (h : isBlank c = false) (before after : List Char) :
    trimEnd (before ++ c :: after) = before ++ c :: trimEnd after :=
  dropEndWhile_append_cons h before after

theorem trimEnd_cons (h : isBlank c = false) : trimEnd (c :: text) = c :: trimEnd text :=
  trimEnd_append_cons h [] text

theorem trimEnd_blank (h : isBlank c = true) :
    trimEnd (c :: text) = if trimEnd text = [] then [] else c :: trimEnd text := by
  simp only [trimEnd, dropEndWhile, List.reverse_cons, List.dropWhile_append]
  cases hAll : (List.dropWhile isBlank text.reverse).isEmpty with
  | true => simp [List.isEmpty_iff.mp hAll, h]
  | false =>
    rw [List.isEmpty_eq_false_iff] at hAll
    simp [hAll]

theorem trimEnd_blanks (h : AllBlank blanks) : trimEnd (text ++ blanks) = trimEnd text :=
  dropEndWhile_append h text

theorem trimEnd_allBlank (h : AllBlank blanks) : trimEnd blanks = [] := by
  rw [← List.nil_append blanks, trimEnd_blanks h]
  rfl

theorem trimStart_append_cons (h : isBlank c = false) (before after : List Char) :
    trimStart (before ++ c :: after) = trimStart before ++ c :: after := by
  induction before with
  | nil => exact trimStart_cons h
  | cons b before ih =>
    by_cases hBlank : isBlank b = true
    · rw [List.cons_append, trimStart_blank hBlank, trimStart_blank hBlank, ih]
    · rw [Bool.not_eq_true] at hBlank
      rw [List.cons_append, trimStart_cons hBlank, trimStart_cons hBlank, List.cons_append]

theorem trim_append_cons (h : isBlank c = false) (before after : List Char) :
    trim (before ++ c :: after) = trimStart before ++ c :: trimEnd after := by
  rw [trim, trimStart_append_cons h, trimEnd_append_cons h]

theorem trim_of_forall (h : ∀ c ∈ text, isBlank c = false) : trim text = text := by
  cases text with
  | nil => rfl
  | cons c text =>
    rw [trim, trimStart_cons (h c List.mem_cons_self)]
    exact dropEndWhile_of_forall h

theorem mem_trim (h : isBlank c = false) (hc : c ∈ text) : c ∈ trim text := by
  obtain ⟨before, after, rfl⟩ := List.append_of_mem hc
  rw [trim_append_cons h]
  exact List.mem_append_right _ List.mem_cons_self

theorem exists_last_of_trimEnd (h : trimEnd text ≠ []) :
    ∃ before last, trimEnd text = before ++ [last] ∧ isBlank last = false := by
  rw [trimEnd, dropEndWhile] at h ⊢
  cases hDrop : text.reverse.dropWhile isBlank with
  | nil => simp [hDrop] at h
  | cons last before =>
    have hLast := List.head?_dropWhile_not isBlank text.reverse
    rw [hDrop] at hLast
    exact ⟨before.reverse, last, by simp, by simpa using hLast⟩

theorem trimEnd_append (h : trimEnd text ≠ []) (before : List Char) :
    trimEnd (before ++ text) = before ++ trimEnd text := by
  rw [trimEnd, dropEndWhile] at h ⊢
  cases hDrop : (text.reverse.dropWhile isBlank).isEmpty with
  | true => simp [List.isEmpty_iff.mp hDrop] at h
  | false => simp [trimEnd, dropEndWhile, List.dropWhile_append, hDrop]

theorem trimEnd_trimEnd (text : List Char) : trimEnd (trimEnd text) = trimEnd text := by
  by_cases hNone : trimEnd text = []
  · rw [hNone]
    rfl
  · obtain ⟨before, last, hText, hLast⟩ := exists_last_of_trimEnd hNone
    rw [hText, trimEnd_append_cons hLast]
    rfl

theorem trimStart_trim (text : List Char) : trimStart (trim text) = trim text := by
  have hStart := List.head?_dropWhile_not isBlank text
  rw [trim]
  cases hText : trimStart text with
  | nil => rfl
  | cons c rest =>
    rw [trimStart] at hText
    rw [hText] at hStart
    have hMark : isBlank c = false := by simpa using hStart
    rw [trimEnd_cons hMark, trimStart_cons hMark]

theorem trim_trimStart (text : List Char) : trim (trimStart text) = trim text := by
  have hTwice : trimStart (trimStart text) = trimStart text := List.dropWhile_idempotent _ _
  rw [trim, hTwice, ← trim]

theorem trim_trim (text : List Char) : trim (trim text) = trim text := by
  rw [trim, trimStart_trim, trim, trimEnd_trimEnd]

theorem trim_blank (h : isBlank c = true) : trim (c :: text) = trim text := by
  rw [trim, trimStart_blank h, ← trim]

theorem exists_blanks_trimEnd (text : List Char) :
    ∃ blanks, AllBlank blanks ∧ trimEnd text ++ blanks = text := by
  refine ⟨(text.reverse.takeWhile isBlank).reverse, ?_, ?_⟩
  · intro c hc
    exact List.mem_takeWhile_imp (List.mem_reverse.mp hc)
  · rw [trimEnd, dropEndWhile, ← List.reverse_append, List.takeWhile_append_dropWhile,
      List.reverse_reverse]

theorem trim_append_blanks (h : AllBlank blanks) (text : List Char) :
    trim (text ++ blanks) = trim text := by
  induction text with
  | nil =>
    rw [List.nil_append, ← List.append_nil blanks, trim, trimStart_blanks h]
    rfl
  | cons c text ih =>
    by_cases hBlank : isBlank c = true
    · rw [List.cons_append, trim_blank hBlank, trim_blank hBlank, ih]
    · rw [Bool.not_eq_true] at hBlank
      rw [List.cons_append, trim, trim, trimStart_cons hBlank, trimStart_cons hBlank,
        ← List.cons_append, trimEnd_blanks h]

section Trimmed

variable (h : trim text = text)
include h

theorem trimStart_of_trim : trimStart text = text := by
  have hPrefix := (prefix_trimEnd (trimStart text)).length_le
  have hSuffix : trimStart text <:+ text := List.dropWhile_suffix _
  rw [← trim, h] at hPrefix
  exact hSuffix.eq_of_length_le hPrefix

theorem trimEnd_of_trim : trimEnd text = text := by
  have hTrim := h
  rwa [trim, trimStart_of_trim h] at hTrim

theorem trimEnd_append_of_trim (hSome : text ≠ []) (before : List Char) :
    trimEnd (before ++ text) = before ++ text := by
  have hEnd := trimEnd_of_trim h
  obtain ⟨most, last, hText, hLast⟩ := exists_last_of_trimEnd (hEnd.symm ▸ hSome)
  rw [hEnd] at hText
  rw [hText, ← List.append_assoc, trimEnd_append_cons hLast]
  rfl

theorem trim_around {before after : List Char} (hBefore : AllBlank before)
    (hAfter : AllBlank after) : trim (before ++ text ++ after) = text := by
  rw [List.append_assoc, trim, trimStart_blanks hBefore]
  have hStart := trimStart_of_trim h
  cases text with
  | nil =>
    rw [List.nil_append, ← List.append_nil after, trimStart_blanks hAfter]
    rfl
  | cons c text =>
    have hMark : isBlank c = false := by
      by_contra hBlank
      rw [Bool.not_eq_false] at hBlank
      have hLess := length_trimStart_le text
      rw [trimStart_blank hBlank] at hStart
      rw [hStart, List.length_cons] at hLess
      omega
    rw [List.cons_append, trimStart_cons hMark, ← List.cons_append, trimEnd_blanks hAfter,
      trimEnd_of_trim h]

end Trimmed

section Lead

variable {text rest : List Char}

theorem eq_of_dropLead? {lead : List Char} (h : dropLead? lead text = some rest) :
    text = lead ++ rest := by
  induction lead generalizing text with
  | nil => exact Option.some.inj h
  | cons l lead ih =>
    cases text with
    | nil => cases h
    | cons c text =>
      rw [dropLead?] at h
      split at h
      · rename_i hSame
        rw [eq_of_beq hSame, ih h]
        rfl
      · cases h

theorem dropLead?_append (lead rest : List Char) : dropLead? lead (lead ++ rest) = some rest := by
  induction lead with
  | nil => rfl
  | cons l lead ih => simpa [dropLead?] using ih

end Lead

end NativeBinding.Text
