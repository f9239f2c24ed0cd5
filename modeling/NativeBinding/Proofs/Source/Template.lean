import Mathlib.Data.List.Nodup
import NativeBinding.Proofs.Text.Blank
import NativeBinding.Source.Template

/-! # Filled templates

What stands on lines of its own in a text is filled as if it stood alone, because no placeholder
holds an end of line. So a value that a template takes on a line of its own is found again, with the
placeholders filled that come after it, and unchanged if it has none of these.
-/

set_option autoImplicit false

namespace NativeBinding.Source

section Replacing

variable {pattern value : List Char}

theorem isPrefixOf_append_cons {mark : Char} (h : mark ∉ pattern) (text rest : List Char) :
    pattern.isPrefixOf (text ++ mark :: rest) = pattern.isPrefixOf text := by
  induction pattern generalizing text with
  | nil => simp
  | cons p pattern ih =>
    rw [List.mem_cons, not_or] at h
    cases text with
    | nil => simp [List.isPrefixOf, Ne.symm h.1]
    | cons c text => simp [List.isPrefixOf, ih h.2]

theorem replaceFrom_append_cons {mark : Char} (hPattern : pattern ≠ []) (h : mark ∉ pattern)
    (skip : Nat) (text rest : List Char) (hSkip : skip ≤ text.length) :
    replaceFrom pattern value skip (text ++ mark :: rest) =
      replaceFrom pattern value skip text ++ mark :: replaceFrom pattern value 0 rest := by
  induction text generalizing skip with
  | nil =>
    obtain rfl : skip = 0 := Nat.le_zero.mp hSkip
    have hPrefix := isPrefixOf_append_cons h [] rest
    have hEmpty : pattern.isPrefixOf [] = false := by
      cases pattern with
      | nil => exact absurd rfl hPattern
      | cons p pattern => rfl
    rw [List.nil_append] at hPrefix
    simp [replaceFrom, hPrefix, hEmpty]
  | cons c text ih =>
    cases skip with
    | succ skip => exact ih skip (Nat.le_of_succ_le_succ hSkip)
    | zero =>
      rw [List.cons_append, replaceFrom, replaceFrom, ← List.cons_append,
        isPrefixOf_append_cons h]
      split
      · rename_i hPrefix
        have hLength := (List.isPrefixOf_iff_prefix.mp hPrefix).length_le
        rw [ih _ (by simpa using hLength), List.append_assoc]
      · rw [ih 0 (Nat.zero_le _), List.cons_append]

theorem replaceFrom_eq_self {text : List Char} (h : ¬ pattern <:+: text) :
    replaceFrom pattern value 0 text = text := by
  induction text with
  | nil => rfl
  | cons c text ih =>
    rw [replaceFrom, if_neg, ih fun hInfix => h (List.infix_cons hInfix)]
    exact fun hPrefix => h (List.isPrefixOf_iff_prefix.mp hPrefix).isInfix

theorem replaceFrom_length (text : List Char) :
    replaceFrom pattern value text.length text = [] := by
  induction text with
  | nil => rfl
  | cons c text ih => exact ih

theorem replaceFrom_self (h : pattern ≠ []) : replaceFrom pattern value 0 pattern = value := by
  cases pattern with
  | nil => exact absurd rfl h
  | cons p pattern =>
    rw [replaceFrom, if_pos (List.isPrefixOf_iff_prefix.mpr (List.prefix_refl _))]
    simp [replaceFrom_length]

end Replacing

def placeholder (key : String) : List Char :=
  '$' :: key.toList

theorem prefix_of_infix_placeholder {key other : String} (hDollar : '$' ∉ other.toList)
    (h : placeholder key <:+: placeholder other) : key.toList <+: other.toList := by
  obtain ⟨before, after, hSplit⟩ := h
  cases before with
  | nil =>
    rw [List.nil_append, placeholder, placeholder, List.cons_append, List.cons.injEq] at hSplit
    exact ⟨after, hSplit.2⟩
  | cons c before =>
    rw [placeholder, placeholder, List.cons_append, List.cons_append, List.cons.injEq] at hSplit
    exact absurd (hSplit.2 ▸ by simp) hDollar

theorem prefix_of_prefix_replaceFrom {pattern value part text : List Char} {first : Char}
    (hFirst : first ∉ part) (h : part <+: replaceFrom pattern (first :: value) 0 text) :
    part <+: text := by
  induction text generalizing part with
  | nil => exact h
  | cons c text ih =>
    cases part with
    | nil => exact List.nil_prefix
    | cons d part =>
      rw [List.mem_cons, not_or] at hFirst
      rw [replaceFrom] at h
      split at h
      · exact absurd (List.cons_prefix_cons.mp h).1.symm hFirst.1
      · obtain ⟨rfl, hRest⟩ := List.cons_prefix_cons.mp h
        exact List.cons_prefix_cons.mpr ⟨rfl, ih hFirst.2 hRest⟩

/-- A placeholder is gone after it is filled, if its value has no dollar sign and begins with a
character that the placeholder has not. -/
theorem not_infix_replaceFrom {key : String} {value : List Char} {first : Char}
    (hFirst : first ∉ placeholder key) (hDollar : '$' ∉ first :: value) (skip : Nat)
    (text : List Char) :
    ¬ placeholder key <:+: replaceFrom (placeholder key) (first :: value) skip text := by
  induction text generalizing skip with
  | nil =>
    intro h
    cases skip <;> cases List.infix_nil.mp h
  | cons c text ih =>
    cases skip with
    | succ skip => exact ih skip
    | zero =>
      intro h
      rw [replaceFrom] at h
      split at h
      · -- The value has no dollar sign, so the placeholder begins behind it.
        obtain ⟨before, after, hSplit⟩ := h
        rw [List.append_assoc, List.append_eq_append_iff] at hSplit
        rcases hSplit with ⟨rest, hValue, hRest⟩ | ⟨rest, -, hRest⟩
        · cases rest with
          | nil => exact ih _ ⟨[], after, by simpa using hRest⟩
          | cons d rest =>
            rw [placeholder, List.cons_append, List.cons_append, List.cons.injEq] at hRest
            exact hDollar (by rw [hValue, hRest.1]; simp)
        · exact ih _ ⟨rest, after, by simpa using hRest.symm⟩
      · rename_i hPrefix
        rcases List.infix_cons_iff.mp h with hHere | hLater
        · obtain ⟨rfl, hKey⟩ := List.cons_prefix_cons.mp hHere
          have hFirstKey : first ∉ key.toList := fun hMem => hFirst (List.mem_cons_of_mem _ hMem)
          have hCopied := prefix_of_prefix_replaceFrom hFirstKey hKey
          exact hPrefix (List.isPrefixOf_iff_prefix.mpr
            (List.cons_prefix_cons.mpr ⟨rfl, hCopied⟩))
        · exact ih 0 hLater

/-- A text with placeholders replaced by their values, one after another. -/
def refill (values : List (String × String)) (text : List Char) : List Char :=
  values.foldl (fun text entry => replaceFrom (placeholder entry.1) entry.2.toList 0 text) text

section Refilling

variable {values : List (String × String)}

theorem refill_append_cons {mark : Char} (hKeys : ∀ entry ∈ values, mark ∉ placeholder entry.1)
    (text rest : List Char) :
    refill values (text ++ mark :: rest) = refill values text ++ mark :: refill values rest := by
  induction values generalizing text rest with
  | nil => rfl
  | cons entry values ih =>
    rw [List.forall_mem_cons] at hKeys
    have hFirst : replaceFrom (placeholder entry.1) entry.2.toList 0 (text ++ mark :: rest) =
        replaceFrom (placeholder entry.1) entry.2.toList 0 text ++
          mark :: replaceFrom (placeholder entry.1) entry.2.toList 0 rest :=
      replaceFrom_append_cons (List.cons_ne_nil _ _) hKeys.1 0 text rest (Nat.zero_le _)
    simp only [refill, List.foldl_cons] at ih ⊢
    rw [hFirst]
    exact ih hKeys.2 _ _

theorem refill_eq_self {text : List Char}
    (h : ∀ entry ∈ values, ¬ placeholder entry.1 <:+: text) : refill values text = text := by
  induction values with
  | nil => rfl
  | cons entry values ih =>
    rw [List.forall_mem_cons] at h
    rw [refill, List.foldl_cons, replaceFrom_eq_self h.1]
    exact ih h.2

theorem refill_of_dollar_notMem {text : List Char} (h : '$' ∉ text) : refill values text = text :=
  refill_eq_self fun _ _ hInfix => h (hInfix.subset List.mem_cons_self)

theorem refill_nil : refill values [] = [] := by
  induction values with
  | nil => rfl
  | cons entry values ih => exact ih

theorem refill_concat {key value : String} {text : List Char} :
    refill (values ++ [(key, value)]) text =
      replaceFrom (placeholder key) value.toList 0 (refill values text) :=
  List.foldl_concat ..

/-- A placeholder that contains none of the earlier ones becomes its value, in which only later
placeholders are filled. -/
theorem refill_placeholder {before after : List (String × String)} {key value : String}
    (h : ∀ entry ∈ before, ¬ placeholder entry.1 <:+: placeholder key) :
    refill (before ++ (key, value) :: after) (placeholder key) = refill after value.toList := by
  calc
    refill (before ++ (key, value) :: after) (placeholder key) =
        refill ((key, value) :: after) (refill before (placeholder key)) := List.foldl_append
    _ = refill ((key, value) :: after) (placeholder key) := by rw [refill_eq_self h]
    _ = refill after value.toList := by
      have hPlaced :
          replaceFrom (placeholder key) value.toList 0 (placeholder key) = value.toList :=
        replaceFrom_self (List.cons_ne_nil _ _)
      rw [refill, List.foldl_cons, hPlaced]
      rfl

theorem refill_placeholder_of_keys {before after : List (String × String)} {key value : String}
    (keys : List String) (hKeys : before.map Prod.fst = keys) (hDollar : '$' ∉ key.toList)
    (hApart : ∀ k ∈ keys, ¬ k.toList <+: key.toList) :
    refill (before ++ (key, value) :: after) (placeholder key) = refill after value.toList := by
  refine refill_placeholder fun entry hEntry hInfix => ?_
  exact hApart entry.1 (hKeys ▸ List.mem_map_of_mem hEntry)
    (prefix_of_infix_placeholder hDollar hInfix)

theorem comesFirst_trans (a b c : String × String) (h : comesFirst a b) (h' : comesFirst b c) :
    comesFirst a c := by
  simp only [comesFirst, Bool.or_eq_true, Bool.and_eq_true, decide_eq_true_eq, beq_iff_eq,
    Bool.not_eq_true', decide_eq_false_iff_not, String.not_lt] at h h' ⊢
  rcases h with h | ⟨hSize, hLe⟩
  · exact .inl (by omega)
  · rcases h' with h' | ⟨hSize', hLe'⟩
    · exact .inl (by omega)
    · exact .inr ⟨by omega, String.le_trans hLe hLe'⟩

theorem comesFirst_total (a b : String × String) : comesFirst a b || comesFirst b a := by
  simp only [comesFirst, Bool.or_eq_true, Bool.and_eq_true, decide_eq_true_eq, beq_iff_eq,
    Bool.not_eq_true', decide_eq_false_iff_not, String.not_lt]
  rcases Nat.lt_trichotomy a.1.utf8ByteSize b.1.utf8ByteSize with h | h | h
  · exact .inr (.inl h)
  · exact (String.le_total a.1 b.1).imp (fun hLe => .inr ⟨h, hLe⟩) fun hLe => .inr ⟨h.symm, hLe⟩
  · exact .inl (.inl h)

theorem comesFirst_antisymm {a b : String × String} (h : comesFirst a b) (h' : comesFirst b a) :
    a.1 = b.1 := by
  simp only [comesFirst, Bool.or_eq_true, Bool.and_eq_true, decide_eq_true_eq, beq_iff_eq,
    Bool.not_eq_true', decide_eq_false_iff_not, String.not_lt] at h h'
  rcases h with h | ⟨hSize, hLe⟩
  · rcases h' with h' | ⟨hSize, -⟩ <;> omega
  · rcases h' with h' | ⟨-, hLe'⟩
    · omega
    · exact String.le_antisymm hLe hLe'

theorem fill_eq_refill {template : String} {sorted : List (String × String)} (keys : List String)
    (hPerm : values.Perm sorted) (hKeys : sorted.map Prod.fst = keys) (hNodup : keys.Nodup)
    (hSorted : keys.Pairwise fun a b => comesFirst (a, "") (b, "") = true) :
    fill template values = String.ofList (refill sorted template.toList) := by
  subst hKeys
  have hSort : values.mergeSort comesFirst = sorted := by
    have hOrdered : (values.mergeSort comesFirst).Pairwise fun a b => comesFirst a b = true :=
      List.pairwise_mergeSort comesFirst_trans comesFirst_total values
    refine List.Perm.eq_of_pairwise (fun a b ha hb hab hba => ?_) hOrdered
      (List.pairwise_map.mp hSorted)
      ((List.mergeSort_perm _ _).trans hPerm)
    have ha' := hPerm.mem_iff.mp (List.mem_mergeSort.mp ha)
    exact List.inj_on_of_nodup_map hNodup ha' hb (comesFirst_antisymm hab hba)
  rw [fill, hSort]
  rfl

end Refilling

/-- A part stands on lines of its own. -/
def Stands (part text : List Char) : Prop :=
  ∃ before after, text = before ++ part ++ after ∧ (before = [] ∨ ['\n'] <:+ before) ∧
    (after = [] ∨ ['\n'] <+: after)

namespace Stands

variable {part whole text : List Char}

theorem refl : Stands text text :=
  ⟨[], [], by simp, .inl rfl, .inl rfl⟩

theorem trans (h : Stands part whole) (h' : Stands whole text) : Stands part text := by
  obtain ⟨before, after, rfl, hBefore, hAfter⟩ := h
  obtain ⟨start, rest, rfl, hStart, hRest⟩ := h'
  refine ⟨start ++ before, after ++ rest, by simp, ?_, ?_⟩
  · rcases hBefore with rfl | hBefore
    · simpa using hStart
    · exact .inr (hBefore.trans (List.suffix_append _ _))
  · rcases hAfter with rfl | hAfter
    · simpa using hRest
    · exact .inr (hAfter.trans (List.prefix_append _ _))

theorem infix_newline (h : Stands part text) : part ++ ['\n'] <:+: text ++ ['\n'] := by
  obtain ⟨before, after, rfl, -, hAfter⟩ := h
  rcases hAfter with rfl | ⟨rest, rfl⟩
  · exact ⟨before, [], by simp⟩
  · exact ⟨before, rest ++ ['\n'], by simp⟩

theorem refill {values : List (String × String)}
    (hKeys : ∀ entry ∈ values, '\n' ∉ placeholder entry.1) (h : Stands part text) :
    Stands (refill values part) (refill values text) := by
  obtain ⟨before, after, rfl, hBefore, hAfter⟩ := h
  have hTail : Stands (Source.refill values part) (Source.refill values (part ++ after)) := by
    rcases hAfter with rfl | ⟨rest, rfl⟩
    · simpa using refl
    · refine ⟨[], '\n' :: Source.refill values rest, ?_, .inl rfl, .inr ⟨_, rfl⟩⟩
      simpa using refill_append_cons hKeys part rest
  rcases hBefore with rfl | ⟨start, rfl⟩
  · simpa using hTail
  · refine hTail.trans ⟨Source.refill values start ++ ['\n'], [], ?_, .inr ⟨_, rfl⟩, .inl rfl⟩
    simpa using refill_append_cons hKeys start (part ++ after)

theorem trimEnd {last : Char} (hLast : Text.isBlank last = false)
    (h : Stands (part ++ [last]) text) : Stands (part ++ [last]) (Text.trimEnd text) := by
  obtain ⟨before, after, rfl, hBefore, hAfter⟩ := h
  have hTrim : Text.trimEnd (before ++ (part ++ [last]) ++ after) =
      before ++ (part ++ [last]) ++ Text.trimEnd after := by
    simpa using Text.trimEnd_append_cons hLast (before ++ part) after
  refine ⟨before, Text.trimEnd after, hTrim, hBefore, ?_⟩
  have hPrefix := Text.prefix_trimEnd after
  rcases hAfter with rfl | ⟨rest, rfl⟩
  · exact .inl (List.prefix_nil.mp hPrefix)
  · cases hTrimmed : Text.trimEnd (['\n'] ++ rest) with
    | nil => exact .inl rfl
    | cons c trimmed =>
      rw [hTrimmed, List.singleton_append, List.cons_prefix_cons] at hPrefix
      exact .inr ⟨trimmed, by rw [hPrefix.1]; rfl⟩

end Stands

/-- A text that is empty or ends its last line. -/
def EndsLine (text : List Char) : Prop :=
  text = [] ∨ ['\n'] <:+ text

theorem EndsLine.append {text rest : List Char} (h : EndsLine text) (h' : EndsLine rest) :
    EndsLine (text ++ rest) := by
  rcases h' with rfl | h'
  · simpa using h
  · exact .inr (h'.trans (List.suffix_append _ _))

theorem toList_lines {texts : List String} (h : texts ≠ []) :
    (lines texts).toList = (Text.join "\n" texts).toList ++ ['\n'] := by
  induction texts with
  | nil => exact absurd rfl h
  | cons text texts ih =>
    cases texts with
    | nil => simp [lines, Text.join]
    | cons next texts =>
      have hRest := ih (List.cons_ne_nil _ _)
      simp only [lines, Text.join, List.map_cons, String.join_cons, String.toList_append] at hRest ⊢
      rw [hRest]
      simp

theorem endsLine_lines (texts : List String) : EndsLine (lines texts).toList := by
  cases texts with
  | nil => exact .inl rfl
  | cons text texts => exact .inr ⟨_, (toList_lines (List.cons_ne_nil _ _)).symm⟩

theorem stands_join {text : String} {texts : List String} (h : text ∈ texts) :
    Stands text.toList (Text.join "\n" texts).toList := by
  induction texts with
  | nil => cases h
  | cons first texts ih =>
    cases texts with
    | nil =>
      obtain rfl := List.mem_singleton.mp h
      exact .refl
    | cons next texts =>
      rcases List.mem_cons.mp h with rfl | hRest
      · exact ⟨[], '\n' :: (Text.join "\n" (next :: texts)).toList, by simp [Text.join], .inl rfl,
          .inr ⟨_, rfl⟩⟩
      · refine (ih hRest).trans ⟨first.toList ++ ['\n'], [], ?_, .inr ⟨_, rfl⟩, .inl rfl⟩
        simp [Text.join]

/-- A file holds a text with placeholders filled, which is the text itself if it has none. -/
structure Filled (values : List (String × String)) (file text : String) : Prop where
  refilled : refill values text.toList <:+: file.toList
  verbatim : (∀ entry ∈ values, ¬ placeholder entry.1 <:+: text.toList) →
    text.toList <:+: file.toList

theorem Filled.of_refilled {values : List (String × String)} {file text : String}
    (h : refill values text.toList <:+: file.toList) : Filled values file text :=
  ⟨h, fun hNone => refill_eq_self hNone ▸ h⟩

/-- What stands in a value that a template takes on a line of its own is in the filled template,
with the placeholders filled that come after the value. -/
theorem infix_refill {texts : List String} {part : List Char}
    (before after : List (String × String)) (key value line : String)
    (hLine : line.toList = placeholder key) (hTexts : line ∈ texts)
    (hStands : Stands part value.toList) (earlier later : List String)
    (hEarlier : before.map Prod.fst = earlier) (hLater : after.map Prod.fst = later)
    (hNewline : ∀ k ∈ earlier ++ key :: later, '\n' ∉ placeholder k)
    (hDollar : '$' ∉ key.toList) (hApart : ∀ k ∈ earlier, ¬ k.toList <+: key.toList) :
    refill after (part ++ ['\n']) <:+:
      refill (before ++ (key, value) :: after) (lines texts).toList := by
  have hKeys : ∀ entry ∈ before ++ (key, value) :: after, '\n' ∉ placeholder entry.1 := by
    intro entry h
    refine hNewline entry.1 ?_
    rw [← hEarlier, ← hLater]
    simpa using List.mem_map_of_mem (f := Prod.fst) h
  have hAfter : ∀ entry ∈ after, '\n' ∉ placeholder entry.1 := fun entry h =>
    hKeys entry (List.mem_append_right _ (List.mem_cons_of_mem _ h))
  have hPlaced := (stands_join hTexts).refill hKeys
  rw [hLine, refill_placeholder_of_keys earlier hEarlier hDollar hApart] at hPlaced
  have hInfix := ((hStands.refill hAfter).trans hPlaced).infix_newline
  rw [toList_lines (List.ne_nil_of_mem hTexts), refill_append_cons hKeys,
    refill_append_cons hAfter, refill_nil, refill_nil]
  exact hInfix

theorem moduleTemplate_lines : ∃ texts, moduleTemplate = lines texts ∧
    "$classes_generator_definitions" ∈ texts ∧ "$module_body" ∈ texts :=
  ⟨_, rfl, by simp, by simp⟩

theorem chunkTemplate_lines : ∃ texts, chunkTemplate = lines texts ∧
    "$classes_generator_definitions" ∈ texts :=
  ⟨_, rfl, by simp⟩

end NativeBinding.Source
