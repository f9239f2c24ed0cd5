import NativeBinding.Proofs.Header.Depth

/-! # Where a text is cut

Any text is cut at each delimiter at depth zero outside quotes and nowhere else, and that is the
only way to cut it so. From an open parenthesis, the search for its end counts the parentheses that
are open and never falls below zero.
-/

set_option autoImplicit false

namespace NativeBinding.Header

section Parts

/-- As many brackets closed as opened outside quotes, and no quote open. -/
def Level (text : List Char) : Prop :=
  openQuote none text = none ∧ Brackets.all.depth none text = 0

/-- The delimiter stands at depth zero outside quotes, counted from the start of the text. -/
def Exposes (delimiter : Char) (text : List Char) : Prop :=
  ∃ before after, text = before ++ delimiter :: after ∧ Level before

variable {delimiter c : Char} {text part rest : List Char} {parts : List (List Char)}

theorem not_exposes_nil : ¬ Exposes delimiter [] := by
  rintro ⟨before, after, hNil, -⟩
  simp at hNil

theorem exposes_concat :
    Exposes delimiter (part ++ [c]) ↔ Exposes delimiter part ∨ c = delimiter ∧ Level part := by
  constructor
  · rintro ⟨before, after, hText, hLevel⟩
    rcases List.eq_nil_or_concat after with rfl | ⟨more, d, rfl⟩
    · obtain ⟨rfl, hLast⟩ := List.append_inj' hText rfl
      exact .inr ⟨List.singleton_inj.mp hLast, hLevel⟩
    · rw [List.concat_eq_append, ← List.cons_append, ← List.append_assoc] at hText
      exact .inl ⟨before, more, (List.append_inj' hText rfl).1, hLevel⟩
  · rintro (⟨before, after, rfl, hLevel⟩ | ⟨rfl, hLevel⟩)
    · exact ⟨before, after ++ [c], by simp, hLevel⟩
    · exact ⟨part, [], rfl, hLevel⟩

/-- The parts of a text that is cut at each delimiter at depth zero outside quotes, and nowhere
else. -/
structure Cut (delimiter : Char) (text : List Char) (parts : List (List Char)) : Prop where
  nonempty : parts ≠ []
  joined : [delimiter].intercalate parts = text
  whole : ∀ part ∈ parts, ¬ Exposes delimiter part
  level : ∀ part ∈ parts.dropLast, Level part

namespace Cut

theorem single (h : ¬ Exposes delimiter text) : Cut delimiter text [text] where
  nonempty := List.cons_ne_nil _ _
  joined := by simp [List.intercalate]
  whole := by simpa using h
  level := by simp

theorem cons (hLevel : Level part) (hWhole : ¬ Exposes delimiter part)
    (h : Cut delimiter rest parts) :
    Cut delimiter (part ++ delimiter :: rest) (part :: parts) where
  nonempty := List.cons_ne_nil _ _
  joined := by
    obtain ⟨next, more, rfl⟩ := List.exists_cons_of_ne_nil h.nonempty
    rw [← h.joined]
    simp [List.intercalate]
  whole := List.forall_mem_cons.mpr ⟨hWhole, h.whole⟩
  level := by
    rw [List.dropLast_cons_of_ne_nil h.nonempty]
    exact List.forall_mem_cons.mpr ⟨hLevel, h.level⟩

theorem uncons {next : List Char} (h : Cut delimiter text (part :: next :: parts)) :
    ∃ rest, text = part ++ delimiter :: rest ∧ Level part ∧
      Cut delimiter rest (next :: parts) := by
  have hLevel := h.level
  rw [List.dropLast_cons_of_ne_nil (List.cons_ne_nil _ _)] at hLevel
  refine ⟨[delimiter].intercalate (next :: parts), ?_, hLevel part List.mem_cons_self, ?_⟩
  · rw [← h.joined]
    simp [List.intercalate]
  · exact
      { nonempty := List.cons_ne_nil _ _
        joined := rfl
        whole := fun p hp => h.whole p (List.mem_cons_of_mem _ hp)
        level := fun p hp => hLevel p (List.mem_cons_of_mem _ hp) }

theorem head_inj {part' rest' : List Char} (hLevel : Level part) (hLevel' : Level part')
    (hWhole : ¬ Exposes delimiter part) (hWhole' : ¬ Exposes delimiter part')
    (h : part ++ delimiter :: rest = part' ++ delimiter :: rest') :
    part = part' ∧ rest = rest' := by
  rcases List.append_eq_append_iff.mp h with ⟨more, rfl, hRest⟩ | ⟨more, rfl, hRest⟩
  · cases more with
    | nil => exact ⟨(List.append_nil _).symm, (List.cons.inj hRest).2⟩
    | cons d more =>
      obtain ⟨rfl, -⟩ := List.cons.inj hRest
      exact absurd ⟨part, more, rfl, hLevel⟩ hWhole'
  · cases more with
    | nil => exact ⟨List.append_nil _, (List.cons.inj hRest).2.symm⟩
    | cons d more =>
      obtain ⟨rfl, -⟩ := List.cons.inj hRest
      exact absurd ⟨part', more, rfl, hLevel'⟩ hWhole

theorem not_exposes_of_single (h : Cut delimiter text [part]) : ¬ Exposes delimiter text := by
  have hText : part = text := by simpa [List.intercalate] using h.joined
  exact hText ▸ h.whole part List.mem_cons_self

theorem unique {parts' : List (List Char)} (h : Cut delimiter text parts)
    (h' : Cut delimiter text parts') : parts = parts' := by
  induction parts generalizing text parts' with
  | nil => exact absurd rfl h.nonempty
  | cons part parts ih =>
    obtain ⟨part', parts', rfl⟩ := List.exists_cons_of_ne_nil h'.nonempty
    cases parts with
    | nil =>
      cases parts' with
      | nil =>
        have hParts := h.joined.trans h'.joined.symm
        simpa [List.intercalate] using hParts
      | cons next' parts' =>
        obtain ⟨rest', hText, hLevel, -⟩ := h'.uncons
        exact absurd ⟨part', rest', hText, hLevel⟩ h.not_exposes_of_single
    | cons next parts =>
      obtain ⟨rest, hText, hLevel, hRest⟩ := h.uncons
      cases parts' with
      | nil => exact absurd ⟨part, rest, hText, hLevel⟩ h'.not_exposes_of_single
      | cons next' parts' =>
        obtain ⟨rest', hText', hLevel', hRest'⟩ := h'.uncons
        obtain ⟨rfl, rfl⟩ := head_inj hLevel hLevel' (h.whole part List.mem_cons_self)
          (h'.whole part' List.mem_cons_self) (hText.symm.trans hText')
        rw [ih hRest hRest']

end Cut

/-- The part that is open has the depth and the quote that the cuts go on with, and so all parts are
counted from their own start. -/
theorem cut_splitFrom (hDelimiter : Separates delimiter) (part text : List Char)
    (hWhole : ¬ Exposes delimiter part.reverse) :
    Cut delimiter (part.reverse ++ text)
      (splitFrom delimiter (Brackets.all.depth none part.reverse) (openQuote none part.reverse) part
        text) := by
  induction text generalizing part with
  | nil =>
    rw [List.append_nil]
    exact Cut.single hWhole
  | cons c text ih =>
    rw [splitFrom_step]
    split_ifs with hCut
    · obtain ⟨hQuote, rfl, -, hDepth⟩ := hCut
      exact Cut.cons ⟨hQuote, hDepth⟩ hWhole (ih [] not_exposes_nil)
    · have hNext := ih (c :: part)
      rw [List.reverse_cons, exposes_concat, Brackets.depth_append, openQuote_append,
        List.append_assoc] at hNext
      refine hNext ?_
      rintro (hBefore | ⟨rfl, hQuote, hDepth⟩)
      · exact hWhole hBefore
      · exact hCut ⟨hQuote, rfl, hDelimiter, hDepth⟩

theorem cut_splitTopLevel (hDelimiter : Separates delimiter) (text : List Char) :
    Cut delimiter text (splitTopLevel delimiter text) :=
  cut_splitFrom hDelimiter [] text not_exposes_nil

/-- After any beginning of a text, cuts or not, the count goes on from the depth of that
beginning. -/
theorem splitFrom_run (delimiter : Char) (depth : Int) (quote : Option Char)
    (part before rest : List Char) :
    ∃ done part', splitFrom delimiter depth quote part (before ++ rest) =
      done ++ splitFrom delimiter (depth + Brackets.all.depth quote before)
        (openQuote quote before) part' rest := by
  induction before generalizing depth quote part with
  | nil =>
    rw [Brackets.depth_nil, Int.add_zero]
    exact ⟨[], part, rfl⟩
  | cons c before ih =>
    rw [List.cons_append, splitFrom_step, Brackets.depth_cons c before, ← Int.add_assoc]
    split_ifs with hCut
    · obtain ⟨rfl, -, ⟨hQuote, hOpen, hClose⟩, rfl⟩ := hCut
      have hDepth : Brackets.all.depth none [c] = 0 := Brackets.depth_other hQuote hOpen hClose
      have hAfter : quoteAfter none c = none := if_neg (ne_true_of_eq_false hQuote)
      obtain ⟨done, part', hRun⟩ := ih 0 none []
      refine ⟨part.reverse :: done, part', ?_⟩
      rw [hRun, hDepth, openQuote_cons, hAfter, Int.add_zero, List.cons_append]
    · exact ih _ _ _

/-- The cuts of a text at a delimiter: the only way to cut it so, made while the depth is counted,
which stays within the length of what has been read. -/
structure Parted (delimiter : Char) (text : List Char) : Prop where
  cut : Cut delimiter text (splitTopLevel delimiter text)
  unique : ∀ parts, Cut delimiter text parts → parts = splitTopLevel delimiter text
  counted : ∀ before rest, text = before ++ rest →
    (Brackets.all.depth none before).natAbs ≤ before.length ∧
      ∃ done part, splitTopLevel delimiter text =
        done ++ splitFrom delimiter (Brackets.all.depth none before) (openQuote none before) part
          rest

theorem parted_of_separates (hDelimiter : Separates delimiter) (text : List Char) :
    Parted delimiter text := by
  have hCut := cut_splitTopLevel hDelimiter text
  refine ⟨hCut, fun parts hParts => hParts.unique hCut, ?_⟩
  rintro before rest rfl
  obtain ⟨done, part, hRun⟩ := splitFrom_run delimiter 0 none [] before rest
  rw [Int.zero_add] at hRun
  exact ⟨Brackets.natAbs_depth_le before, done, part, hRun⟩

end Parts

section Search

/-- How the search for the parenthesis that closes another ends. -/
inductive Search where
  | found (position : Nat)
  | unclosed
  /-- A parenthesis closes where none is open. -/
  | underflow
  deriving DecidableEq

/-- Counts the parentheses that are open, `position` being that of the text. -/
def searchFrom (opened : Nat) (quote : Option Char) (position : Nat) : List Char → Search
  | [] => .unclosed
  | c :: rest =>
    match quote with
    | some q => searchFrom opened (if c == q then none else some q) (position + 1) rest
    | none =>
      if isQuote c then searchFrom opened (some c) (position + 1) rest
      else if c == '(' then searchFrom (opened + 1) none (position + 1) rest
      else if c == ')' then
        match opened with
        | 0 => .underflow
        | 1 => .found position
        | opened + 2 => searchFrom (opened + 1) none (position + 1) rest
      else searchFrom opened none (position + 1) rest

/-- Searches for the parenthesis that closes the one at a position. -/
def searchClose (text : List Char) (start : Nat) : Search :=
  searchFrom 0 none start (text.drop start)

/-- The first position after `start` at which as many parentheses outside quotes have closed as have
opened since. -/
structure Closes (text : List Char) (start stop : Nat) : Prop where
  later : start < stop
  inside : stop < text.length
  balanced : Brackets.parens.depth none (text.extract start (stop + 1)) = 0
  first : ∀ i, start < i → i < stop → Brackets.parens.depth none (text.extract start (i + 1)) ≠ 0

variable {opened : Nat} {quote : Option Char} {position : Nat} {text inner rest : List Char}

theorem searchFrom_step (opened : Nat) (quote : Option Char) (position : Nat) (c : Char)
    (text : List Char) :
    ∃ next : Nat, (next : Int) = opened + 1 + Brackets.parens.depth quote [c] ∧
      searchFrom (opened + 1) quote position (c :: text) =
        match next with
        | 0 => .found position
        | next + 1 => searchFrom (next + 1) (quoteAfter quote c) (position + 1) text := by
  rcases paren_cases quote c with ⟨rfl, rfl⟩ | ⟨rfl, rfl⟩ | ⟨hDepth, hOther⟩
  · exact ⟨opened + 2, rfl, rfl⟩
  · refine ⟨opened, (Int.add_neg_cancel_right _ 1).symm, ?_⟩
    cases opened <;> rfl
  · refine ⟨opened + 1, by rw [hDepth, Int.add_zero]; rfl, ?_⟩
    cases quote with
    | some q => rfl
    | none =>
      obtain ⟨hOpen, hClose⟩ := hOther rfl
      by_cases hQuote : isQuote c = true <;>
        simp [searchFrom, quoteAfter, hQuote, hOpen, hClose]

theorem searchFrom_eq_found_iff {stop : Nat} :
    searchFrom (opened + 1) quote position text = .found stop ↔
      ∃ n, stop = position + n ∧ n < text.length ∧
        opened + 1 + Brackets.parens.depth quote (text.take (n + 1)) = 0 ∧
        ∀ m < n, opened + 1 + Brackets.parens.depth quote (text.take (m + 1)) ≠ 0 := by
  induction text generalizing opened quote position with
  | nil => simp [searchFrom]
  | cons c text ih =>
    obtain ⟨next, hNext, hSearch⟩ := searchFrom_step opened quote position c text
    have hHere : opened + 1 + Brackets.parens.depth quote ((c :: text).take 1) = next := by
      rw [hNext]
      rfl
    rw [hSearch]
    cases next with
    | zero =>
      constructor
      · intro hFound
        cases hFound
        exact ⟨0, rfl, by simp, hHere, nofun⟩
      · rintro ⟨n, rfl, -, -, hFirst⟩
        cases n with
        | zero => rfl
        | succ n => exact absurd hHere (hFirst 0 (Nat.zero_lt_succ n))
    | succ next =>
      -- What is open after more characters is what the rest leaves of the next count.
      have hLater (n : Nat) :
          opened + 1 + Brackets.parens.depth quote ((c :: text).take (n + 2)) =
            next + 1 + Brackets.parens.depth (quoteAfter quote c) (text.take (n + 1)) := by
        rw [List.take_succ_cons, Brackets.depth_cons]
        omega
      rw [ih]
      constructor
      · rintro ⟨n, rfl, hInside, hZero, hFirst⟩
        refine ⟨n + 1, by omega, Nat.succ_lt_succ hInside, (hLater n).trans hZero, ?_⟩
        intro m hm
        cases m with
        | zero =>
          rw [hHere]
          omega
        | succ m =>
          rw [hLater]
          exact hFirst m (Nat.lt_of_succ_lt_succ hm)
      · rintro ⟨n, rfl, hInside, hZero, hFirst⟩
        cases n with
        | zero =>
          rw [hHere] at hZero
          omega
        | succ n =>
          refine ⟨n, by omega, Nat.lt_of_succ_lt_succ hInside, (hLater n).symm.trans hZero, ?_⟩
          intro m hm
          rw [← hLater]
          exact hFirst (m + 1) (Nat.succ_lt_succ hm)

theorem searchFrom_eq (opened : Nat) (quote : Option Char) (position : Nat) (text : List Char) :
    searchFrom (opened + 1) quote position text =
      match splitAtClose opened quote text with
      | none => .unclosed
      | some (inner, _) => .found (position + inner.length) := by
  induction text generalizing opened quote position with
  | nil => rfl
  | cons c text ih =>
    obtain ⟨next, hNext, hSearch⟩ := searchFrom_step opened quote position c text
    obtain ⟨next', hNext', hSplit⟩ := splitAtClose_step opened quote c text
    obtain rfl : next = next' := by omega
    rw [hSearch, hSplit]
    cases next with
    | zero => rfl
    | succ next =>
      dsimp only
      rw [ih]
      cases splitAtClose next (quoteAfter quote c) text with
      | none => rfl
      | some cut => simp [Nat.add_assoc, Nat.add_comm 1]

theorem take_drop_of_splitAtClose (h : splitAtClose opened quote text = some (inner, rest)) :
    text.take inner.length = inner ∧ text.drop (inner.length + 1) = rest := by
  induction text generalizing opened quote inner with
  | nil => cases h
  | cons c text ih =>
    obtain ⟨next, -, hSplit⟩ := splitAtClose_step opened quote c text
    rw [hSplit] at h
    cases next with
    | zero =>
      cases h
      exact ⟨rfl, rfl⟩
    | succ next =>
      obtain ⟨⟨inner', after⟩, hCut, hMade⟩ := Option.map_eq_some_iff.mp h
      cases hMade
      obtain ⟨hInner, hRest⟩ := ih hCut
      exact ⟨congrArg (c :: ·) hInner, hRest⟩

variable {start : Nat}

theorem drop_of_getElem? (h : text[start]? = some '(') :
    text.drop start = '(' :: text.drop (start + 1) := by
  obtain ⟨hInside, hHere⟩ := List.getElem?_eq_some_iff.mp h
  rw [List.drop_eq_getElem_cons hInside, hHere]

theorem searchClose_eq (h : text[start]? = some '(') :
    searchClose text start = searchFrom 1 none (start + 1) (text.drop (start + 1)) := by
  rw [searchClose, drop_of_getElem? h]
  rfl

theorem depth_extract (h : text[start]? = some '(') (n : Nat) :
    Brackets.parens.depth none (text.extract start (start + 1 + n + 1)) =
      1 + Brackets.parens.depth none ((text.drop (start + 1)).take (n + 1)) := by
  have hLength : start + 1 + n + 1 - start = n + 2 := by omega
  rw [List.extract_eq_take_drop, hLength, drop_of_getElem? h, List.take_succ_cons,
    Brackets.depth_cons]
  rfl

theorem searchClose_eq_found_iff (h : text[start]? = some '(') (stop : Nat) :
    searchClose text start = .found stop ↔ Closes text start stop := by
  rw [searchClose_eq h, searchFrom_eq_found_iff]
  constructor
  · rintro ⟨n, rfl, hInside, hZero, hFirst⟩
    rw [List.length_drop] at hInside
    refine ⟨by omega, by omega, (depth_extract h n).trans hZero, fun i hLater hBefore => ?_⟩
    obtain ⟨m, rfl⟩ := Nat.exists_eq_add_of_le (Nat.succ_le_of_lt hLater)
    rw [depth_extract h]
    exact hFirst m (by omega)
  · rintro ⟨hLater, hInside, hZero, hFirst⟩
    obtain ⟨n, rfl⟩ := Nat.exists_eq_add_of_le (Nat.succ_le_of_lt hLater)
    rw [depth_extract h] at hZero
    refine ⟨n, rfl, by rw [List.length_drop]; omega, hZero, fun m hm => ?_⟩
    have hNone := hFirst (start + 1 + m) (by omega) (by omega)
    rwa [depth_extract h] at hNone

/-- The search from an open parenthesis. It never counts below zero, it ends at the first position
at which the parentheses are balanced, and a method is cut there. -/
structure Matched (text : List Char) (start : Nat) : Prop where
  counted : searchClose text start ≠ .underflow
  found_iff : ∀ stop, searchClose text start = .found stop ↔ Closes text start stop
  cut_iff : ∀ inner after, splitAtClose 0 none (text.drop (start + 1)) = some (inner, after) ↔
    ∃ stop, searchClose text start = .found stop ∧ inner = text.extract (start + 1) stop ∧
      after = text.drop (stop + 1)

theorem matched_of_open (h : text[start]? = some '(') : Matched text start := by
  have hSearch := searchFrom_eq 0 none (start + 1) (text.drop (start + 1))
  rw [Nat.zero_add, ← searchClose_eq h] at hSearch
  cases hCut : splitAtClose 0 none (text.drop (start + 1)) with
  | none =>
    rw [hCut] at hSearch
    exact
      { counted := by simp [hSearch]
        found_iff := searchClose_eq_found_iff h
        cut_iff := by simp [hCut, hSearch] }
  | some cut =>
    obtain ⟨inner, after⟩ := cut
    rw [hCut] at hSearch
    obtain ⟨hInner, hAfter⟩ := take_drop_of_splitAtClose hCut
    have hExtract : text.extract (start + 1) (start + 1 + inner.length) = inner := by
      rw [List.extract_eq_take_drop, Nat.add_sub_cancel_left, hInner]
    have hDrop : text.drop (start + 1 + inner.length + 1) = after := by
      rw [Nat.add_assoc (start + 1), ← List.drop_drop, hAfter]
    exact
      { counted := by simp [hSearch]
        found_iff := searchClose_eq_found_iff h
        cut_iff := by
          intro inner' after'
          rw [hCut, Option.some.injEq, Prod.mk.injEq]
          constructor
          · rintro ⟨rfl, rfl⟩
            exact ⟨_, hSearch, hExtract.symm, hDrop.symm⟩
          · rintro ⟨stop, hStop, rfl, rfl⟩
            obtain rfl := Search.found.inj (hSearch.symm.trans hStop)
            exact ⟨hExtract.symm, hDrop.symm⟩ }

example : searchClose ['f', '(', ')', ')'] 2 = .underflow := rfl

end Search

/-- Any text is cut at each delimiter at depth zero outside quotes and nowhere else, and from each
of its open parentheses the search for the end finds the first position at which the parentheses
are balanced. The one count stays within the length of the text, the other never falls below
zero. -/
theorem cuts_and_closes (text : List Char) :
    (∀ delimiter, Separates delimiter → Parted delimiter text) ∧
      ∀ start, text[start]? = some '(' → Matched text start :=
  ⟨fun _ hDelimiter => parted_of_separates hDelimiter text, fun _ => matched_of_open⟩

def overclosed : List Char :=
  "a, f(b, \")\"), c), d".toList

theorem cuts_and_closes_sample :
    Separates ',' ∧ overclosed[4]? = some '(' ∧
      Cut ',' overclosed ["a".toList, " f(b, \")\")".toList, " c), d".toList] ∧
      Closes overclosed 4 11 ∧
      splitAtClose 0 none (overclosed.drop 5) =
        some ("b, \")\"".toList, ", c), d".toList) := by
  have hDelimiter : Separates ',' := by decide
  have hOpen : overclosed[4]? = some '(' := by decide +kernel
  obtain ⟨hParts, hSearch⟩ := cuts_and_closes overclosed
  have hSplit : splitTopLevel ',' overclosed =
      ["a".toList, " f(b, \")\")".toList, " c), d".toList] := by decide +kernel
  have hFound : searchClose overclosed 4 = .found 11 := by decide +kernel
  refine ⟨hDelimiter, hOpen, hSplit ▸ (hParts ',' hDelimiter).cut,
    ((hSearch 4 hOpen).found_iff 11).mp hFound, ?_⟩
  exact ((hSearch 4 hOpen).cut_iff _ _).mpr ⟨11, hFound, by decide +kernel, by decide +kernel⟩

end NativeBinding.Header
