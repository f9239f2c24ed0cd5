import NativeBinding.Json.Printer
import NativeBinding.Proofs.Ieee.Reading

/-! # A compact text has one value

A string ends at the first quote that is not escaped, a number at the first character that is none
of its own, and every other value at its closing bracket. A value is therefore known from any text
that begins with its compact form, also where more follows. Floating-point numbers have to be
finite: the others are written as null.
-/

set_option autoImplicit false

namespace NativeBinding.Json

open Ieee Text

section Strings

/-- The characters that a string cannot hold as they are. -/
def escapedChars : List Char :=
  '"' :: '\\' :: (List.range 32).map Char.ofNat

theorem beq_of_not_escaped {c d : Char} (hc : c ∉ escapedChars) (hd : d ∈ escapedChars) :
    (c == d) = false :=
  beq_eq_false_iff_ne.mpr fun hEq => hc (hEq ▸ hd)

theorem not_control_of_not_escaped {c : Char} (h : c ∉ escapedChars) : ¬ c.toNat < 0x20 :=
  fun hLess => h (List.mem_cons_of_mem _ (List.mem_cons_of_mem _
    (List.mem_map.mpr ⟨c.toNat, List.mem_range.mpr hLess, Char.ofNat_toNat c⟩)))

theorem encodeChar_plain {c : Char} (h : c ∉ escapedChars) : encodeChar c = [c] := by
  have hNot {d : Char} (hd : d ∈ escapedChars) : (c == d) = false := beq_of_not_escaped h hd
  simp only [encodeChar, not_control_of_not_escaped h, if_false, hNot (d := '"') (by decide),
    hNot (d := '\\') (by decide), hNot (d := '\x08') (by decide), hNot (d := '\x0c') (by decide),
    hNot (d := '\n') (by decide), hNot (d := '\r') (by decide), hNot (d := '\t') (by decide),
    Bool.false_eq_true]

theorem exists_escape {c : Char} (h : c ∈ escapedChars) :
    ∃ rest, encodeChar c = '\\' :: rest := by
  have hHeads : (escapedChars.all fun c => (encodeChar c).head? == some '\\') = true := by decide
  exact ⟨_, List.eq_cons_of_mem_head? (beq_iff_eq.mp (List.all_eq_true.mp hHeads c h))⟩

theorem encodeChar_prefix_free {c d : Char} (hc : c ∈ escapedChars) (hd : d ∈ escapedChars)
    (h : encodeChar c <+: encodeChar d) : c = d := by
  have hFree : (escapedChars.all fun c => escapedChars.all fun d =>
      !(encodeChar c).isPrefixOf (encodeChar d) || c == d) = true := by decide
  have hPair := List.all_eq_true.mp (List.all_eq_true.mp hFree c hc) d hd
  simpa [List.isPrefixOf_iff_prefix.mpr h] using hPair

theorem encodeChar_ne_escaped {c d : Char} {xs ys : List Char} (hc : c ∉ escapedChars)
    (hd : d ∈ escapedChars) : encodeChar c ++ xs ≠ encodeChar d ++ ys := by
  intro h
  obtain ⟨rest, hEscape⟩ := exists_escape hd
  rw [encodeChar_plain hc, hEscape] at h
  obtain ⟨rfl, -⟩ := List.cons.inj h
  exact hc (by decide)

theorem encodeChar_append_inj {c d : Char} {xs ys : List Char}
    (h : encodeChar c ++ xs = encodeChar d ++ ys) : c = d ∧ xs = ys := by
  have hSame : c = d := by
    by_cases hc : c ∈ escapedChars <;> by_cases hd : d ∈ escapedChars
    · rcases List.prefix_or_prefix_of_prefix (h ▸ List.prefix_append _ xs)
        (List.prefix_append (encodeChar d) ys) with hPrefix | hPrefix
      · exact encodeChar_prefix_free hc hd hPrefix
      · exact (encodeChar_prefix_free hd hc hPrefix).symm
    · exact absurd h.symm (encodeChar_ne_escaped hd hc)
    · exact absurd h (encodeChar_ne_escaped hc hd)
    · rw [encodeChar_plain hc, encodeChar_plain hd] at h
      exact (List.cons.inj h).1
  subst hSame
  exact ⟨rfl, List.append_cancel_left h⟩

theorem encodeChar_ne_quote (c : Char) (xs ys : List Char) : encodeChar c ++ xs ≠ '"' :: ys := by
  intro h
  by_cases hc : c ∈ escapedChars
  · obtain ⟨rest, hEscape⟩ := exists_escape hc
    rw [hEscape] at h
    cases (List.cons.inj h).1
  · rw [encodeChar_plain hc] at h
    obtain ⟨rfl, -⟩ := List.cons.inj h
    exact hc (by decide)

theorem encoded_append_inj {cs ds xs ys : List Char}
    (h : cs.flatMap encodeChar ++ '"' :: xs = ds.flatMap encodeChar ++ '"' :: ys) :
    cs = ds ∧ xs = ys := by
  induction cs generalizing ds with
  | nil =>
    cases ds with
    | nil => exact ⟨rfl, (List.cons.inj h).2⟩
    | cons d ds =>
      rw [List.flatMap_cons, List.append_assoc] at h
      exact absurd h.symm (encodeChar_ne_quote d _ _)
  | cons c cs ih =>
    rw [List.flatMap_cons, List.append_assoc] at h
    cases ds with
    | nil => exact absurd h (encodeChar_ne_quote c _ _)
    | cons d ds =>
      rw [List.flatMap_cons, List.append_assoc] at h
      obtain ⟨rfl, hRest⟩ := encodeChar_append_inj h
      obtain ⟨rfl, hEnd⟩ := ih hRest
      exact ⟨rfl, hEnd⟩

theorem stringText_append_inj {s t : String} {xs ys : List Char}
    (h : stringText s ++ xs = stringText t ++ ys) : s = t ∧ xs = ys := by
  simp only [stringText, List.cons_append, List.append_assoc] at h
  obtain ⟨hChars, hRest⟩ := encoded_append_inj (List.cons.inj h).2
  exact ⟨String.toList_inj.mp hChars, hRest⟩

end Strings

section Numbers

theorem floatText_spelled {x : Binary64} (h : x.isFinite = true) :
    (∀ c ∈ floatText x, Spelling.isMark c = true) ∧ ('.' ∈ floatText x ∨ 'e' ∈ floatText x) := by
  obtain ⟨s, hText, hValid, hMarked, -⟩ := Binary64.render_spelled h .document
  have hMarks := fun c (hc : c ∈ s.chars Style.document.signsExponent) =>
    Spelling.isMark_of_mem_chars hValid hc
  have hPoint := Spelling.exists_mark (hMarked rfl) Style.document.signsExponent
  simp only [floatText, h, if_true, hText]
  split
  · refine ⟨fun c hc => ?_, hPoint.imp (List.mem_cons_of_mem _) (List.mem_cons_of_mem _)⟩
    rcases List.mem_cons.mp hc with rfl | hc
    · decide
    · exact hMarks c hc
  · exact ⟨hMarks, hPoint⟩

theorem floatText_ne_nil {x : Binary64} (h : x.isFinite = true) : floatText x ≠ [] := by
  intro hNil
  rcases hNil ▸ (floatText_spelled h).2 with hc | hc <;> cases hc

theorem integerChars_ne_nil (n : Int) : integerChars n ≠ [] := by
  obtain ⟨c, rest, hChars, -⟩ := exists_naturalChars n.natAbs
  unfold integerChars
  split <;> simp [hChars]

theorem floatText_injective {x y : Binary64} (hx : x.isFinite = true) (hy : y.isFinite = true)
    (h : floatText x = floatText y) : x = y := by
  simp only [floatText, hx, hy, if_true] at h
  have hRead := Binary64.parse?_render hx .document
  rw [h, Binary64.parse?_render hy] at hRead
  exact (Option.some.inj hRead).symm

theorem integerChars_injective {n m : Int} (h : integerChars n = integerChars m) : n = m := by
  have hRead := integer?_integerChars n
  rw [h, integer?_integerChars] at hRead
  exact (Option.some.inj hRead).symm

theorem integerChars_ne_floatText {n : Int} {x : Binary64} (hx : x.isFinite = true) :
    integerChars n ≠ floatText x := by
  intro h
  rcases h ▸ (floatText_spelled hx).2 with hPoint | hPower
  · rcases mem_integerChars hPoint with hDigit | hMinus
    · revert hDigit
      decide
    · revert hMinus
      decide
  · rcases mem_integerChars hPower with hDigit | hMinus
    · revert hDigit
      decide
    · revert hMinus
      decide

end Numbers

/-- Values whose floating-point numbers have digits. -/
inductive Finite : Json → Prop where
  | null : Finite null
  | bool (value : Bool) : Finite (bool value)
  | int (n : Int) : Finite (int n)
  | float {x : Binary64} (h : x.isFinite = true) : Finite (float x)
  | text (value : String) : Finite (text value)
  | array {items : List Json} (h : ∀ item ∈ items, Finite item) : Finite (array items)
  | object {members : List (String × Json)} (h : ∀ m ∈ members, Finite m.2) :
    Finite (object members)

/-- The text goes on with what may follow a value inside a document. -/
def Follows (rest : List Char) : Prop :=
  ∀ c ∈ rest.head?, c = ',' ∨ c = ']' ∨ c = '\x7d'

theorem Follows.not_mark {rest : List Char} (h : Follows rest) :
    ∀ c ∈ rest.head?, Spelling.isMark c = false := by
  intro c hc
  rcases h c hc with rfl | rfl | rfl <;> decide

theorem follows_cons {c : Char} {rest : List Char} (h : c = ',' ∨ c = ']' ∨ c = '\x7d') :
    Follows (c :: rest) := by
  intro d hd
  cases hd
  exact h

theorem number_append_inj {n m xs ys : List Char} (hn : ∀ c ∈ n, Spelling.isMark c = true)
    (hm : ∀ c ∈ m, Spelling.isMark c = true) (hx : Follows xs) (hy : Follows ys)
    (h : n ++ xs = m ++ ys) : n = m ∧ xs = ys := by
  obtain ⟨hTaken, hLeft⟩ := takeWhile_run hn hx.not_mark
  obtain ⟨hTaken', hLeft'⟩ := takeWhile_run hm hy.not_mark
  rw [h] at hTaken hLeft
  exact ⟨hTaken.symm.trans hTaken', hLeft.symm.trans hLeft'⟩

section Pieces

variable {α : Type} {f : α → List Char}

theorem separated_cons (separator piece : List Char) (rest : List (List Char)) :
    separated separator (piece :: rest) =
      piece ++ if rest.isEmpty then [] else separator ++ separated separator rest := by
  cases rest <;> simp [separated]

/-- Two values with texts that tell them apart, whatever may follow. -/
def Told (f : α → List Char) (a b : α) : Prop :=
  ∀ ⦃xs ys : List Char⦄, Follows xs → Follows ys → f a ++ xs = f b ++ ys → a = b ∧ xs = ys

theorem separated_append_inj {close : Char} (hClose : close = ']' ∨ close = '\x7d')
    {as bs : List α} {xs ys : List Char} (hTold : ∀ a ∈ as, ∀ b ∈ bs, Told f a b)
    (hStart : ∀ a, a ∈ as ∨ a ∈ bs → ∀ us vs, f a ++ us ≠ close :: vs)
    (h : separated [','] (as.map f) ++ close :: xs = separated [','] (bs.map f) ++ close :: ys) :
    as = bs ∧ xs = ys := by
  have hComma : close ≠ ',' := by rcases hClose with rfl | rfl <;> decide
  have hFollows (cs : List α) (us : List Char) :
      Follows ((if (cs.map f).isEmpty then [] else [','] ++ separated [','] (cs.map f)) ++
        close :: us) := by
    cases cs with
    | nil => exact follows_cons (Or.inr hClose)
    | cons c cs => exact follows_cons (Or.inl rfl)
  induction as generalizing bs with
  | nil =>
    cases bs with
    | nil => exact ⟨rfl, (List.cons.inj h).2⟩
    | cons b bs =>
      rw [List.map_cons, separated_cons, List.append_assoc] at h
      exact absurd h.symm (hStart b (Or.inr List.mem_cons_self) _ _)
  | cons a as ih =>
    rw [List.map_cons, separated_cons, List.append_assoc] at h
    cases bs with
    | nil => exact absurd h (hStart a (Or.inl List.mem_cons_self) _ _)
    | cons b bs =>
      rw [List.map_cons, separated_cons, List.append_assoc] at h
      obtain ⟨rfl, hRest⟩ := hTold a List.mem_cons_self b List.mem_cons_self (hFollows as xs)
        (hFollows bs ys) h
      have hTails : ∀ a' ∈ as, ∀ b' ∈ bs, Told f a' b' := fun a' ha b' hb =>
        hTold a' (List.mem_cons_of_mem _ ha) b' (List.mem_cons_of_mem _ hb)
      match as, bs with
      | [], [] => exact ⟨rfl, (List.cons.inj hRest).2⟩
      | [], _ :: _ => exact absurd (List.cons.inj hRest).1 hComma
      | _ :: _, [] => exact absurd (List.cons.inj hRest).1.symm hComma
      | _ :: _, _ :: _ =>
        obtain ⟨hSame, hEnd⟩ := ih hTails
          (fun c hc => hStart c (hc.imp (List.mem_cons_of_mem _) (List.mem_cons_of_mem _)))
          (List.cons.inj hRest).2
        exact ⟨congrArg _ hSame, hEnd⟩

end Pieces

theorem compactItems_eq (items : List Json) : compactItems items = items.map compactChars := by
  induction items with
  | nil => rfl
  | cons item items ih => rw [compactItems, ih, List.map_cons]

def memberChars (m : String × Json) : List Char :=
  stringText m.1 ++ ':' :: compactChars m.2

theorem compactMembers_eq (members : List (String × Json)) :
    compactMembers members = members.map memberChars := by
  induction members with
  | nil => rfl
  | cons m members ih =>
    obtain ⟨name, value⟩ := m
    rw [compactMembers, ih, List.map_cons, memberChars]

section Kinds

/-- What the first character of a text tells of the value. -/
inductive Kind where
  | null
  | bool (value : Bool)
  | number
  | text
  | array
  | object

def kind : Json → Kind
  | null => .null
  | bool value => .bool value
  | int _ | float _ => .number
  | text _ => .text
  | array _ => .array
  | object _ => .object

def kindOf? (c : Char) : Option Kind :=
  if Spelling.isMark c then some .number
  else if c = 'n' then some .null
  else if c = 't' then some (.bool true)
  else if c = 'f' then some (.bool false)
  else if c = '"' then some .text
  else if c = '[' then some .array
  else if c = '\x7b' then some .object
  else none

theorem number_start {n : List Char} (hMarks : ∀ c ∈ n, Spelling.isMark c = true) (hn : n ≠ []) :
    ∃ c rest, n = c :: rest ∧ kindOf? c = some .number := by
  obtain ⟨c, rest, rfl⟩ := List.exists_cons_of_ne_nil hn
  exact ⟨c, rest, rfl, if_pos (hMarks c List.mem_cons_self)⟩

theorem compactChars_start {j : Json} (h : Finite j) :
    ∃ c rest, compactChars j = c :: rest ∧ kindOf? c = some j.kind := by
  cases h with
  | null => exact ⟨_, _, compactChars.eq_1, rfl⟩
  | bool value => cases value <;> exact ⟨_, _, by rw [compactChars], rfl⟩
  | int n =>
    rw [compactChars]
    exact number_start (fun c hc => Spelling.isMark_of_mem_integerChars hc) (integerChars_ne_nil n)
  | float h =>
    rw [compactChars]
    exact number_start (floatText_spelled h).1 (floatText_ne_nil h)
  | text value => exact ⟨_, _, by rw [compactChars, stringText]; rfl, rfl⟩
  | array h => exact ⟨_, _, by rw [compactChars]; rfl, rfl⟩
  | object h => exact ⟨_, _, by rw [compactChars]; rfl, rfl⟩

theorem compactChars_ne_close {j : Json} (h : Finite j) {close : Char}
    (hClose : close = ']' ∨ close = '\x7d') (us vs : List Char) :
    compactChars j ++ us ≠ close :: vs := by
  obtain ⟨c, rest, hStart, hKind⟩ := compactChars_start h
  rw [hStart]
  intro hSame
  obtain ⟨rfl, -⟩ := List.cons.inj hSame
  rcases hClose with rfl | rfl <;> cases hKind

theorem kind_eq_of_append {i j : Json} (hi : Finite i) (hj : Finite j) {xs ys : List Char}
    (h : compactChars i ++ xs = compactChars j ++ ys) : i.kind = j.kind := by
  obtain ⟨c, rest, hStart, hKind⟩ := compactChars_start hi
  obtain ⟨d, rest', hStart', hKind'⟩ := compactChars_start hj
  rw [hStart, hStart'] at h
  obtain ⟨rfl, -⟩ := List.cons.inj h
  exact Option.some.inj (hKind.symm.trans hKind')

end Kinds

section Told

variable {i j : Json}

theorem compactChars_marks (hi : Finite i) (hNumber : i.kind = .number) :
    ∀ c ∈ compactChars i, Spelling.isMark c = true := by
  cases hi with
  | int n =>
    rw [compactChars]
    exact fun c hc => Spelling.isMark_of_mem_integerChars hc
  | float h =>
    rw [compactChars]
    exact (floatText_spelled h).1
  | _ => cases hNumber

theorem compactChars_inj_of_number (hi : Finite i) (hj : Finite j) (hNumber : i.kind = .number)
    (hNumber' : j.kind = .number) (h : compactChars i = compactChars j) : i = j := by
  cases hi with
  | int n =>
    cases hj with
    | int m =>
      simp only [compactChars] at h
      rw [integerChars_injective h]
    | float hFinite =>
      simp only [compactChars] at h
      exact absurd h (integerChars_ne_floatText hFinite)
    | _ => cases hNumber'
  | float hFinite =>
    cases hj with
    | int m =>
      simp only [compactChars] at h
      exact absurd h.symm (integerChars_ne_floatText hFinite)
    | float hFinite' =>
      simp only [compactChars] at h
      rw [floatText_injective hFinite hFinite' h]
    | _ => cases hNumber'
  | _ => cases hNumber

theorem told_number (hi : Finite i) (hj : Finite j) (hNumber : i.kind = .number) :
    Told compactChars i j := by
  intro xs ys hx hy h
  have hNumber' : j.kind = .number := (kind_eq_of_append hi hj h).symm.trans hNumber
  obtain ⟨hSame, hEnd⟩ := number_append_inj (compactChars_marks hi hNumber)
    (compactChars_marks hj hNumber') hx hy h
  exact ⟨compactChars_inj_of_number hi hj hNumber hNumber' hSame, hEnd⟩

theorem told_member {m n : String × Json} (h : Told compactChars m.2 n.2) :
    Told memberChars m n := by
  intro xs ys hx hy hText
  simp only [memberChars, List.append_assoc, List.cons_append] at hText
  obtain ⟨hName, hRest⟩ := stringText_append_inj hText
  obtain ⟨hValue, hEnd⟩ := h hx hy (List.cons.inj hRest).2
  exact ⟨Prod.ext hName hValue, hEnd⟩

theorem memberChars_ne_close (m : String × Json) (us vs : List Char) :
    memberChars m ++ us ≠ '\x7d' :: vs := by
  intro h
  obtain ⟨hQuote, -⟩ := List.cons.inj h
  cases hQuote

theorem told_compactChars (hi : Finite i) (hj : Finite j) : Told compactChars i j := by
  induction hi generalizing j with
  | null =>
    intro xs ys hx hy h
    have hKind := kind_eq_of_append .null hj h
    cases hj <;> simp only [kind, reduceCtorEq] at hKind
    exact ⟨rfl, List.append_cancel_left h⟩
  | bool value =>
    intro xs ys hx hy h
    have hKind := kind_eq_of_append (.bool value) hj h
    cases hj <;> simp only [kind, reduceCtorEq, Kind.bool.injEq] at hKind
    subst hKind
    exact ⟨rfl, List.append_cancel_left h⟩
  | int n => exact told_number (.int n) hj rfl
  | float hFinite => exact told_number (.float hFinite) hj rfl
  | text value =>
    intro xs ys hx hy h
    have hKind := kind_eq_of_append (.text value) hj h
    cases hj <;> simp only [kind, reduceCtorEq] at hKind
    simp only [compactChars] at h
    exact (stringText_append_inj h).imp_left (congrArg _)
  | array hItems ih =>
    intro xs ys hx hy h
    have hKind := kind_eq_of_append (.array hItems) hj h
    cases hj <;> simp only [kind, reduceCtorEq] at hKind
    rename_i hItems'
    simp only [compactChars, compactItems_eq, List.cons_append, List.append_assoc] at h
    obtain ⟨hSame, hEnd⟩ := separated_append_inj (Or.inl rfl)
      (fun item hItem item' hItem' => ih item hItem (hItems' item' hItem'))
      (fun item hItem => compactChars_ne_close (hItem.elim (hItems item) (hItems' item))
        (Or.inl rfl))
      (List.cons.inj h).2
    exact ⟨congrArg _ hSame, hEnd⟩
  | object hMembers ih =>
    intro xs ys hx hy h
    have hKind := kind_eq_of_append (.object hMembers) hj h
    cases hj <;> simp only [kind, reduceCtorEq] at hKind
    rename_i hMembers'
    simp only [compactChars, compactMembers_eq, List.cons_append, List.append_assoc] at h
    obtain ⟨hSame, hEnd⟩ := separated_append_inj (Or.inr rfl)
      (fun m hm m' hm' => told_member (ih m hm (hMembers' m' hm')))
      (fun m _ => memberChars_ne_close m) (List.cons.inj h).2
    exact ⟨congrArg _ hSame, hEnd⟩

/-- Values with finite numbers have the same compact text only when they are the same. -/
theorem compact_injective (hi : Finite i) (hj : Finite j)
    (h : i.compact = j.compact) : i = j := by
  have hChars : compactChars i = compactChars j := by
    simpa only [compact, String.ofList_inj] using h
  have hEmpty : Follows [] := fun c hc => by cases hc
  exact (told_compactChars hi hj hEmpty hEmpty (by rw [hChars])).1

end Told

end NativeBinding.Json
