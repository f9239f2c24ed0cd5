import Mathlib.Tactic.SplitIfs
import NativeBinding.Text.Utf8

/-! # Reading UTF-8 back

`decode?` is the exact inverse of `encode`: it accepts the octets of a text and nothing else. Both
halves go through one character, whose first octet decides how many more are read.
-/

set_option autoImplicit false

namespace NativeBinding.Text.Utf8

theorem toNat_ofNat {n : Nat} (h : n < 0xD800 ∨ 0xDFFF < n ∧ n < 0x110000) :
    (Char.ofNat n).toNat = n := by
  have hValid : n.isValidChar := h
  rw [Char.ofNat, dif_pos hValid]
  rfl

theorem toNat_ranges (c : Char) :
    c.toNat < 0xD800 ∨ 0xDFFF < c.toNat ∧ c.toNat < 0x110000 :=
  c.valid

theorem readTail_succ {count bits low high used : Nat} {octets : List UInt8} {c : Char} :
    readTail (count + 1) bits low high octets = (some c, used) ↔
      ∃ b rest more, octets = b :: rest ∧ used = more + 1 ∧ low ≤ b.toNat ∧ b.toNat ≤ high ∧
        readTail count (bits * 64 + (b.toNat - 0x80)) 0x80 0xBF rest = (some c, more) := by
  cases octets with
  | nil => simp [readTail]
  | cons b rest =>
    by_cases hRange : low ≤ b.toNat ∧ b.toNat ≤ high
    · simp only [readTail, if_pos hRange, Prod.mk.injEq]
      constructor
      · rintro ⟨hChar, hUsed⟩
        exact ⟨b, rest, _, rfl, hUsed.symm, hRange.1, hRange.2, Prod.ext hChar rfl⟩
      · rintro ⟨_, _, _, hOctets, hUsed, _, _, hRead⟩
        cases hOctets
        rw [hRead]
        exact ⟨rfl, hUsed.symm⟩
    · simp only [readTail, if_neg hRange, Prod.mk.injEq]
      constructor
      · rintro ⟨hNone, _⟩
        cases hNone
      · rintro ⟨_, _, _, hOctets, _, hLow, hHigh, _⟩
        cases hOctets
        exact absurd ⟨hLow, hHigh⟩ hRange

theorem readTail_zero {bits low high used : Nat} {octets : List UInt8} {c : Char} :
    readTail 0 bits low high octets = (some c, used) ↔ c = Char.ofNat bits ∧ used = 0 := by
  simp [readTail, eq_comm]

theorem lead?_three {b : Nat} (hLow : 0xE0 ≤ b) (hHigh : b ≤ 0xEF) :
    lead? b = some (2, b - 0xE0, if b = 0xE0 then 0xA0 else 0x80,
      if b = 0xED then 0x9F else 0xBF) := by
  rw [lead?, if_neg (by omega), if_neg (by omega)]
  by_cases hFirst : b = 0xE0
  · subst hFirst
    rfl
  by_cases hSurrogate : b = 0xED
  · subst hSurrogate
    rfl
  rw [if_neg hFirst, if_neg hSurrogate, if_pos (by omega), if_neg hFirst, if_neg hSurrogate]

theorem lead?_four {b : Nat} (hLow : 0xF0 ≤ b) (hHigh : b ≤ 0xF4) :
    lead? b = some (3, b - 0xF0, if b = 0xF0 then 0x90 else 0x80,
      if b = 0xF4 then 0x8F else 0xBF) := by
  rw [lead?, if_neg (by omega), if_neg (by omega), if_neg (by omega), if_neg (by omega),
    if_neg (by omega)]
  by_cases hFirst : b = 0xF0
  · subst hFirst
    rfl
  by_cases hLast : b = 0xF4
  · subst hLast
    rfl
  rw [if_neg hFirst, if_pos (by omega), if_neg hFirst, if_neg hLast]

theorem lead?_none {b : Nat} (hAscii : ¬ b < 0x80) (hTwo : ¬ (0xC2 ≤ b ∧ b ≤ 0xDF))
    (hThree : ¬ (0xE0 ≤ b ∧ b ≤ 0xEF)) (hFour : ¬ (0xF0 ≤ b ∧ b ≤ 0xF4)) : lead? b = none := by
  rw [lead?, if_neg hAscii, if_neg hTwo, if_neg (by omega), if_neg (by omega), if_neg (by omega),
    if_neg (by omega), if_neg (by omega), if_neg (by omega)]

theorem lead?_cases {b count bits low high : Nat}
    (h : lead? b = some (count, bits, low, high)) :
    (count = 0 ∧ bits = b ∧ b < 0x80) ∨
    (count = 1 ∧ bits = b - 0xC0 ∧ low = 0x80 ∧ high = 0xBF ∧ 0xC2 ≤ b ∧ b ≤ 0xDF) ∨
    (count = 2 ∧ bits = b - 0xE0 ∧ 0xE0 ≤ b ∧ b ≤ 0xEF ∧ 0x80 ≤ low ∧ high ≤ 0xBF ∧
      (b = 0xE0 → low = 0xA0) ∧ (b = 0xED → high = 0x9F)) ∨
    (count = 3 ∧ bits = b - 0xF0 ∧ 0xF0 ≤ b ∧ b ≤ 0xF4 ∧ 0x80 ≤ low ∧ high ≤ 0xBF ∧
      (b = 0xF0 → low = 0x90) ∧ (b = 0xF4 → high = 0x8F)) := by
  by_cases hAscii : b < 0x80
  · rw [lead?, if_pos hAscii] at h
    simp only [Option.some.injEq, Prod.mk.injEq] at h
    obtain ⟨rfl, rfl, rfl, rfl⟩ := h
    exact Or.inl ⟨rfl, rfl, hAscii⟩
  by_cases hTwo : 0xC2 ≤ b ∧ b ≤ 0xDF
  · rw [lead?, if_neg hAscii, if_pos hTwo] at h
    simp only [Option.some.injEq, Prod.mk.injEq] at h
    obtain ⟨rfl, rfl, rfl, rfl⟩ := h
    exact Or.inr (Or.inl ⟨rfl, rfl, rfl, rfl, hTwo⟩)
  by_cases hThree : 0xE0 ≤ b ∧ b ≤ 0xEF
  · rw [lead?_three hThree.1 hThree.2] at h
    simp only [Option.some.injEq, Prod.mk.injEq] at h
    obtain ⟨rfl, rfl, rfl, rfl⟩ := h
    refine Or.inr (Or.inr (Or.inl ⟨rfl, rfl, hThree.1, hThree.2, ?_, ?_,
      fun h => if_pos h, fun h => if_pos h⟩)) <;>
      split <;> omega
  by_cases hFour : 0xF0 ≤ b ∧ b ≤ 0xF4
  · rw [lead?_four hFour.1 hFour.2] at h
    simp only [Option.some.injEq, Prod.mk.injEq] at h
    obtain ⟨rfl, rfl, rfl, rfl⟩ := h
    refine Or.inr (Or.inr (Or.inr ⟨rfl, rfl, hFour.1, hFour.2, ?_, ?_,
      fun h => if_pos h, fun h => if_pos h⟩)) <;>
      split <;> omega
  rw [lead?_none hAscii hTwo hThree hFour] at h
  cases h

theorem ofNat_eq {n : Nat} {b : UInt8} (h : n = b.toNat) : UInt8.ofNat n = b := by
  rw [h, UInt8.ofNat_toNat]

theorem encodeChar_of_readChar {b : UInt8} {rest : List UInt8} {c : Char} {used : Nat}
    (h : readChar b rest = (some c, used)) :
    ∃ tail more, rest = tail ++ more ∧ used = tail.length ∧ encodeChar c = b :: tail := by
  have hByte : b.toNat < 256 := b.toNat_lt
  unfold readChar at h
  split at h
  · cases h
  · rename_i count bits low high hLead
    rcases lead?_cases hLead with ⟨rfl, hBits, hAscii⟩ | ⟨rfl, hBits, hFrom, hTo, hLow, hHigh⟩ |
      ⟨rfl, hBits, hLow, hHigh, hFrom, hTo, hFirst, hSurrogate⟩ |
      ⟨rfl, hBits, hLow, hHigh, hFrom, hTo, hFirst, hLast⟩ <;>
      subst bits
    · -- One octet is the character itself.
      obtain ⟨hc, rfl⟩ := readTail_zero.mp h
      have hChar : (Char.ofNat b.toNat).toNat = b.toNat :=
        toNat_ofNat (by omega)
      subst c
      refine ⟨[], rest, rfl, rfl, ?_⟩
      simp only [encodeChar, hChar, if_pos hAscii, UInt8.ofNat_toNat]
    · -- Each octet behind the first gives six bits, so that dividing by 64 finds it again.
      obtain ⟨x, rest, more, rfl, rfl, hx, hx', h⟩ := readTail_succ.mp h
      obtain ⟨hc, rfl⟩ := readTail_zero.mp h
      have hChar := toNat_ofNat (n := (b.toNat - 0xC0) * 64 + (x.toNat - 0x80)) (by omega)
      subst c
      refine ⟨[x], rest, rfl, rfl, ?_⟩
      simp only [encodeChar, hChar, Nat.pow_eq, Nat.pow_zero, Nat.div_one]
      rw [if_neg (by omega), if_pos (by omega), ofNat_eq (b := b) (by omega),
        ofNat_eq (b := x) (by omega)]
    · obtain ⟨x, rest, more, rfl, rfl, hx, hx', h⟩ := readTail_succ.mp h
      obtain ⟨y, rest, more, rfl, rfl, hy, hy', h⟩ := readTail_succ.mp h
      obtain ⟨hc, rfl⟩ := readTail_zero.mp h
      have hChar := toNat_ofNat
        (n := ((b.toNat - 0xE0) * 64 + (x.toNat - 0x80)) * 64 + (y.toNat - 0x80)) (by omega)
      subst c
      refine ⟨[x, y], rest, rfl, rfl, ?_⟩
      simp only [encodeChar, hChar, Nat.pow_eq, Nat.pow_zero, Nat.pow_one, Nat.div_one]
      rw [if_neg (by omega), if_neg (by omega), if_pos (by omega), ofNat_eq (b := b) (by omega),
        ofNat_eq (b := x) (by omega), ofNat_eq (b := y) (by omega)]
    · obtain ⟨x, rest, more, rfl, rfl, hx, hx', h⟩ := readTail_succ.mp h
      obtain ⟨y, rest, more, rfl, rfl, hy, hy', h⟩ := readTail_succ.mp h
      obtain ⟨z, rest, more, rfl, rfl, hz, hz', h⟩ := readTail_succ.mp h
      obtain ⟨hc, rfl⟩ := readTail_zero.mp h
      have hChar := toNat_ofNat
        (n := (((b.toNat - 0xF0) * 64 + (x.toNat - 0x80)) * 64 + (y.toNat - 0x80)) * 64 +
          (z.toNat - 0x80)) (by omega)
      subst c
      refine ⟨[x, y, z], rest, rfl, rfl, ?_⟩
      simp only [encodeChar, hChar, Nat.pow_eq, Nat.pow_zero, Nat.pow_one, Nat.div_one]
      rw [if_neg (by omega), if_neg (by omega), if_neg (by omega), ofNat_eq (b := b) (by omega),
        ofNat_eq (b := x) (by omega), ofNat_eq (b := y) (by omega), ofNat_eq (b := z) (by omega)]

theorem readChar_encodeChar (c : Char) (more : List UInt8) :
    ∃ b tail, encodeChar c = b :: tail ∧ readChar b (tail ++ more) = (some c, tail.length) := by
  have hRanges := toNat_ranges c
  have hSelf : ∀ n, n = c.toNat → c = Char.ofNat n := by
    rintro n rfl
    exact (Char.ofNat_toNat c).symm
  have hLead : ∀ n, n < 256 → (UInt8.ofNat n).toNat = n :=
    fun n h => UInt8.toNat_ofNat_of_lt' h
  unfold encodeChar
  simp only [Nat.pow_eq, Nat.pow_zero, Nat.pow_one, Nat.div_one]
  split_ifs with hOne hTwo hThree
  · refine ⟨_, [], rfl, ?_⟩
    simp only [readChar, lead?, hLead _ (show c.toNat < 256 by omega), if_pos hOne]
    exact readTail_zero.mpr ⟨hSelf _ rfl, rfl⟩
  · refine ⟨_, _, rfl, ?_⟩
    simp only [readChar, lead?, hLead _ (show 0xC0 + c.toNat / 64 < 256 by omega)]
    rw [if_neg (by omega), if_pos (by omega)]
    refine readTail_succ.mpr ⟨_, _, _, rfl, rfl, ?_, ?_, readTail_zero.mpr ⟨hSelf _ ?_, rfl⟩⟩ <;>
      rw [hLead _ (by omega)] <;> omega
  · refine ⟨_, _, rfl, ?_⟩
    simp only [readChar, hLead _ (show 0xE0 + c.toNat / 4096 < 256 by omega)]
    rw [lead?_three (by omega) (by omega)]
    refine readTail_succ.mpr ⟨_, _, _, rfl, rfl, ?_, ?_, readTail_succ.mpr
      ⟨_, _, _, rfl, rfl, ?_, ?_, readTail_zero.mpr ⟨hSelf _ ?_, rfl⟩⟩⟩ <;>
      simp only [hLead _ (show 0x80 + c.toNat / 64 % 64 < 256 by omega),
        hLead _ (show 0x80 + c.toNat % 64 < 256 by omega)] <;>
      first | omega | (split <;> omega)
  · refine ⟨_, _, rfl, ?_⟩
    simp only [readChar, hLead _ (show 0xF0 + c.toNat / 262144 < 256 by omega)]
    rw [lead?_four (by omega) (by omega)]
    refine readTail_succ.mpr ⟨_, _, _, rfl, rfl, ?_, ?_, readTail_succ.mpr
      ⟨_, _, _, rfl, rfl, ?_, ?_, readTail_succ.mpr
        ⟨_, _, _, rfl, rfl, ?_, ?_, readTail_zero.mpr ⟨hSelf _ ?_, rfl⟩⟩⟩⟩ <;>
      simp only [hLead _ (show 0x80 + c.toNat / 64 ^ 2 % 64 < 256 by omega),
        hLead _ (show 0x80 + c.toNat / 64 % 64 < 256 by omega),
        hLead _ (show 0x80 + c.toNat % 64 < 256 by omega)] <;>
      first | omega | (split <;> omega)

theorem pieces_encode (text : List Char) : pieces (encode text) = text.map some := by
  induction text with
  | nil => simp [encode, pieces]
  | cons c text ih =>
    obtain ⟨b, tail, hEncode, hRead⟩ := readChar_encodeChar c (encode text)
    have hCons : encode (c :: text) = b :: (tail ++ encode text) := by
      rw [encode, List.flatMap_cons, hEncode, List.cons_append]
      rfl
    rw [hCons, pieces, hRead]
    simp only [List.drop_left, ih, List.map_cons]

theorem allChars_map_some (text : List Char) : allChars (text.map some) = some text := by
  induction text with
  | nil => rfl
  | cons c text ih => simp [allChars, ih]

theorem eq_map_some_of_allChars {found : List (Option Char)} {text : List Char}
    (h : allChars found = some text) : found = text.map some := by
  induction found generalizing text with
  | nil => cases h; rfl
  | cons piece found ih =>
    cases piece with
    | none => cases h
    | some c =>
      obtain ⟨rest, hRest, rfl⟩ := Option.map_eq_some_iff.mp h
      rw [ih hRest, List.map_cons]

theorem decode?_encode (text : List Char) : decode? (encode text) = some text := by
  rw [decode?, pieces_encode, allChars_map_some]

theorem encode_of_pieces {text : List Char} (octets : List UInt8)
    (h : pieces octets = text.map some) : encode text = octets := by
  induction text generalizing octets with
  | nil =>
    cases octets with
    | nil => rfl
    | cons b rest => rw [pieces] at h; cases h
  | cons c text ih =>
    cases octets with
    | nil => rw [pieces] at h; cases h
    | cons b rest =>
      rcases hRead : readChar b rest with ⟨piece, used⟩
      rw [pieces, hRead] at h
      obtain ⟨rfl, hRest⟩ := List.cons.inj h
      obtain ⟨tail, more, rfl, rfl, hEncode⟩ := encodeChar_of_readChar hRead
      rw [List.drop_left] at hRest
      rw [encode, List.flatMap_cons, hEncode, List.cons_append, ← ih more hRest]
      rfl

/-- Reading accepts the octets of a text, and only those. -/
theorem decode?_eq_some_iff {octets : List UInt8} {text : List Char} :
    decode? octets = some text ↔ encode text = octets :=
  ⟨fun h => encode_of_pieces octets (eq_map_some_of_allChars h), fun h => h ▸ decode?_encode text⟩

theorem toString?_eq_some_iff {octets : List UInt8} {text : String} :
    toString? octets = some text ↔ ofString text = octets := by
  rw [toString?, Option.map_eq_some_iff, ofString]
  constructor
  · rintro ⟨chars, hChars, rfl⟩
    rwa [String.toList_ofList, ← decode?_eq_some_iff]
  · intro h
    exact ⟨text.toList, decode?_eq_some_iff.mpr h, String.ofList_toList⟩

end NativeBinding.Text.Utf8
