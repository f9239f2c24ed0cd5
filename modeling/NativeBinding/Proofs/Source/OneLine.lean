import NativeBinding.Proofs.Ieee.Reading
import NativeBinding.Proofs.Text.Blank
import NativeBinding.Source.Definition

/-! # Constants on one line

The source of a constant is one line: quoting escapes ends of lines, and numbers have none. It has a
dollar sign, and so may have a placeholder, only if its text has one.
-/

set_option autoImplicit false

namespace NativeBinding

open Ieee

theorem Text.notMem_of_isIdentifier {name : String} {c : Char} (h : Text.isIdentifier name = true)
    (hc : Text.continuesIdentifier c = false) : c ∉ name.toList := by
  intro hMem
  have hFirst : Text.startsIdentifier c = false := by
    simp only [continuesIdentifier, startsIdentifier, Bool.or_eq_false_iff] at hc ⊢
    exact ⟨hc.1.1, hc.2⟩
  unfold isIdentifier at h
  split at h
  · cases h
  · rename_i first rest hName
    rw [hName] at hMem
    rw [Bool.and_eq_true] at h
    rcases List.mem_cons.mp hMem with rfl | hMem
    · simp [h.1] at hFirst
    · simp [List.all_eq_true.mp h.2 c hMem] at hc

namespace Text.Quoted

/-- The characters of escapes. -/
def escapeChars : List Char :=
  ['\\', '0', 't', 'r', 'n', '"', 'u', '\x7b', '\x7d', '1', '2', '3', '4', '5', '6', '7', '8', '9',
    'a', 'b', 'c', 'd', 'e', 'f']

theorem hexDigit_mem {n : Nat} (h : n < 16) : hexDigit n ∈ escapeChars := by
  have hAll : ∀ n < 16, hexDigit n ∈ escapeChars := by decide
  exact hAll n h

theorem mem_hex {n : Nat} {x : Char} (h : x ∈ hex n) : x ∈ escapeChars := by
  induction n using hex.induct with
  | case1 n hSmall =>
    rw [hex, if_pos hSmall, List.mem_singleton] at h
    exact h ▸ hexDigit_mem hSmall
  | case2 n hLarge ih =>
    rw [hex, if_neg hLarge, List.mem_append, List.mem_singleton] at h
    rcases h with hMore | rfl
    · exact ih hMore
    · exact hexDigit_mem (Nat.mod_lt _ (by decide))

theorem mem_encodeChar {c x : Char} (h : x ∈ encodeChar c) :
    x ∈ escapeChars ∨ x = c ∧ c ≠ '\n' := by
  have hShort {part : List Char} (hMem : x ∈ part) (hPart : ∀ y ∈ part, y ∈ escapeChars) :
      x ∈ escapeChars ∨ x = c ∧ c ≠ '\n' := .inl (hPart x hMem)
  have hNumber (hMem : x ∈ ['\\', 'u', '\x7b'] ++ hex c.toNat ++ ['\x7d']) : x ∈ escapeChars := by
    simp only [List.mem_append] at hMem
    rcases hMem with (hStart | hDigits) | hEnd
    · exact (by decide : ∀ y ∈ ['\\', 'u', '\x7b'], y ∈ escapeChars) x hStart
    · exact mem_hex hDigits
    · exact (by decide : ∀ y ∈ ['\x7d'], y ∈ escapeChars) x hEnd
  unfold encodeChar at h
  split at h
  · exact hShort h (by decide)
  split at h
  · exact hShort h (by decide)
  split at h
  · exact hShort h (by decide)
  split at h
  · exact hShort h (by decide)
  rename_i hLine
  have hSelf (hMem : x ∈ [c]) : x = c ∧ c ≠ '\n' :=
    ⟨List.mem_singleton.mp hMem, by simpa using hLine⟩
  split at h
  · exact hShort h (by decide)
  split at h
  · exact hShort h (by decide)
  split at h
  · exact .inr (hSelf h)
  split at h
  · exact .inl (hNumber h)
  split at h
  · exact .inr (hSelf h)
  · exact .inl (hNumber h)

theorem mem_encode {text : String} {x : Char} (h : x ∈ (encode text).toList) :
    x ∈ escapeChars ∨ x ∈ text.toList ∧ x ≠ '\n' := by
  simp only [encode, String.toList_ofList, List.cons_append, List.mem_cons, List.mem_append,
    List.mem_flatMap, List.not_mem_nil, or_false] at h
  rcases h with rfl | ⟨c, hc, hx⟩ | rfl
  · exact .inl (by decide)
  · rcases mem_encodeChar hx with hEscape | ⟨rfl, hLine⟩
    · exact .inl hEscape
    · exact .inr ⟨hc, hLine⟩
  · exact .inl (by decide)

theorem newline_notMem_encode (text : String) : '\n' ∉ (encode text).toList := by
  intro h
  rcases mem_encode h with hEscape | ⟨-, hLine⟩
  · exact absurd hEscape (by decide)
  · exact hLine rfl

theorem dollar_notMem_encode {text : String} (h : '$' ∉ text.toList) :
    '$' ∉ (encode text).toList := by
  intro hMem
  rcases mem_encode hMem with hEscape | ⟨hText, -⟩
  · exact absurd hEscape (by decide)
  · exact h hText

end Text.Quoted

theorem Ieee.Binary64.mem_render {x : Binary64} {style : Style} {c : Char}
    (h : c ∈ (x.render style).toList) : Spelling.isMark c = true ∨ c ∈ "NaNinf".toList := by
  have hWord {word : List Char} (hMem : c ∈ word) (hLetters : ∀ d ∈ word, d ∈ "NaNinf".toList) :
      Spelling.isMark c = true ∨ c ∈ "NaNinf".toList := .inr (hLetters c hMem)
  cases hFinite : x.isFinite with
  | true =>
    left
    obtain ⟨s, hText, hValid, -⟩ := Binary64.render_spelled hFinite style
    rw [hText] at h
    split at h
    · rcases List.mem_cons.mp h with rfl | hMem
      · decide
      · exact Spelling.isMark_of_mem_chars hValid hMem
    · exact Spelling.isMark_of_mem_chars hValid h
  | false =>
    unfold render at h
    split at h
    · exact hWord h (by decide)
    · rename_i hNan
      have hInfinite : x.isInfinite = true := by
        simp only [Binary64.isFinite, Binary64.isNan, Binary64.isInfinite, decide_eq_false_iff_not,
          decide_eq_true_eq] at hFinite hNan ⊢
        omega
      simp only [hInfinite, if_true, String.toList_ofList] at h
      split at h
      · rcases List.mem_cons.mp h with rfl | hMem
        · exact .inl (by decide)
        · exact hWord hMem (by decide)
      · exact hWord h (by decide)

namespace ConstValue

/-- Whether the text of a constant may hold a placeholder. -/
def HasDollar (value : ConstValue) : Prop :=
  ∃ text, value = .text text ∧ '$' ∈ text.toList

/-- An end of line is in no literal, and a dollar sign only in that of a text which has one. -/
theorem notMem_literal (value : ConstValue) :
    '\n' ∉ value.literal.toList ∧ (¬ value.HasDollar → '$' ∉ value.literal.toList) := by
  have hMarks : Spelling.isMark '\n' = false ∧ Spelling.isMark '$' = false := by decide
  cases value with
  | bool value =>
    have hWords : ∀ c ∈ ['\n', '$'], c ∉ (bool value).literal.toList := by
      cases value <;> decide
    exact ⟨hWords _ (by decide), fun _ => hWords _ (by decide)⟩
  | int n =>
    have hInteger {c : Char} (hMark : Spelling.isMark c = false) :
        c ∉ (Text.integer n.toInt).toList := by
      rw [Text.integer, String.toList_ofList]
      exact fun hMem => by simp [Spelling.isMark_of_mem_integerChars hMem] at hMark
    exact ⟨hInteger hMarks.1, fun _ => hInteger hMarks.2⟩
  | float x =>
    have hFloat {c : Char} (hMark : Spelling.isMark c = false) (hWord : c ∉ "NaNinf".toList) :
        c ∉ (x.render .literal).toList := by
      intro hMem
      rcases Binary64.mem_render hMem with hNumber | hOther
      · simp [hNumber] at hMark
      · exact hWord hOther
    exact ⟨hFloat hMarks.1 (by decide), fun _ => hFloat hMarks.2 (by decide)⟩
  | text value =>
    refine ⟨Text.Quoted.newline_notMem_encode value, fun hPlain => ?_⟩
    exact Text.Quoted.dollar_notMem_encode fun hMem => hPlain ⟨value, rfl, hMem⟩

end ConstValue

namespace ConstDecl

def line (c : ConstDecl) : String :=
  "pub const " ++ Source.rawIdentifier c.name ++ ": " ++ c.value.sourceType ++ " = " ++
    c.value.literal ++ ";"

theorem source_eq (c : ConstDecl) : c.source = Source.lines [c.line] :=
  rfl

theorem notMem_line {c : ConstDecl} (hName : Text.isIdentifier c.name = true) :
    '\n' ∉ c.line.toList ∧ (¬ c.value.HasDollar → '$' ∉ c.line.toList) := by
  have hRaw {x : Char} (hPlain : Text.continuesIdentifier x = false) (hMark : x ≠ '#') :
      x ∉ (Source.rawIdentifier c.name).toList := by
    have hFree := Text.notMem_of_isIdentifier hName hPlain
    have hLetter : x ≠ 'r' := by
      rintro rfl
      exact absurd hPlain (by decide)
    unfold Source.rawIdentifier
    split
    · simp [hMark, hFree, hLetter]
    · exact hFree
  have hType : '\n' ∉ c.value.sourceType.toList ∧ '$' ∉ c.value.sourceType.toList := by
    cases c.value <;> simp [ConstValue.sourceType]
  obtain ⟨hLine, hDollar⟩ := c.value.notMem_literal
  have hLineName := hRaw (by decide : Text.continuesIdentifier '\n' = false) (by decide)
  have hDollarName := hRaw (by decide : Text.continuesIdentifier '$' = false) (by decide)
  refine ⟨?_, fun hPlain => ?_⟩
  · simp [line, hLineName, hType.1, hLine]
  · simp [line, hDollarName, hType.2, hDollar hPlain]

end ConstDecl

end NativeBinding
