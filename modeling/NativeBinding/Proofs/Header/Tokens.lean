import NativeBinding.Header.Token
import NativeBinding.Proofs.Text.Blank

/-! # Tokens in text

How a list of tokens is written: with any white space between them, and with none where two words
would not run together. The scanner reads each such text as the tokens it was written for.
-/

set_option autoImplicit false

namespace NativeBinding.Header

namespace Token

def IsWordChar (c : Char) : Prop :=
  Text.isBlank c = false ∧ ofMark? c = none

instance (c : Char) : Decidable (IsWordChar c) :=
  inferInstanceAs (Decidable (_ ∧ _))

/-- No word goes on at the start of a text. -/
def EndsWord (text : List Char) : Prop :=
  ∀ c, text.head? = some c → ¬ IsWordChar c

inductive Spells : List Token → List Char → Prop
  | nil : Spells [] []
  | blank {c tokens text} (hBlank : Text.isBlank c = true) (hRest : Spells tokens text) :
      Spells tokens (c :: text)
  | mark {c token tokens text} (hMark : ofMark? c = some token) (hRest : Spells tokens text) :
      Spells (token :: tokens) (c :: text)
  | word {word tokens text} (hSome : word ≠ []) (hWord : ∀ c ∈ word, IsWordChar c)
      (hEnd : EndsWord text) (hRest : Spells tokens text) :
      Spells (.word (String.ofList word) :: tokens) (word ++ text)

variable {tokens : List Token} {text word : List Char} {c : Char} {token : Token}

theorem isBlank_of_ofMark? (h : ofMark? c = some token) : Text.isBlank c = false := by
  unfold ofMark? at h
  split at h
  · decide
  · decide
  · decide
  · decide
  · cases h

theorem endsWord_nil : EndsWord [] := by
  intro _ hHead
  cases hHead

theorem endsWord_blank (h : Text.isBlank c = true) : EndsWord (c :: text) := by
  rintro _ ⟨⟩ hWord
  rw [hWord.1] at h
  cases h

theorem endsWord_blanks {blanks : List Char} (h : Text.AllBlank blanks) (hSome : blanks ≠ []) :
    EndsWord (blanks ++ text) := by
  obtain ⟨c, blanks, rfl⟩ := List.exists_cons_of_ne_nil hSome
  exact endsWord_blank (h c List.mem_cons_self)

theorem scanFrom_word (hWord : ∀ c ∈ word, IsWordChar c) (before text : List Char) :
    scanFrom before (word ++ text) = scanFrom (word.reverse ++ before) text := by
  induction word generalizing before with
  | nil => rfl
  | cons c word ih =>
    rw [List.forall_mem_cons] at hWord
    obtain ⟨⟨hBlank, hMark⟩, hWord⟩ := hWord
    rw [List.cons_append, scanFrom, hBlank, hMark]
    simp only [Bool.false_eq_true, if_false]
    rw [ih hWord]
    simp

theorem scanFrom_endsWord (h : EndsWord text) (before : List Char) :
    scanFrom before text = flush before ++ scanFrom [] text := by
  cases text with
  | nil => simp [scanFrom, flush]
  | cons c text =>
    have hEnd := h c rfl
    by_cases hBlank : Text.isBlank c = true
    · simp [scanFrom, hBlank, flush]
    · cases hMark : ofMark? c with
      | none => exact absurd ⟨by simpa using hBlank, hMark⟩ hEnd
      | some token => simp [scanFrom, hBlank, hMark, flush]

theorem scan_word (hSome : word ≠ []) (hWord : ∀ c ∈ word, IsWordChar c) (hEnd : EndsWord text) :
    scan (word ++ text) = .word (String.ofList word) :: scan text := by
  have hReverse : word.reverse.isEmpty = false := by simpa using hSome
  rw [scan, scanFrom_word hWord, scanFrom_endsWord hEnd, List.append_nil, flush, hReverse, scan]
  simp

theorem wordsFrom_word (hWord : ∀ c ∈ word, Text.isBlank c = false) (before text : List Char) :
    Text.wordsFrom before (word ++ text) = Text.wordsFrom (word.reverse ++ before) text := by
  induction word generalizing before with
  | nil => rfl
  | cons c word ih =>
    rw [List.forall_mem_cons] at hWord
    rw [List.cons_append, Text.wordsFrom, if_neg (by simp [hWord.1]), ih hWord.2]
    simp

theorem scan_of_spells (h : Spells tokens text) : scan text = tokens := by
  induction h with
  | nil => rfl
  | blank hBlank _ ih =>
    rw [scan, scanFrom, if_pos hBlank, flush, List.isEmpty_nil, if_pos rfl, List.nil_append]
    exact ih
  | mark hMark _ ih =>
    rw [scan, scanFrom, isBlank_of_ofMark? hMark, hMark]
    simp only [Bool.false_eq_true, if_false, flush, List.isEmpty_nil, if_true, List.nil_append]
    rw [← ih, scan]
  | word hSome hWord hEnd _ ih => rw [scan_word hSome hWord hEnd, ih]

namespace Spells

theorem append {more : List Token} {behind : List Char} (h : Spells tokens text)
    (hBehind : Spells more behind) (hEnd : EndsWord behind) :
    Spells (tokens ++ more) (text ++ behind) := by
  induction h with
  | nil => exact hBehind
  | blank hBlank _ ih => exact .blank hBlank ih
  | mark hMark _ ih => exact .mark hMark ih
  | @word word tokens text hSome hWord hEnd' _ ih =>
    have hEnds : EndsWord (text ++ behind) := by
      cases text with
      | nil => exact hEnd
      | cons c text => exact hEnd'
    rw [List.append_assoc]
    exact .word hSome hWord hEnds ih

theorem blanks {blanks : List Char} (hBlanks : Text.AllBlank blanks) (h : Spells tokens text) :
    Spells tokens (blanks ++ text) := by
  induction blanks with
  | nil => exact h
  | cons c blanks ih =>
    rw [Text.AllBlank, List.forall_mem_cons] at hBlanks
    exact .blank hBlanks.1 (ih hBlanks.2)

theorem trimStart (h : Spells tokens text) : Spells tokens (Text.trimStart text) := by
  induction h with
  | nil => exact .nil
  | blank hBlank _ ih => rwa [Text.trimStart_blank hBlank]
  | mark hMark hRest _ =>
    rw [Text.trimStart_cons (isBlank_of_ofMark? hMark)]
    exact .mark hMark hRest
  | @word word tokens text hSome hWord hEnd hRest _ =>
    have hStart : Text.trimStart (word ++ text) = word ++ text := by
      cases word with
      | nil => exact absurd rfl hSome
      | cons c word => exact Text.trimStart_cons (hWord c List.mem_cons_self).1
    rw [hStart]
    exact .word hSome hWord hEnd hRest

theorem trimEnd (h : Spells tokens text) : Spells tokens (Text.trimEnd text) := by
  induction h with
  | nil => exact .nil
  | blank hBlank _ ih =>
    rw [Text.trimEnd_blank hBlank]
    split
    · rename_i hNone
      rwa [hNone] at ih
    · exact .blank hBlank ih
  | mark hMark _ ih =>
    rw [Text.trimEnd_cons (isBlank_of_ofMark? hMark)]
    exact .mark hMark ih
  | @word word tokens text hSome hWord hEnd _ ih =>
    have hTrim : Text.trimEnd (word ++ text) = word ++ Text.trimEnd text := by
      obtain ⟨before, last, rfl⟩ := List.eq_nil_or_concat' word |>.resolve_left hSome
      have hLast := (hWord last (by simp)).1
      rw [List.append_assoc, List.singleton_append, Text.trimEnd_append_cons hLast]
      simp
    have hEnd' : EndsWord (Text.trimEnd text) := by
      intro c hc
      obtain ⟨rest, hRest⟩ := Text.prefix_trimEnd text
      refine hEnd c ?_
      cases hText : Text.trimEnd text with
      | nil => simp [hText] at hc
      | cons d trimmed =>
        rw [hText] at hc hRest
        rw [← hRest]
        exact hc
    rw [hTrim]
    exact .word hSome hWord hEnd' ih

theorem endsWord (h : Spells tokens text) (hHead : ∀ word, tokens.head? ≠ some (.word word)) :
    EndsWord text := by
  cases h with
  | nil => exact endsWord_nil
  | blank hBlank _ => exact endsWord_blank hBlank
  | mark hMark _ =>
    rintro _ ⟨⟩ hWord
    rw [hWord.2] at hMark
    cases hMark
  | word => exact absurd rfl (hHead _)

theorem mem_of_word (h : Spells tokens text) {w : String} (hWord : .word w ∈ tokens)
    (hc : c ∈ w.toList) : c ∈ text := by
  induction h with
  | nil => cases hWord
  | blank _ _ ih => exact List.mem_cons_of_mem _ (ih hWord)
  | mark hMark _ ih =>
    refine List.mem_cons_of_mem _ (ih ((List.mem_cons.mp hWord).resolve_left ?_))
    rintro rfl
    unfold ofMark? at hMark
    split at hMark <;> cases hMark
  | word _ _ _ _ ih =>
    rw [List.mem_append]
    rcases List.mem_cons.mp hWord with hHere | hRest
    · cases hHere
      rw [String.toList_ofList] at hc
      exact .inl hc
    · exact .inr (ih hRest)

theorem exists_mark (h : Spells tokens text) (hSome : tokens ≠ []) :
    ∃ before c rest, text = before ++ c :: rest ∧ Text.isBlank c = false := by
  induction h with
  | nil => exact absurd rfl hSome
  | @blank c tokens text hBlank _ ih =>
    obtain ⟨before, d, rest, rfl, hMark⟩ := ih hSome
    exact ⟨c :: before, d, rest, rfl, hMark⟩
  | @mark c token tokens text hMark _ _ => exact ⟨[], c, text, rfl, isBlank_of_ofMark? hMark⟩
  | @word word tokens text hWord hChars _ _ _ =>
    obtain ⟨c, rest, rfl⟩ := List.exists_cons_of_ne_nil hWord
    exact ⟨[], c, rest ++ text, rfl, (hChars c List.mem_cons_self).1⟩

theorem words_eq (h : Spells tokens text) (hWords : ∀ token ∈ tokens, ∃ w, token = .word w) :
    Text.words text = tokens.map fun token => token.spelling.toList := by
  rw [Text.words]
  induction h with
  | nil => rfl
  | blank hBlank _ ih =>
    rw [Text.wordsFrom, if_pos hBlank, ih hWords, Text.flushWord, List.isEmpty_nil, if_pos rfl,
      List.nil_append]
  | @mark c token tokens text hMark _ _ =>
    obtain ⟨w, rfl⟩ := hWords token List.mem_cons_self
    unfold ofMark? at hMark
    split at hMark <;> cases hMark
  | @word word tokens text hSome hWord hEnd hRest ih =>
    rw [List.forall_mem_cons] at hWords
    have hFlush : Text.wordsFrom word.reverse text = word :: Text.wordsFrom [] text := by
      have hReverse : word.reverse.isEmpty = false := by simpa using hSome
      cases hRest with
      | nil => simp [Text.wordsFrom, Text.flushWord, hSome]
      | blank hBlank _ => simp [Text.wordsFrom, Text.flushWord, hBlank, hSome]
      | mark hMark _ =>
        obtain ⟨w, rfl⟩ := hWords.2 _ List.mem_cons_self
        unfold ofMark? at hMark
        split at hMark <;> cases hMark
      | @word next _ rest hNext hNextWord _ _ =>
        cases next with
        | nil => exact absurd rfl hNext
        | cons c next => exact absurd (hNextWord c List.mem_cons_self) (hEnd c rfl)
    rw [wordsFrom_word (fun c hc => (hWord c hc).1), List.append_nil, hFlush, ih hWords.2]
    simp [spelling]

end Spells

end Token

end NativeBinding.Header
