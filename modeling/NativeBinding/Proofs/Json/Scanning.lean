import NativeBinding.Json.Reader
import NativeBinding.Proofs.Json.Unambiguous

/-! # The tokens of an indented text

The scanner goes over an indented text and leaves its tokens. Punctuation, strings and containers
end by themselves; a number or a word ends at the next character, which is scanned again.
-/

set_option autoImplicit false

namespace NativeBinding.Json

open Ieee Text

section Integers

open Number

theorem digit?_digitChar {d : Nat} (h : d < 10) : digit? (digitChar d) = some d := by
  have hDigits : ∀ d < 10, digit? (digitChar d) = some d := by decide
  exact hDigits d h

theorem digits_map_digitChar {ds : List Nat} (h : ∀ d ∈ ds, d < 10) :
    digits (ds.map digitChar) = (ds, []) := by
  induction ds with
  | nil => rfl
  | cons d ds ih =>
    obtain ⟨hd, hds⟩ := List.forall_mem_cons.mp h
    simp only [List.map_cons, digits, digit?_digitChar hd, ih hds]

theorem significand_eq (n : Nat) (ds : List Nat)
    (h : n * 10 ^ ds.length + digitsNat ds < wordLimit) :
    significand n ds = (n * 10 ^ ds.length + digitsNat ds, 0) := by
  induction ds generalizing n with
  | nil => simp [significand, digitsNat]
  | cons d ds ih =>
    have hNext : (n * 10 + d) * 10 ^ ds.length + digitsNat ds =
        n * 10 ^ (d :: ds).length + digitsNat (d :: ds) := by
      rw [← List.singleton_append, digitsNat_append, List.length_append, Nat.pow_add]
      simp only [digitsNat, List.length_singleton, List.reverse_singleton, Nat.ofDigits_singleton]
      ring
    rw [← hNext] at h ⊢
    have hFits : n * 10 + d < wordLimit :=
      ((Nat.le_mul_of_pos_right _ (by positivity)).trans (Nat.le_add_right _ _)).trans_lt h
    rw [significand, if_pos hFits, ih _ h]

theorem head_decimalDigits_ne_zero {n d e : Nat} {ds : List Nat}
    (h : decimalDigits n = d :: e :: ds) : d ≠ 0 := by
  rcases Nat.eq_zero_or_pos n with rfl | hn
  · rw [decimalDigits_zero] at h
    cases h
  · have hLast := Nat.getLast_digit_ne_zero 10 hn.ne'
    rw [decimalDigits_eq hn] at h
    have hDigits : Nat.digits 10 n = (d :: e :: ds).reverse := by rw [← h, List.reverse_reverse]
    simpa [hDigits] using hLast

theorem read?_parts (negative : Bool) (n : Nat) :
    Parts.read? (if negative then '-' :: naturalChars n else naturalChars n) =
      some ⟨negative, decimalDigits n, none, none⟩ := by
  have hDigits : digits (naturalChars n) = (decimalDigits n, []) :=
    digits_map_digitChar fun d hd => lt_ten_of_mem_decimalDigits hd
  obtain ⟨c, rest, hChars, hDigit⟩ := exists_naturalChars n
  have hSign : c ≠ '-' := by
    rintro rfl
    revert hDigit
    decide
  rw [hChars] at hDigits ⊢
  -- Digits without a point or an exponent are the whole of a number, a zero only on its own.
  match hDs : decimalDigits n with
  | [] => exact absurd hDs (decimalDigits_ne_nil n)
  | 0 :: e :: ds => exact absurd rfl (head_decimalDigits_ne_zero hDs)
  | [0] =>
    rw [hDs] at hDigits
    cases negative <;> simp [Parts.read?, readExponent?, hSign, hDigits]
  | (d + 1) :: ds =>
    rw [hDs] at hDigits
    cases negative <;> simp [Parts.read?, readExponent?, hSign, hDigits]

theorem value?_integer {negative : Bool} {n : Nat} (hWord : n < wordLimit)
    (hLeast : negative = true → 0 < n ∧ Int64.minValue.toInt ≤ -n) :
    Parts.value? ⟨negative, decimalDigits n, none, none⟩ =
      some (int (if negative then -n else n)) := by
  have hSignificand : significand 0 (decimalDigits n) = (n, 0) := by
    have h := significand_eq 0 (decimalDigits n)
    rw [Nat.zero_mul, Nat.zero_add, digitsNat_decimalDigits] at h
    exact h hWord
  cases negative with
  | false => simp [Parts.value?, hSignificand]
  | true => simp only [Parts.value?, hSignificand, hLeast rfl, lt_irrefl, if_false, and_self,
      if_true, Bool.not_true, Bool.false_eq_true]

theorem read?_integerChars {n : Int} (hLeast : Int64.minValue.toInt ≤ n) (hMost : n < UInt64.size) :
    Number.read? (integerChars n) = some (int n) := by
  have hMin : Int64.minValue.toInt = -9223372036854775808 := rfl
  have hSize : ((UInt64.size : Nat) : Int) = 18446744073709551616 := rfl
  have hChars : integerChars n =
      if decide (n < 0) then '-' :: naturalChars n.natAbs else naturalChars n.natAbs := by
    simp [integerChars]
  have hWord : n.natAbs < wordLimit := by
    change n.natAbs < 18446744073709551616
    omega
  have hNegative : decide (n < 0) = true → 0 < n.natAbs ∧ Int64.minValue.toInt ≤ -n.natAbs := by
    intro h
    have := of_decide_eq_true h
    omega
  rw [Number.read?, hChars, read?_parts, Option.bind_some, value?_integer hWord hNegative]
  congr 2
  by_cases hn : n < 0
  · simp only [hn, decide_true, if_true]
    omega
  · simp only [hn, decide_false, Bool.false_eq_true, if_false]
    omega

end Integers

section Scanner

variable {text text' : List Char} {tokens tokens' : List Token}

/-- The scanner goes over a text and has its tokens. -/
def Scans (text : List Char) (tokens : List Token) : Prop :=
  ∀ done rest, scanFrom .between done (text ++ rest) =
    scanFrom .between (tokens.reverse ++ done) rest

/-- A character that is neither of a number nor of a word. -/
def Stops (c : Char) : Prop :=
  isNumberChar c = false ∧ isWordChar c = false ∧ (start? c).isSome

/-- The scanner goes over a text when a character follows that ends every number and word. -/
def ScansUpTo (text : List Char) (tokens : List Token) : Prop :=
  ∀ done c rest, Stops c → scanFrom .between done (text ++ c :: rest) =
    scanFrom .between (tokens.reverse ++ done) (c :: rest)

theorem Scans.upTo (h : Scans text tokens) : ScansUpTo text tokens :=
  fun done c rest _ => h done (c :: rest)

theorem scans_nil : Scans [] [] :=
  fun _ _ => rfl

theorem Scans.append (h : Scans text tokens) (h' : Scans text' tokens') :
    Scans (text ++ text') (tokens ++ tokens') := by
  intro done rest
  rw [List.append_assoc, h, h', List.reverse_append, List.append_assoc]

theorem Scans.append_upTo (h : Scans text tokens) (h' : ScansUpTo text' tokens') :
    ScansUpTo (text ++ text') (tokens ++ tokens') := by
  intro done c rest hStops
  rw [List.append_assoc, h, h' _ _ _ hStops, List.reverse_append, List.append_assoc]

theorem ScansUpTo.append_upTo {c : Char} (h : ScansUpTo text tokens) (hStops : Stops c)
    (h' : ScansUpTo (c :: text') tokens') : ScansUpTo (text ++ c :: text') (tokens ++ tokens') := by
  intro done d rest hStops'
  rw [List.append_assoc, List.cons_append, h _ _ _ hStops, ← List.cons_append, h' _ _ _ hStops',
    List.reverse_append, List.append_assoc]

theorem ScansUpTo.append {c : Char} (h : ScansUpTo text tokens) (hStops : Stops c)
    (h' : Scans (c :: text') tokens') : Scans (text ++ c :: text') (tokens ++ tokens') := by
  intro done rest
  rw [List.append_assoc, List.cons_append, h _ _ _ hStops, ← List.cons_append, h',
    List.reverse_append, List.append_assoc]

theorem scans_char {c : Char} {tokens : List Token} (h : start? c = some (tokens, .between)) :
    Scans [c] tokens := by
  intro done rest
  rw [List.singleton_append, scanFrom]
  simp only [advance?, h]

theorem scans_spaces (count : Nat) : Scans (List.replicate count ' ') [] := by
  induction count with
  | zero => exact scans_nil
  | succ count ih => exact (scans_char rfl : Scans [' '] []).append ih

theorem scans_line (margin : Nat) : Scans ('\n' :: List.replicate margin ' ') [] :=
  (scans_char rfl : Scans ['\n'] []).append (scans_spaces margin)

end Scanner

section Leaves

theorem scanFrom_number (read : List Char) {more : List Char} {done : List Token} {c : Char}
    {rest : List Char} {value : Json} (hMore : ∀ d ∈ more, isNumberChar d = true)
    (hRead : Number.read? (read.reverse ++ more) = some value) (hStops : Stops c) :
    scanFrom (.number read) done (more ++ c :: rest) =
      scanFrom .between (.scalar value :: done) (c :: rest) := by
  induction more generalizing read with
  | nil =>
    obtain ⟨⟨tokens, next⟩, hStart⟩ := Option.isSome_iff_exists.mp hStops.2.2
    rw [List.append_nil] at hRead
    simp only [List.nil_append, scanFrom, advance?, hStops.1, hRead, hStart, Bool.false_eq_true,
      if_false, List.reverse_cons, List.append_assoc, List.singleton_append]
  | cons d more ih =>
    obtain ⟨hd, hMore⟩ := List.forall_mem_cons.mp hMore
    simp only [List.cons_append, scanFrom, advance?, hd, if_true, List.reverse_nil,
      List.nil_append]
    exact ih (d :: read) hMore (by
      rw [List.reverse_cons, List.append_assoc]
      exact hRead)

theorem start?_of_number {c : Char} (h : isNumberChar c = true) :
    start? c = some ([], .number [c]) := by
  have hNot {d : Char} (hd : isNumberChar d = false) : (c == d) = false := by
    refine beq_eq_false_iff_ne.mpr ?_
    rintro rfl
    rw [h] at hd
    cases hd
  simp only [start?, h, hNot (d := ' ') (by decide), hNot (d := '\n') (by decide),
    hNot (d := '\t') (by decide), hNot (d := '\r') (by decide), hNot (d := '[') (by decide),
    hNot (d := ']') (by decide), hNot (d := '\x7b') (by decide), hNot (d := '\x7d') (by decide),
    hNot (d := ':') (by decide), hNot (d := ',') (by decide), hNot (d := '"') (by decide),
    Bool.or_self, Bool.false_eq_true, if_false, if_true]

theorem scans_number {text : List Char} {value : Json} (hNonempty : text ≠ [])
    (hChars : ∀ c ∈ text, isNumberChar c = true) (hRead : Number.read? text = some value) :
    ScansUpTo text [.scalar value] := by
  intro done c rest hStops
  obtain ⟨first, more, rfl⟩ := List.exists_cons_of_ne_nil hNonempty
  obtain ⟨hFirst, hMore⟩ := List.forall_mem_cons.mp hChars
  have hStart : start? first = some ([], .number [first]) := start?_of_number hFirst
  simp only [List.cons_append, scanFrom, advance?, hStart, List.reverse_nil, List.nil_append]
  exact scanFrom_number [first] hMore hRead hStops

theorem scanFrom_word (read : List Char) {more : List Char} {done : List Token} {c : Char}
    {rest : List Char} {token : Token} (hMore : ∀ d ∈ more, isWordChar d = true)
    (hRead : wordToken? (more.reverse ++ read) = some token) (hStops : Stops c) :
    scanFrom (.word read) done (more ++ c :: rest) =
      scanFrom .between (token :: done) (c :: rest) := by
  induction more generalizing read with
  | nil =>
    obtain ⟨⟨tokens, next⟩, hStart⟩ := Option.isSome_iff_exists.mp hStops.2.2
    rw [List.reverse_nil, List.nil_append] at hRead
    simp only [List.nil_append, scanFrom, advance?, hStops.2.1, hRead, hStart, Bool.false_eq_true,
      if_false, List.reverse_cons, List.append_assoc, List.singleton_append]
  | cons d more ih =>
    obtain ⟨hd, hMore⟩ := List.forall_mem_cons.mp hMore
    simp only [List.cons_append, scanFrom, advance?, hd, if_true, List.reverse_nil,
      List.nil_append]
    exact ih (d :: read) hMore (by
      rw [List.reverse_cons, List.append_assoc] at hRead
      exact hRead)

theorem scans_word {first : Char} {more : List Char} {token : Token}
    (hFirst : start? first = some ([], .word [first])) (hMore : more.all isWordChar = true)
    (hRead : wordToken? (more.reverse ++ [first]) = some token) :
    ScansUpTo (first :: more) [token] := by
  intro done c rest hStops
  simp only [List.cons_append, scanFrom, advance?, hFirst, List.reverse_nil, List.nil_append]
  exact scanFrom_word [first] (List.all_eq_true.mp hMore) hRead hStops

theorem scanFrom_encodeChar (c : Char) (read : List Char) (done : List Token) (rest : List Char) :
    scanFrom (.string read) done (encodeChar c ++ rest) =
      scanFrom (.string (c :: read)) done rest := by
  by_cases hc : c ∈ escapedChars
  · simp only [escapedChars, List.mem_cons, List.mem_map, List.mem_range] at hc
    rcases hc with rfl | rfl | ⟨n, hn, rfl⟩
    · rfl
    · rfl
    · interval_cases n <;> rfl
  · have hQuote : (c == '"') = false := beq_of_not_escaped hc (by decide)
    have hBackslash : (c == '\\') = false := beq_of_not_escaped hc (by decide)
    simp only [encodeChar_plain hc, List.singleton_append, scanFrom, advance?, hQuote, hBackslash,
      not_control_of_not_escaped hc, Bool.false_eq_true, if_false, List.reverse_nil,
      List.nil_append]

theorem scanFrom_encoded (chars read : List Char) (done : List Token) (rest : List Char) :
    scanFrom (.string read) done (chars.flatMap encodeChar ++ '"' :: rest) =
      scanFrom .between (.text (String.ofList (read.reverse ++ chars)) :: done) rest := by
  induction chars generalizing read with
  | nil =>
    rw [List.append_nil]
    rfl
  | cons c chars ih =>
    rw [List.flatMap_cons, List.append_assoc, scanFrom_encodeChar, ih, List.reverse_cons,
      List.append_assoc, List.singleton_append]

theorem scans_stringText (value : String) : Scans (stringText value) [.text value] := by
  intro done rest
  rw [stringText, List.cons_append, List.cons_append, List.append_assoc, List.singleton_append]
  have hEncoded := scanFrom_encoded value.toList [] done rest
  rw [List.reverse_nil, List.nil_append, String.ofList_toList] at hEncoded
  exact hEncoded

end Leaves

def joined : List (List Token) → List Token
  | [] => []
  | tokens :: rest => tokens ++ if rest.isEmpty then [] else .comma :: joined rest

mutual

def tokens : Json → List Token
  | null => [.scalar null]
  | bool value => [.scalar (bool value)]
  | int n => [.scalar (int n)]
  | float x => [.scalar (float x)]
  | text value => [.text value]
  | array items => .openArray :: (joined (itemTokens items) ++ [.closeArray])
  | object members => .openObject :: (joined (memberTokens members) ++ [.closeObject])

def itemTokens : List Json → List (List Token)
  | [] => []
  | item :: rest => tokens item :: itemTokens rest

def memberTokens : List (String × Json) → List (List Token)
  | [] => []
  | (name, value) :: rest => (.text name :: .colon :: tokens value) :: memberTokens rest

end

theorem itemTokens_eq (items : List Json) : itemTokens items = items.map tokens := by
  induction items with
  | nil => rfl
  | cons item items ih => rw [itemTokens, ih, List.map_cons]

def nameTokens (m : String × Json) : List Token :=
  .text m.1 :: .colon :: tokens m.2

theorem memberTokens_eq (members : List (String × Json)) :
    memberTokens members = members.map nameTokens := by
  induction members with
  | nil => rfl
  | cons m members ih =>
    obtain ⟨name, value⟩ := m
    rw [memberTokens, ih, List.map_cons, nameTokens]

theorem indentedItems_eq (level : Nat) (items : List Json) :
    indentedItems level items = items.map (indentedChars level) := by
  induction items with
  | nil => rfl
  | cons item items ih => rw [indentedItems, ih, List.map_cons]

def indentedMember (level : Nat) (m : String × Json) : List Char :=
  stringText m.1 ++ ':' :: ' ' :: indentedChars level m.2

theorem indentedMembers_eq (level : Nat) (members : List (String × Json)) :
    indentedMembers level members = members.map (indentedMember level) := by
  induction members with
  | nil => rfl
  | cons m members ih =>
    obtain ⟨name, value⟩ := m
    rw [indentedMembers, ih, List.map_cons, indentedMember]

section Containers

variable {α : Type} {f : α → List Char} {g : α → List Token} {xs : List α}

theorem stops_comma : Stops ',' :=
  ⟨rfl, rfl, rfl⟩

theorem stops_line : Stops '\n' :=
  ⟨rfl, rfl, rfl⟩

theorem scans_separated (h : ∀ x ∈ xs, ScansUpTo (f x) (g x)) (margin : Nat) :
    ScansUpTo (separated (',' :: '\n' :: List.replicate margin ' ') (xs.map f))
      (joined (xs.map g)) := by
  induction xs with
  | nil => exact scans_nil.upTo
  | cons x xs ih =>
    obtain ⟨hx, hRest⟩ := List.forall_mem_cons.mp h
    rw [List.map_cons, List.map_cons, separated_cons, joined]
    cases xs with
    | nil => simpa using hx
    | cons y ys =>
      have hComma : Scans (',' :: '\n' :: List.replicate margin ' ') [.comma] :=
        (scans_char rfl : Scans [','] [.comma]).append (scans_line margin)
      exact hx.append_upTo stops_comma (hComma.append_upTo (ih hRest))

theorem scans_bracketed {opening closing : Char} {first last : Token}
    (hOpening : start? opening = some ([first], .between))
    (hClosing : start? closing = some ([last], .between)) (h : ∀ x ∈ xs, ScansUpTo (f x) (g x))
    (level : Nat) :
    Scans (bracketed opening closing level (xs.map f))
      (first :: (joined (xs.map g) ++ [last])) := by
  unfold bracketed
  cases xs with
  | nil => exact (scans_char hOpening).append (scans_char hClosing)
  | cons x xs =>
    have hInside := (scans_line (2 * (level + 1))).append_upTo (scans_separated h (2 * (level + 1)))
    have hEnd := (scans_line (2 * level)).append (scans_char hClosing)
    have hAll := (scans_char hOpening).append (hInside.append stops_line hEnd)
    simpa using hAll

end Containers

/-- Values that are read back: they are nested at most so deep, the whole numbers have 64 bits, and
the others are read as they are written. -/
inductive Readable : Nat → Json → Prop where
  | null {depth : Nat} : Readable depth null
  | bool {depth : Nat} (value : Bool) : Readable depth (bool value)
  | int {depth : Nat} {n : Int} (hLeast : Int64.minValue.toInt ≤ n) (hMost : n < UInt64.size) :
    Readable depth (int n)
  | float {depth : Nat} {x : Binary64} (hFinite : x.isFinite = true)
    (hRead : Number.read? (floatText x) = some (float x)) : Readable depth (float x)
  | text {depth : Nat} (value : String) : Readable depth (text value)
  | array {depth : Nat} {items : List Json} (h : ∀ item ∈ items, Readable depth item) :
    Readable (depth + 1) (array items)
  | object {depth : Nat} {members : List (String × Json)}
    (h : ∀ m ∈ members, Readable depth m.2) : Readable (depth + 1) (object members)

theorem isNumberChar_of_isMark {c : Char} (h : Spelling.isMark c = true) :
    isNumberChar c = true := by
  simp only [Spelling.isMark, isAsciiDigit, Bool.or_eq_true, beq_iff_eq] at h
  simp only [isNumberChar, Bool.or_eq_true, beq_iff_eq]
  tauto

theorem scans_integer {n : Int} (hLeast : Int64.minValue.toInt ≤ n) (hMost : n < UInt64.size) :
    ScansUpTo (integerChars n) [.scalar (int n)] :=
  scans_number (integerChars_ne_nil n)
    (fun _ hc => isNumberChar_of_isMark (Spelling.isMark_of_mem_integerChars hc))
    (read?_integerChars hLeast hMost)

theorem scans_float {x : Binary64} (hFinite : x.isFinite = true)
    (hRead : Number.read? (floatText x) = some (float x)) :
    ScansUpTo (floatText x) [.scalar (float x)] :=
  scans_number (floatText_ne_nil hFinite)
    (fun c hc => isNumberChar_of_isMark ((floatText_spelled hFinite).1 c hc)) hRead

theorem scans_indented {depth : Nat} {j : Json} (h : Readable depth j) (level : Nat) :
    ScansUpTo (indentedChars level j) (tokens j) := by
  induction h generalizing level with
  | null =>
    rw [indentedChars, tokens]
    exact scans_word rfl rfl rfl
  | bool value =>
    cases value <;> rw [indentedChars, tokens] <;> exact scans_word rfl rfl rfl
  | int hLeast hMost =>
    rw [indentedChars, tokens]
    exact scans_integer hLeast hMost
  | float hFinite hRead =>
    rw [indentedChars, tokens]
    exact scans_float hFinite hRead
  | text value =>
    rw [indentedChars, tokens]
    exact (scans_stringText value).upTo
  | array _ ih =>
    rw [indentedChars, tokens, indentedItems_eq, itemTokens_eq]
    exact (scans_bracketed rfl rfl (fun item hItem => ih item hItem (level + 1)) level).upTo
  | object _ ih =>
    rw [indentedChars, tokens, indentedMembers_eq, memberTokens_eq]
    refine (scans_bracketed rfl rfl (fun m hm => ?_) level).upTo
    have hColon : Scans [':', ' '] [.colon] :=
      (scans_char rfl : Scans [':'] [.colon]).append (scans_char rfl : Scans [' '] [])
    exact (scans_stringText m.1).append_upTo (hColon.append_upTo (ih m hm (level + 1)))

end NativeBinding.Json
