import NativeBinding.Proofs.Header.Parts
import NativeBinding.Proofs.Success

/-! # Defaults of parameters

A default is an expression with nested brackets and closed literals, where a backslash in a literal
takes the next character with it. The scanners of a method know no backslash, and they cut at every
equals sign outside of brackets and literals: a default is read if none of its literals holds an
escaped quote of its own kind, and it is kept up to its first such equals sign.
-/

set_option autoImplicit false

namespace NativeBinding.Header

section Escapes

variable {delimiters : List Char} {parens squares braces : Nat} {quote : Option Char}
  {value : List Char}

/-- Puts a backslash in place of each character that a backslash in a literal takes with it. -/
def hideEscapes : Option Char → List Char → List Char
  | _, [] => []
  | some q, '\\' :: _ :: rest => '\\' :: '\\' :: hideEscapes (some q) rest
  | quote, c :: rest => c :: hideEscapes (quoteAfter quote c) rest

/-- Whether a backslash in a literal stands in front of the quote that would end it. -/
def escapesQuote : Option Char → List Char → Bool
  | _, [] => false
  | some q, '\\' :: c :: rest => c == q || escapesQuote (some q) rest
  | quote, c :: rest => escapesQuote (quoteAfter quote c) rest

/-- A text with nested brackets and closed literals, and no comma outside of them. -/
def IsExpression (value : List Char) : Prop :=
  nested [','] 0 0 0 none (hideEscapes none value) = true

instance (value : List Char) : Decidable (IsExpression value) :=
  inferInstanceAs (Decidable (_ = _))

theorem isQuote_of_quoteAfter (hQuote : ∀ q, quote = some q → isQuote q = true) (c : Char) :
    ∀ q, quoteAfter quote c = some q → isQuote q = true := by
  intro q hAfter
  cases quote with
  | none =>
    rw [quoteAfter, Option.ite_none_right_eq_some] at hAfter
    cases hAfter.2
    exact hAfter.1
  | some opened =>
    rw [quoteAfter, Option.ite_none_left_eq_some] at hAfter
    exact hQuote q hAfter.2

theorem nested_of_hideEscapes (hQuote : ∀ q, quote = some q → isQuote q = true)
    (hPlain : escapesQuote quote value = false)
    (h : nested delimiters parens squares braces quote (hideEscapes quote value) = true) :
    nested delimiters parens squares braces quote value = true := by
  fun_induction hideEscapes quote value generalizing parens squares braces with
  | case1 => exact h
  | case2 q c rest ih =>
    -- Neither the backslash nor what it takes with it ends the literal.
    rw [escapesQuote, Bool.or_eq_false_iff] at hPlain
    have hBackslash : ('\\' == q) = false := by
      refine beq_eq_false_iff_ne.mpr ?_
      rintro rfl
      exact absurd (hQuote _ rfl) (by decide)
    simp only [nested, hBackslash, hPlain.1, Bool.false_eq_true, if_false] at h ⊢
    exact ih hQuote hPlain.2 h
  | case3 quote c rest hOther ih =>
    rw [escapesQuote] at hPlain
    · obtain ⟨p, s, b, -, -, -, hRest, hStep⟩ := nested_step h
      exact hStep delimiters rest .inl (ih (isQuote_of_quoteAfter hQuote c) hPlain hRest)
    · exact hOther

end Escapes

section Kept

variable {parens squares braces : Nat} {quote : Option Char} {value kept declaration : List Char}
  {p : ParamSignature}

/-- What is kept of a default: all of it, or what stands in front of its first equals sign outside
of brackets and literals. -/
inductive Keeps (value : List Char) : List Char → Prop
  | whole (hFree : nested [',', '='] 0 0 0 none value = true) : Keeps value (Text.trim value)
  | cut {first more} (hValue : value = first ++ '=' :: more)
      (hFree : nested [',', '='] 0 0 0 none first = true) : Keeps value (Text.trim first)

theorem exists_cut (h : nested [','] parens squares braces quote value = true) :
    nested [',', '='] parens squares braces quote value = true ∨
      ∃ first more, value = first ++ '=' :: more ∧
        nested [',', '='] parens squares braces quote first = true := by
  induction value generalizing parens squares braces quote with
  | nil => exact .inl h
  | cons c value ih =>
    obtain ⟨p, s, b, -, -, -, hRest, hStep⟩ := nested_step h
    -- Only an equals sign that stands free is a delimiter more; other characters are passed over.
    by_cases hCut : c = '=' ∧ quote = none ∧ parens + squares + braces = 0
    · obtain ⟨rfl, rfl, hDepth⟩ := hCut
      exact .inr ⟨[], value, rfl, by simp [nested]; omega⟩
    · have hPass : c ∈ [',', '='] → c ∈ [','] ∨ quote ≠ none ∨ 0 < parens + squares + braces := by
        intro hMem
        rw [List.mem_cons, List.mem_singleton] at hMem
        refine hMem.imp (fun hComma => List.mem_singleton.mpr hComma) fun hEquals => ?_
        rw [Nat.pos_iff_ne_zero]
        tauto
      rcases ih hRest with hWhole | ⟨first, more, rfl, hFirst⟩
      · exact .inl (hStep _ _ hPass hWhole)
      · exact .inr ⟨c :: first, more, rfl, hStep _ _ hPass hFirst⟩

theorem exists_keeps (h : nested [','] 0 0 0 none value = true) :
    ∃ kept, Keeps value kept ∧ ((splitTopLevel '=' value).map Text.trim).head? = some kept := by
  rcases exists_cut h with hWhole | ⟨first, more, rfl, hFirst⟩
  · refine ⟨_, .whole hWhole, ?_⟩
    rw [splitTopLevel_nested (by decide) hWhole]
    rfl
  · refine ⟨_, .cut rfl hFirst, ?_⟩
    rw [splitTopLevel_cons (by decide) (by decide) hFirst]
    rfl

/-- A default is kept whole exactly if no equals sign stands outside of brackets and literals. -/
theorem Keeps.eq_trim_iff (h : Keeps value kept) :
    kept = Text.trim value ↔ nested [',', '='] 0 0 0 none value = true := by
  cases h with
  | whole hFree => exact iff_of_true rfl hFree
  | @cut first more hValue hFree =>
    subst hValue
    apply iff_of_false
    · intro hSame
      have hLength := congrArg List.length hSame
      rw [Text.trim_append_cons (by decide)] at hLength
      have hShort := (Text.prefix_trimEnd (Text.trimStart first)).length_le
      rw [Text.trim, List.length_append, List.length_cons] at hLength
      omega
    · intro hWhole
      have hPieces : splitTopLevel '=' (first ++ '=' :: more) = first :: splitTopLevel '=' more :=
        splitTopLevel_cons (by decide) (by decide) hFree more
      rw [splitTopLevel_nested (by decide) hWhole] at hPieces
      have hLength := congrArg List.length (List.cons.inj hPieces).1
      simp at hLength

theorem readParam_default (h : readParam declaration = .ok p)
    (hDeclaration : nested [',', '='] 0 0 0 none declaration = true)
    (hValue : nested [','] 0 0 0 none value = true) :
    ∃ kept, Keeps value kept ∧ readParam (declaration ++ '=' :: value) =
      .ok { p with default := some (String.ofList kept) } := by
  obtain ⟨kept, hKeeps, hHead⟩ := exists_keeps hValue
  refine ⟨kept, hKeeps, ?_⟩
  have hDots : Text.trim declaration ≠ ['.', '.', '.'] := by
    intro hDots
    rw [readParam_eq, if_pos hDots] at h
    cases h
  rw [readParam_bare hDeclaration hDots] at h
  obtain ⟨name, hType, hVoid, hParam⟩ := readPieces_eq_ok_iff.mp h
  rw [readParam_withDefault hDeclaration, hHead]
  refine readPieces_eq_ok_iff.mpr ⟨name, hType, hVoid, ?_⟩
  rw [hParam]
  rfl

end Kept

namespace MethodSignature

/-- A method is read with any default of a parameter whose literals hold no escaped quote of their
own, and nothing else of the method changes. The default is kept up to its first equals sign outside
of brackets and literals. -/
theorem parse_default {head declaration value rest : List Char} {before after : List (List Char)}
    {m : MethodSignature} {p : ParamSignature} (hHead : '(' ∉ head)
    (hOthers : ∀ part ∈ before ++ after, nested [','] 0 0 0 none part = true)
    (hDeclaration : nested [',', '='] 0 0 0 none declaration = true)
    (hMethod : parse (methodText head (before ++ declaration :: after) rest) = .ok m)
    (hParam : m.params[before.length]? = some p) (hValue : IsExpression value)
    (hPlain : escapesQuote none value = false) :
    ∃ kept, Keeps value kept ∧
      (kept = Text.trim value ↔ nested [',', '='] 0 0 0 none value = true) ∧
      parse (methodText head (before ++ (declaration ++ '=' :: value) :: after) rest) =
        .ok (m.setParam before.length { p with default := some (String.ofList kept) }) := by
  have hComma : nested [','] 0 0 0 none declaration = true :=
    nested_mono (List.cons_subset_cons _ (List.nil_subset _)) hDeclaration
  have hNested : nested [','] 0 0 0 none value = true := nested_of_hideEscapes nofun hPlain hValue
  have hWhole : nested [','] 0 0 0 none (declaration ++ '=' :: value) = true :=
    nested_append hComma (by simpa [nested, isQuote] using hNested)
  obtain ⟨hRead, hReplace⟩ := parse_replace hHead hOthers hComma hMethod hParam
  obtain ⟨kept, hKeeps, hDefault⟩ := readParam_default hRead hDeclaration hNested
  refine ⟨kept, hKeeps, hKeeps.eq_trim_iff, ?_⟩
  have hMarked : IsMarked (declaration ++ '=' :: value) := ⟨'=', by simp, by decide, by decide⟩
  rw [hReplace _ hWhole hMarked, hDefault]
  rfl

def asking : MethodSignature where
  name := "Ask"
  returnType := { base := "int" }
  params := [{ name := "n", type := { base := "int" } },
    { name := "text", type := { base := "char", isConst := true, pointerDepth := 1 } }]
  isConst := true

theorem parse_default_sample :
    MethodSignature.parse "int Ask(int n, const char *text = f(\"a\\n, =\", '\"') ) const;" =
      .ok (asking.setParam 1
        { name := "text", type := { base := "char", isConst := true, pointerDepth := 1 }
          default := some "f(\"a\\n, =\", '\"')" }) := by
  have hHead : '(' ∉ "int Ask".toList := by decide
  have hOthers : ∀ part ∈ ["int n".toList] ++ [], nested [','] 0 0 0 none part = true := by decide
  have hDeclaration : nested [',', '='] 0 0 0 none " const char *text ".toList = true := by decide
  have hMethod : parse (methodText "int Ask".toList
      (["int n".toList] ++ " const char *text ".toList :: []) " const;".toList) = .ok asking := by
    decide +kernel
  have hValue : IsExpression " f(\"a\\n, =\", '\"') ".toList ∧
      escapesQuote none " f(\"a\\n, =\", '\"') ".toList = false := by decide +kernel
  obtain ⟨kept, -, hWhole, hParse⟩ :=
    parse_default hHead hOthers hDeclaration hMethod rfl hValue.1 hValue.2
  have hKept : kept = Text.trim " f(\"a\\n, =\", '\"') ".toList := hWhole.mpr (by decide +kernel)
  have hText : "int Ask(int n, const char *text = f(\"a\\n, =\", '\"') ) const;" =
      methodText "int Ask".toList (["int n".toList] ++
        (" const char *text ".toList ++ '=' :: " f(\"a\\n, =\", '\"') ".toList) :: [])
        " const;".toList := by decide +kernel
  rw [hText, hParse, hKept]
  decide +kernel

/-- An equals sign of an expression ends its default, and an escaped quote its literal. -/
theorem parse_default_altered :
    IsExpression " 1 == 2".toList ∧ IsExpression " \"\\\"\"".toList ∧
      parse "void Set(bool same = 1 == 2);" = .ok
        { name := "Set", returnType := { base := "void" }
          params := [{ name := "same", type := { base := "bool" }, default := some "1" }] } ∧
      parse "void Say(const char *text = \"\\\"\");" =
        .error (.missingClose "void Say(const char *text = \"\\\"\");") := by
  decide +kernel

end MethodSignature

end NativeBinding.Header
