import NativeBinding.Proofs.Header.Methods

/-! # Spelled methods

Every method that a header can declare has a text, and every text of it is read as this method.
-/

set_option autoImplicit false

namespace NativeBinding.Header

namespace Token

variable {text : List Char} {tokens : List Token}

theorem spells_flush {before : List Char} (hBefore : ∀ c ∈ before, IsWordChar c)
    (hEnd : EndsWord text) (hRest : Spells tokens text) :
    Spells (flush before ++ tokens) (before.reverse ++ text) := by
  by_cases hNone : before = []
  · rw [hNone]
    exact hRest
  · have hSome : before.isEmpty = false := by simpa using hNone
    rw [flush, hSome]
    refine .word (by simpa using hNone) (fun c hc => ?_) hEnd hRest
    exact hBefore c (List.mem_reverse.mp hc)

theorem spells_scan (text : List Char) : Spells (scan text) text := by
  have hFrom (before : List Char) (hBefore : ∀ c ∈ before, IsWordChar c) :
      Spells (scanFrom before text) (before.reverse ++ text) := by
    induction text generalizing before with
    | nil =>
      have hHere : Spells (flush before ++ []) (before.reverse ++ []) :=
        spells_flush hBefore nofun .nil
      rw [List.append_nil] at hHere
      exact hHere
    | cons c text ih =>
      have hNil := ih [] (List.forall_mem_nil _)
      rw [scanFrom]
      split
      · rename_i hBlank
        exact spells_flush hBefore (endsWord_blank hBlank) (.blank hBlank hNil)
      · rename_i hBlank
        split
        · rename_i token hMark
          refine spells_flush hBefore ?_ (.mark hMark hNil)
          rintro _ ⟨⟩ hWord
          rw [hWord.2] at hMark
          cases hMark
        · rename_i hMark
          have hHere := ih (c :: before)
            (List.forall_mem_cons.mpr ⟨⟨by simpa using hBlank, hMark⟩, hBefore⟩)
          simpa using hHere
  exact hFrom [] (List.forall_mem_nil _)

theorem spells_of_scan (h : scan text = tokens) : Spells tokens text := by
  rw [← h]
  exact spells_scan text

theorem scan_trim (text : List Char) : scan (Text.trim text) = scan text :=
  scan_of_spells (spells_scan text).trimStart.trimEnd

theorem spells_plain {word : String} (hWord : PlainWord word) (hEnd : EndsWord text)
    (hRest : Spells tokens text) : Spells (.word word :: tokens) (word.toList ++ text) := by
  have hChars : ∀ c ∈ word.toList, IsWordChar c := fun c hc => isWordChar_of_name (hWord.2 c hc)
  have hSpelled := Spells.word hWord.1 hChars hEnd hRest
  rwa [String.ofList_toList] at hSpelled

def written (tokens : List Token) : List Char :=
  tokens.flatMap fun token => token.spelling.toList ++ [' ']

theorem spells_written (h : ∀ word, .word word ∈ tokens → PlainWord word) :
    Spells tokens (written tokens) := by
  have hBlank : Text.isBlank ' ' = true := by decide
  induction tokens with
  | nil => exact .nil
  | cons token tokens ih =>
    have hRest : Spells tokens (' ' :: written tokens) :=
      .blank hBlank (ih fun word hMem => h word (List.mem_cons_of_mem _ hMem))
    have hText : written (token :: tokens) = token.spelling.toList ++ ' ' :: written tokens := by
      simp [written]
    rw [hText]
    cases token with
    | star => exact .mark rfl hRest
    | ampersand => exact .mark rfl hRest
    | openBracket => exact .mark rfl hRest
    | closeBracket => exact .mark rfl hRest
    | word word =>
      exact spells_plain (h word List.mem_cons_self) (endsWord_blank hBlank) hRest

end Token

def baseWords (base : String) : List String :=
  (builtins.lookup base).getD [base]

theorem baseWords_of_mem {base : String} {words : List String} (h : (base, words) ∈ builtins) :
    baseWords base = words := by
  have hAll : ∀ entry ∈ builtins, builtins.lookup entry.1 = some entry.2 := by decide +kernel
  rw [baseWords, hAll _ h]
  rfl

theorem baseWords_cases (base : String) :
    (base, baseWords base) ∈ builtins ∨ baseWords base = [base] := by
  cases hLookup : builtins.lookup base with
  | none => exact .inr (by rw [baseWords, hLookup]; rfl)
  | some words =>
    obtain ⟨before, after, hEq, -⟩ := List.lookup_eq_some_iff.mp hLookup
    rw [baseWords, hLookup, hEq]
    simp

theorem spellsBase_baseWords {base : String} (h : ∃ tokens, SpellsBase base tokens) :
    SpellsBase base ((baseWords base).map Token.word) := by
  obtain ⟨tokens, hBase⟩ := h
  cases hBase with
  | builtin hWords =>
    rw [baseWords_of_mem hWords]
    exact .builtin hWords
  | name hName =>
    rcases baseWords_cases base with hWords | hWords
    · exact .builtin hWords
    · rw [hWords]
      exact .name hName

namespace TypeSpelling

/-- A type with the name it declares, its `const` first and its array extent last. -/
def declaration (type : TypeSpelling) (name : Option String) : List Token :=
  (if type.isConst then [.word "const"] else []) ++ (baseWords type.base).map Token.word ++
    type.indirections ++ name.toList.map Token.word ++ type.extent

theorem spellsDeclaration_declaration {type : TypeSpelling} (hType : type.Declarable)
    (name : Option String) : type.SpellsDeclaration name (type.declaration name) := by
  have hBase := spellsBase_baseWords hType.base
  refine .extentLast ?_
  cases hConst : type.isConst with
  | true => exact .constBefore hConst hBase
  | false => exact .unqualified hConst hBase

end TypeSpelling

namespace ParamSignature

def render (p : ParamSignature) : List Char :=
  Token.written (p.type.declaration p.named) ++
    match p.default with
    | some value => '=' :: ' ' :: value.toList
    | none => []

theorem spells_render {p : ParamSignature} (hp : p.Declarable) : p.Spells p.render := by
  have hTokens := TypeSpelling.spellsDeclaration_declaration hp.type p.named
  have hText := Token.spells_written (plain_declaration hTokens hp.name).1
  rw [render]
  cases hDefault : p.default with
  | none =>
    rw [List.append_nil]
    exact .bare hDefault hTokens hText
  | some value =>
    have hBefore : Text.AllBlank [' '] := by decide
    have hSpelled := Spells.withDefault hDefault hTokens hText hBefore (List.forall_mem_nil _)
    simpa using hSpelled

end ParamSignature

def renderParams : List ParamSignature → List Char
  | [] => []
  | [p] => p.render
  | p :: params => p.render ++ ',' :: renderParams params

theorem spells_renderParams {params : List ParamSignature} (h : ∀ p ∈ params, p.Declarable) :
    SpellsList params (renderParams params) := by
  have hParams (p : ParamSignature) (params : List ParamSignature)
      (h : ∀ q ∈ p :: params, q.Declarable) :
      SpellsParams (p :: params) (renderParams (p :: params)) := by
    induction params generalizing p with
    | nil => exact .single (ParamSignature.spells_render (h p List.mem_cons_self))
    | cons q params ih =>
      rw [List.forall_mem_cons] at h
      exact .cons (ParamSignature.spells_render h.1) (ih q h.2)
  cases params with
  | nil => exact .blank (List.forall_mem_nil _)
  | cons p params => exact .params (hParams p params h)

namespace MethodSignature

def specifiers (m : MethodSignature) : List Specifier :=
  (if m.isVirtual then [.isVirtual] else []) ++ if m.isStatic then [.isStatic] else []

def qualifiers (m : MethodSignature) : List String :=
  (if m.isConst then ["const"] else []) ++ if m.isFinal then ["final"] else []

/-- A method as it is written, with blanks around all its words. -/
def render (m : MethodSignature) : String :=
  String.ofList (m.specifiers.flatMap (fun s => s.keyword ++ [' ']) ++
    Token.written (m.returnType.declaration (some m.name)) ++
    '(' :: renderParams m.params ++ ')' :: Token.written (m.qualifiers.map Token.word) ++
    (if m.isPure then ['=', ' ', '0'] else []) ++ [';'])

variable {m : MethodSignature}

theorem spellsHead_render (hm : m.Declarable) :
    SpellsHead m.returnType m.name m.specifiers
      (m.specifiers.flatMap (fun s => s.keyword ++ [' ']) ++
        Token.written (m.returnType.declaration (some m.name))) := by
  have hTokens := TypeSpelling.spellsDeclaration_declaration hm.returnType (some m.name)
  have hText := Token.spells_written
    (plain_declaration hTokens fun n hn => Option.some.inj hn ▸ hm.name).1
  generalize m.specifiers = specifiers
  induction specifiers with
  | nil => exact .declaration hTokens hText
  | cons s specifiers ih =>
    rw [List.flatMap_cons, List.append_assoc]
    exact .specifier (by decide) (by decide) ih

theorem spellsTail_render (m : MethodSignature) :
    SpellsTail m (Token.written (m.qualifiers.map Token.word) ++
      if m.isPure then ['=', ' ', '0'] else []) := by
  have hQualifiers : SpellsQualifiers m (Token.written (m.qualifiers.map Token.word)) := by
    have hWords : m.qualifiers ⊆ qualifierWords ∧
        m.isConst = m.qualifiers.contains "const" ∧ m.isFinal = m.qualifiers.contains "final" := by
      rw [qualifiers]
      cases m.isConst <;> cases m.isFinal <;> decide
    refine .words hWords.1 hWords.2.1 hWords.2.2 (Token.spells_written ?_)
    intro word hWord
    have hPlain : ∀ word ∈ qualifierWords, PlainWord word := by decide
    obtain ⟨_, hMem, ⟨⟩⟩ := List.mem_map.mp hWord
    exact hPlain word (hWords.1 hMem)
  cases hPure : m.isPure with
  | false =>
    rw [if_neg (by decide), List.append_nil]
    exact .defined hPure hQualifiers
  | true =>
    have hBefore : Text.AllBlank [' '] := by decide
    exact .pure hPure hQualifiers hBefore (List.forall_mem_nil _)

theorem spells_render (hm : m.Declarable) : m.Spells m.render.toList := by
  have hFlags : m.isVirtual = m.specifiers.contains .isVirtual ∧
      m.isStatic = m.specifiers.contains .isStatic := by
    rw [specifiers]
    cases m.isVirtual <;> cases m.isStatic <;> decide
  have hEnd : SpellsEnd [';'] :=
    .statement (.run (List.forall_mem_nil _) 1 (List.forall_mem_nil _))
  have hSpelled := Spells.method (List.forall_mem_nil _) (spellsHead_render hm) hFlags.1 hFlags.2
    (spells_renderParams hm.params) m.spellsTail_render hEnd
  rw [render, String.toList_ofList]
  simpa using hSpelled

/-- A method that a header can declare has a text, and is read back from each of its texts. -/
theorem parse_spelled (hm : m.Declarable) :
    m.Spells m.render.toList ∧
      ∀ input : String, m.Spells input.toList → MethodSignature.parse input = .ok m :=
  ⟨spells_render hm, fun _ => parse_of_spells hm⟩

def sample : MethodSignature where
  name := "ReqQuery"
  returnType := { base := "unsigned long long", isConst := true, pointerDepth := 1 }
  params := [{ name := "pText", type := { base := "char", isConst := true, pointerDepth := 1 }
               default := some "f(\"),=\", 1)" },
             { name := "", type := { base := "CField", isReference := true } },
             { name := "szId", type := { base := "char", arrayLength := some 11 } }]
  isVirtual := true
  isPure := true
  isConst := true

def sampleText : String :=
  "virtual unsigned long long const *ReqQuery( const char*pText=f(\"),=\", 1) ,CField &," ++
    "char [11]szId)const= 0 ;"

theorem parse_spelled_sample :
    sample.Declarable ∧ sample.Spells sampleText.toList ∧
      MethodSignature.parse sampleText = .ok sample := by
  have hLongs : SpellsBase "unsigned long long" [.word "unsigned", .word "long", .word "long"] :=
    @SpellsBase.builtin _ ["unsigned", "long", "long"] (by decide)
  have hChar : SpellsBase "char" [.word "char"] := @SpellsBase.builtin _ ["char"] (by decide)
  have hField : SpellsBase "CField" [.word "CField"] := .name (by decide)
  have hDeclarable : sample.Declarable := by
    refine ⟨⟨⟨_, hLongs⟩, nofun⟩, by decide, ?_⟩
    simp only [sample, List.forall_mem_cons]
    refine ⟨⟨⟨⟨_, hChar⟩, nofun⟩, by decide, ?_, ?_, ?_⟩,
      ⟨⟨⟨_, hField⟩, nofun⟩, by decide, nofun, nofun, nofun⟩,
      ⟨⟨⟨_, hChar⟩, ?_⟩, by decide, ?_, nofun, nofun⟩, nofun⟩
    · rintro _ ⟨⟩
      decide
    · rintro _ ⟨⟩
      decide +kernel
    · rintro _ ⟨⟩
      decide +kernel
    · rintro _ ⟨⟩
      decide
    · rintro _ ⟨⟩
      decide
  have hHead : SpellsHead sample.returnType sample.name [.isVirtual]
      (Specifier.isVirtual.keyword ++ [' '] ++ "unsigned long long const *ReqQuery".toList) :=
    .specifier (by decide) (by decide)
      (.declaration (.extentLast (.constAfter rfl hLongs))
        (Token.spells_of_scan (by decide +kernel)))
  have hParams : SpellsParams sample.params
      (" const char*pText".toList ++ '=' :: ([] ++ "f(\"),=\", 1)".toList ++ [' ']) ++
        ',' :: ("CField &".toList ++ ',' :: "char [11]szId".toList)) :=
    .cons (.withDefault rfl (.extentLast (.constBefore rfl hChar))
        (Token.spells_of_scan (by decide +kernel)) (by decide) (by decide))
      (.cons (.bare rfl (.extentLast (.unqualified rfl hField))
          (Token.spells_of_scan (by decide +kernel)))
        (.single (.bare rfl (.extentFirst (.unqualified rfl hChar))
          (Token.spells_of_scan (by decide +kernel)))))
  have hTail : SpellsTail sample ("const".toList ++ '=' :: ([' '] ++ '0' :: [' '])) :=
    .pure rfl (@SpellsQualifiers.words _ ["const"] _ (by decide) rfl rfl
      (Token.spells_of_scan (by decide +kernel))) (by decide) (by decide)
  have hEnd : SpellsEnd [';'] :=
    .statement (.run (List.forall_mem_nil _) 1 (List.forall_mem_nil _))
  have hWhole := Spells.method (List.forall_mem_nil _) hHead rfl rfl (.params hParams) hTail hEnd
  have hSpells : sample.Spells sampleText.toList := by
    refine Eq.mp (congrArg sample.Spells ?_) hWhole
    decide +kernel
  exact ⟨hDeclarable, hSpells, (parse_spelled hDeclarable).2 sampleText hSpells⟩

end MethodSignature

end NativeBinding.Header
