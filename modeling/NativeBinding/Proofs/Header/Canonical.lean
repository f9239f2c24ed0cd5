import NativeBinding.Proofs.Header.Spelling
import NativeBinding.Proofs.Success

/-! # Canonical spellings

Header texts spell one type in many ways: with its `const` before or after the base, with words that
are implied, with white space anywhere. Whatever a type was read from, its canonical spelling is
read as the same type again.
-/

set_option autoImplicit false

namespace NativeBinding.Header

section Base

variable {base : String} {tokens rest : List Token}

/-- A base that some tokens are read as. -/
def IsBase (base : String) : Prop :=
  base ∈ builtins.map (·.1) ∨ Text.isQualifiedName base = true ∧ base ∉ opening

theorem readSigned_builtin (isUnsigned : Bool) (tokens : List Token) :
    (readSigned isUnsigned tokens).1 ∈ builtins.map (·.1) := by
  have hSpell {unsignedBase signedBase : String} (hUnsigned : unsignedBase ∈ builtins.map (·.1))
      (hSigned : signedBase ∈ builtins.map (·.1)) :
      (if isUnsigned = true then unsignedBase else signedBase) ∈ builtins.map (·.1) := by
    split
    · exact hUnsigned
    · exact hSigned
  unfold readSigned
  dsimp only
  split <;> exact hSpell (by decide) (by decide)

theorem isBase_of_readBase (h : readBase tokens = .ok (base, rest)) : IsBase base := by
  unfold readBase at h
  split at h
  · cases h
  · rename_i more
    have hBase : (readSigned true more).1 = base := congrArg Prod.fst (Except.ok.inj h)
    exact .inl (hBase ▸ readSigned_builtin true more)
  · rename_i more
    have hBase : (readSigned false more).1 = base := congrArg Prod.fst (Except.ok.inj h)
    exact .inl (hBase ▸ readSigned_builtin false more)
  · cases h
    exact .inl (by decide)
  · cases h
    exact .inl (by decide)
  · cases h
    exact .inl (by decide)
  · cases h
    exact .inl (by decide)
  · split at h
    · rename_i hUnsigned hSigned _ _ hLong hShort hName
      cases h
      refine .inr ⟨hName, ?_⟩
      simp only [opening, List.mem_cons, List.not_mem_nil, or_false, not_or]
      exact ⟨hUnsigned, hSigned, hLong, hShort⟩
    · cases h
  · cases h

theorem IsBase.name_of_baseWords (h : IsBase base) (hWords : baseWords base = [base])
    (hOther : (base, baseWords base) ∉ builtins) :
    Text.isQualifiedName base = true ∧ base ∉ opening := by
  refine h.resolve_left fun hBuiltin => ?_
  obtain ⟨⟨base, words⟩, hMem, rfl⟩ := List.mem_map.mp hBuiltin
  rw [baseWords_of_mem hMem] at hOther
  exact hOther hMem

theorem readsBase_baseWords (h : IsBase base) (hFree : base ∉ qualifying) :
    ReadsBase base ((baseWords base).map Token.word) := by
  by_cases hBuiltin : (base, baseWords base) ∈ builtins
  · exact (SpellsBase.builtin hBuiltin).readsBase
  · have hWords := (baseWords_cases base).resolve_left hBuiltin
    obtain ⟨hName, hOpening⟩ := h.name_of_baseWords hWords hBuiltin
    rw [hWords]
    exact ⟨fun rest _ => readBase_name hName hOpening, fun rest => avoids_name hFree⟩

theorem spells_base (h : IsBase base) :
    Token.Spells ((baseWords base).map Token.word) base.toList := by
  by_cases hBuiltin : (base, baseWords base) ∈ builtins
  · have hAll : ∀ entry ∈ builtins, Token.scan entry.1.toList = entry.2.map Token.word := by
      decide +kernel
    exact Token.spells_of_scan (hAll _ hBuiltin)
  · have hWords := (baseWords_cases base).resolve_left hBuiltin
    have hPlain := plainWord_of_isQualifiedName (h.name_of_baseWords hWords hBuiltin).1
    have hSpelled := Token.spells_plain hPlain Token.endsWord_nil .nil
    rw [List.append_nil] at hSpelled
    rwa [hWords]

end Base

section Image

variable {d made : Declarator} {tokens : List Token}

/-- An extent that an array suffix can give. -/
def IsExtent (n : Nat) : Prop :=
  0 < n ∧ n < UInt64.size

theorem isExtent_of_readExtent {token : Token} {n : Nat} (h : readExtent token = .ok n) :
    IsExtent n := by
  unfold readExtent at h
  split at h
  · cases h
  · cases h
  · rename_i count hZero hCount
    cases h
    refine ⟨Nat.pos_of_ne_zero hZero, ?_⟩
    have hSmall := (Option.filter_eq_some_iff.mp hCount).2
    exact of_decide_eq_true hSmall

theorem isExtent_of_readDeclarator (h : readDeclarator d tokens = .ok made)
    (hd : ∀ n, d.arrayLength = some n → IsExtent n) :
    ∀ n, made.arrayLength = some n → IsExtent n := by
  fun_induction readDeclarator d tokens with
  | case1 =>
    cases h
    exact hd
  | case2 _ _ ih => exact ih h hd
  | case3 _ _ ih => exact ih h hd
  | case4 _ _ ih => exact ih h hd
  | case7 _ _ _ _ _ hExtent ih =>
    refine ih h fun n hn => ?_
    cases hn
    exact isExtent_of_readExtent hExtent
  | case11 _ _ _ _ _ _ _ _ _ _ ih => exact ih h hd
  | _ => cases h

/-- A type that some text is read as. -/
structure TypeSpelling.Readable (type : TypeSpelling) : Prop where
  base : IsBase type.base
  counted : ∀ n, type.arrayLength = some n → IsExtent n

theorem readSpecifiers_eq_ok {type : TypeSpelling} {rest : List Token}
    (h : readSpecifiers tokens = .ok (type, rest)) :
    IsBase type.base ∧ ∃ isConst, type = { base := type.base, isConst } := by
  obtain ⟨⟨base, after⟩, hBase, hMade⟩ := bind_eq_ok_iff.mp h
  dsimp only at hMade
  split at hMade
  · cases hMade
    exact ⟨isBase_of_readBase hBase, true, rfl⟩
  · cases hMade
    exact ⟨isBase_of_readBase hBase, _, rfl⟩

theorem TypeSpelling.parse_eq_ok_iff {text : String} {type : TypeSpelling} :
    TypeSpelling.parse text = .ok type ↔
      readDeclaration (Token.scan text.toList) = .ok (type, none) := by
  rw [TypeSpelling.parse, Token.scan_trim]
  generalize Token.scan text.toList = tokens
  cases tokens with
  | nil => exact ⟨nofun, nofun⟩
  | cons token tokens =>
    simp only [List.isEmpty_cons, Bool.false_eq_true, if_false, bind_eq_ok_iff]
    constructor
    · rintro ⟨⟨other, name⟩, hRead, hName⟩
      cases name with
      | some name => cases hName
      | none =>
        cases hName
        exact hRead
    · intro hRead
      exact ⟨_, hRead, rfl⟩

theorem TypeSpelling.readable_of_parse {text : String} {type : TypeSpelling}
    (h : TypeSpelling.parse text = .ok type) : type.Readable := by
  obtain ⟨⟨specified, rest⟩, hSpecifiers, h⟩ := bind_eq_ok_iff.mp (parse_eq_ok_iff.mp h)
  obtain ⟨declarator, hDeclarator, hMade⟩ := bind_eq_ok_iff.mp h
  obtain ⟨hBase, isConst, hPlain⟩ := readSpecifiers_eq_ok hSpecifiers
  have hType : declarator.apply specified = type := congrArg Prod.fst (Except.ok.inj hMade)
  rw [← hType]
  refine ⟨hBase, fun n hn => ?_⟩
  rw [hPlain, Declarator.apply, Option.or_none] at hn
  refine isExtent_of_readDeclarator hDeclarator (fun _ hNone => ?_) n hn
  cases hNone

end Image

namespace TypeSpelling

variable {type : TypeSpelling}

def suffix (type : TypeSpelling) : List Char :=
  match type.arrayLength with
  | some n => '[' :: ((Text.natural n).toList ++ [']'])
  | none => []

theorem spells_suffix (type : TypeSpelling) : Token.Spells type.extent type.suffix := by
  rw [extent, suffix]
  cases type.arrayLength with
  | none => exact .nil
  | some n =>
    have hClose : Token.Spells [.closeBracket] [']'] := .mark rfl .nil
    have hEnd : Token.EndsWord [']'] := hClose.endsWord (by simp)
    exact .mark rfl (Token.spells_plain (plainWord_natural n) hEnd hClose)

theorem spells_indirections {tokens : List Token} {text : List Char} (type : TypeSpelling)
    (h : Token.Spells tokens text) :
    Token.Spells (type.indirections ++ tokens) (List.replicate type.pointerDepth.toNat '*' ++
      ((if type.isReference then ['&'] else []) ++ text)) := by
  rw [indirections, List.append_assoc]
  induction type.pointerDepth.toNat with
  | zero =>
    cases type.isReference with
    | true => exact .mark rfl h
    | false => exact h
  | succ n ih => exact .mark rfl ih

theorem toList_render (type : TypeSpelling) :
    type.render.toList = (if type.isConst then "const ".toList else []) ++ (type.base.toList ++
      (List.replicate type.pointerDepth.toNat '*' ++
        ((if type.isReference then ['&'] else []) ++ type.suffix))) := by
  rw [render, suffix]
  cases type.isConst <;> cases type.isReference <;> cases type.arrayLength <;> simp

theorem spells_render (hType : type.Readable) :
    Token.Spells (type.declaration none) type.render.toList := by
  have hTail := type.spells_indirections type.spells_suffix
  have hEnd := hTail.endsWord fun word => by
    have hAvoids : Avoids [word] (type.indirections ++ (type.extent ++ [])) :=
      avoids_indirections (avoids_extent (avoids_nil _))
    rw [List.append_nil] at hAvoids
    exact hAvoids word List.mem_cons_self
  have hBase := (spells_base hType.base).append hTail hEnd
  rw [declaration, toList_render]
  cases type.isConst with
  | false => simpa using hBase
  | true =>
    have hBlank : Text.isBlank ' ' = true := by decide
    have hPlain : PlainWord "const" := plainWord_of_isQualifiedName (by decide)
    have hSpelled := Token.spells_plain hPlain (Token.endsWord_blank hBlank) (.blank hBlank hBase)
    simpa using hSpelled

theorem readDeclaration_canonical (hType : type.Readable) (hFree : type.base ∉ qualifying) :
    readDeclaration (type.declaration none) = .ok (type, none) := by
  have hReads := readsBase_baseWords hType.base hFree
  have hFront (rest : List Token) :
      readQualifiers ((if type.isConst then [Token.word "const"] else []) ++
        ((baseWords type.base).map Token.word ++ rest)) =
        (type.isConst, (baseWords type.base).map Token.word ++ rest) := by
    cases type.isConst with
    | true =>
      rw [if_pos rfl, List.singleton_append, readQualifiers,
        readQualifiers_of_avoids (hReads.front rest)]
    | false => exact readQualifiers_of_avoids (hReads.front rest)
  have hRest : Avoids ("const" :: continuing) (type.indirections ++ (type.extent ++ [])) :=
    avoids_indirections (avoids_extent (avoids_nil _))
  have hSpecifiers := readSpecifiers_base (hFront _) hReads hRest
  have hTokens : type.declaration none = (if type.isConst then [Token.word "const"] else []) ++
        ((baseWords type.base).map Token.word ++ (type.indirections ++ (type.extent ++ []))) := by
    simp [declaration]
  rw [hTokens, readDeclaration, hSpecifiers]
  simp only [bind, Except.bind]
  rw [readDeclarator_indirections, readDeclarator_extent hType.counted rfl, readDeclarator]
  simp only [Declarator.apply, UInt8.zero_add, Bool.false_or, Option.or_none]
  rfl

/-- Whatever text a type is read from, it is read from its canonical spelling too. -/
theorem parse_render {text : String} (h : TypeSpelling.parse text = .ok type)
    (hFree : type.base ∉ qualifying) : TypeSpelling.parse type.render = .ok type := by
  have hType := readable_of_parse h
  rw [parse_eq_ok_iff, Token.scan_of_spells (spells_render hType)]
  exact readDeclaration_canonical hType hFree

def looseText : String :=
  " unsigned  long int const * const& [ +5 ] "

theorem parse_render_sample :
    ∃ type, TypeSpelling.parse looseText = .ok type ∧
      type.render = "const unsigned long*&[5]" ∧ TypeSpelling.parse type.render = .ok type := by
  have hParse : TypeSpelling.parse looseText = .ok
      { base := "unsigned long", isConst := true, pointerDepth := 1, isReference := true
        arrayLength := some 5 } := by decide +kernel
  exact ⟨_, hParse, by decide +kernel, parse_render hParse (by decide)⟩

end TypeSpelling

end NativeBinding.Header
