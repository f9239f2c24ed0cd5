import NativeBinding.Proofs.Header.Spelling
import NativeBinding.Proofs.Lookup
import NativeBinding.Proofs.Marshal.Carried
import NativeBinding.Proofs.Model.Coherence
import NativeBinding.Trader.Callback
import NativeBinding.Trader.Declarations

/-! # What the trader's declarations mean

The structs of each model that a file with these declarations gives, whatever its classes are.
-/

set_option autoImplicit false

namespace NativeBinding.Trader

open Header TypeSpelling

/-- The spellings that the typedefs stand for, with their meanings. -/
def meanings : List (String × TypeSpelling × TypeRef) :=
  [("char[4]", { base := "char", arrayLength := some 4 }, .fixedText 4),
    ("char[9]", { base := "char", arrayLength := some 9 }, .fixedText 9),
    ("char[11]", { base := "char", arrayLength := some 11 }, .fixedText 11),
    ("char[13]", { base := "char", arrayLength := some 13 }, .fixedText 13),
    ("char[16]", { base := "char", arrayLength := some 16 }, .fixedText 16),
    ("char[21]", { base := "char", arrayLength := some 21 }, .fixedText 21),
    ("char[31]", { base := "char", arrayLength := some 31 }, .fixedText 31),
    ("char[41]", { base := "char", arrayLength := some 41 }, .fixedText 41),
    ("char[81]", { base := "char", arrayLength := some 81 }, .fixedText 81),
    ("char", { base := "char" }, .scalar .char), ("int", { base := "int" }, .scalar .i32),
    ("double", { base := "double" }, .scalar .f64)]

def resolved : List StructDecl :=
  [⟨"CThostFtdcRspInfoField", [⟨"ErrorID", .scalar .i32⟩, ⟨"ErrorMsg", .fixedText 81⟩]⟩,
    ⟨"CThostFtdcReqUserLoginField",
      [⟨"TradingDay", .fixedText 9⟩, ⟨"BrokerID", .fixedText 11⟩, ⟨"UserID", .fixedText 16⟩,
        ⟨"Password", .fixedText 41⟩]⟩,
    ⟨"CThostFtdcRspUserLoginField",
      [⟨"TradingDay", .fixedText 9⟩, ⟨"LoginTime", .fixedText 9⟩, ⟨"BrokerID", .fixedText 11⟩,
        ⟨"UserID", .fixedText 16⟩, ⟨"FrontID", .scalar .i32⟩, ⟨"SessionID", .scalar .i32⟩,
        ⟨"MaxOrderRef", .fixedText 13⟩]⟩,
    ⟨"CThostFtdcInputOrderField",
      [⟨"BrokerID", .fixedText 11⟩, ⟨"InvestorID", .fixedText 13⟩, ⟨"InstrumentID", .fixedText 31⟩,
        ⟨"OrderRef", .fixedText 13⟩, ⟨"Direction", .scalar .char⟩, ⟨"LimitPrice", .scalar .f64⟩,
        ⟨"VolumeTotalOriginal", .scalar .i32⟩, ⟨"RequestID", .scalar .i32⟩]⟩,
    ⟨"CThostFtdcOrderField",
      [⟨"BrokerID", .fixedText 11⟩, ⟨"InvestorID", .fixedText 13⟩, ⟨"InstrumentID", .fixedText 31⟩,
        ⟨"OrderRef", .fixedText 13⟩, ⟨"Direction", .scalar .char⟩, ⟨"LimitPrice", .scalar .f64⟩,
        ⟨"VolumeTotalOriginal", .scalar .i32⟩, ⟨"VolumeTraded", .scalar .i32⟩,
        ⟨"OrderStatus", .scalar .char⟩, ⟨"OrderSysID", .fixedText 21⟩, ⟨"FrontID", .scalar .i32⟩,
        ⟨"SessionID", .scalar .i32⟩]⟩,
    ⟨"CThostFtdcQryTradingAccountField",
      [⟨"BrokerID", .fixedText 11⟩, ⟨"InvestorID", .fixedText 13⟩, ⟨"CurrencyID", .fixedText 4⟩]⟩,
    ⟨"CThostFtdcTradingAccountField",
      [⟨"BrokerID", .fixedText 11⟩, ⟨"AccountID", .fixedText 13⟩, ⟨"Balance", .scalar .f64⟩,
        ⟨"Available", .scalar .f64⟩, ⟨"CurrMargin", .scalar .f64⟩, ⟨"CurrencyID", .fixedText 4⟩]⟩]

/-- What a typedef means. -/
def Means (type : String) (ref : TypeRef) : Prop :=
  ∃ spelling target, (type, spelling) ∈ typedefs ∧ (spelling, target, ref) ∈ meanings

theorem forall₂_resolved : List.Forall₂ (fun s t => t.name = s.1 ∧
    List.Forall₂ (fun f g => g.name = f.2 ∧ Means f.1 g.type) s.2 t.fields) members resolved := by
  simp [members, resolved, Means, typedefs, meanings]

section Names

theorem isQualifiedName_ofList {chars : List Char} (h : (match chars with
    | [] => false
    | c :: rest => Text.startsIdentifier c &&
        rest.all fun d => Text.continuesIdentifier d || d == ':') = true) :
    Text.isQualifiedName (String.ofList chars) = true := by
  rw [Text.isQualifiedName, String.toList_ofList]
  exact h

theorem isIdentifier_ofList {chars : List Char} (h : (match chars with
    | [] => false
    | c :: rest => Text.startsIdentifier c && rest.all Text.continuesIdentifier) = true) :
    Text.isIdentifier (String.ofList chars) = true := by
  rw [Text.isIdentifier, String.toList_ofList]
  exact h

theorem isName_typedefs : ∀ t ∈ typedefs, IsName t.1 := by
  have hFree : ∀ t ∈ typedefs, t.1 ∉ reserved := by simp [typedefs, reserved]
  have hChars : ∀ t ∈ typedefs, Text.isQualifiedName t.1 = true := by
    simp only [typedefs, List.forall_mem_cons]
    repeat' apply And.intro
    all_goals first
      | exact isQualifiedName_ofList rfl
      | exact List.forall_mem_nil _
  exact fun t ht => ⟨hChars t ht, hFree t ht⟩

theorem isName_members : ∀ s ∈ members, ∀ f ∈ s.2, IsName f.2 := by
  have hFree : ∀ s ∈ members, ∀ f ∈ s.2, f.2 ∉ reserved := by
    simp only [members, List.forall_mem_cons]
    simp [reserved]
  have hChars : ∀ s ∈ members, ∀ f ∈ s.2, Text.isQualifiedName f.2 = true := by
    simp only [members, List.forall_mem_cons]
    repeat' apply And.intro
    all_goals first
      | exact isQualifiedName_ofList rfl
      | exact List.forall_mem_nil _
  exact fun s hs f hf => ⟨hChars s hs f hf, hFree s hs f hf⟩

theorem nodup_typedefs : (typedefs.map (·.1)).Nodup := by
  simp [typedefs]

end Names
section Resolve

variable {file : DeclarationFile} {type name owner : String} {ref : TypeRef}

def structNames : List String :=
  members.map (·.1)

theorem resolver_structs (h : Declares file) : file.resolver.structs = structNames := by
  have hNames : file.resolver.structs = file.structs.map (·.name) := rfl
  rw [hNames, h.structs, structs, List.map_map]
  rfl

theorem parse_meanings : ∀ e ∈ meanings, TypeSpelling.parse e.1 = .ok e.2.1 := by
  have hParse : ∀ e ∈ meanings, (TypeSpelling.parse e.1).toOption = some e.2.1 := by
    decide +kernel
  intro e he
  have hHere := hParse e he
  cases hResult : TypeSpelling.parse e.1 with
  | ok target =>
    rw [hResult] at hHere
    exact congrArg Except.ok (Option.some.inj hHere)
  | error error =>
    rw [hResult] at hHere
    cases hHere

theorem typedef?_of_mem (h : Declares file) {spelling : String}
    (ht : (type, spelling) ∈ typedefs) : file.resolver.typedef? type = some spelling := by
  have hTypedefs : file.resolver.typedefs = typedefs := h.typedefs
  have hFind := (find?_key_eq_some_iff nodup_typedefs).mpr ⟨ht, rfl⟩
  rw [Resolver.typedef?, hTypedefs]
  exact congrArg (Option.map (·.2)) hFind

theorem known_meanings (h : Declares file) : ∀ e ∈ meanings,
    file.resolver.typedef? e.2.1.base = none ∧ file.resolver.knows e.2.1.base = true := by
  have hTypedefs : file.resolver.typedefs = typedefs := h.typedefs
  simp [meanings, Resolver.typedef?, Resolver.knows, hTypedefs, typedefs, ScalarKind.ofSpelling?]

theorem meaning_meanings (h : Declares file) (unsupported : TypeRef) :
    ∀ e ∈ meanings, file.resolver.meaning unsupported e.2.1 = e.2.2 := by
  have hStructs := resolver_structs h
  simp [meanings, Resolver.meaning, Resolver.indirection, hStructs, structNames, members,
    ScalarKind.ofSpelling?]

theorem plain_meanings :
    ∀ e ∈ meanings, ∃ base length, e.2.1 = { base, arrayLength := length } := by
  simp [meanings]

theorem expand_of_means (h : Declares file) {spelling : String} {target : TypeSpelling}
    (ht : (type, spelling) ∈ typedefs) (he : (spelling, target, ref) ∈ meanings) :
    file.resolver.expand { base := type } = .ok target := by
  obtain ⟨base, length, hPlain⟩ := plain_meanings _ he
  cases hPlain
  have hTypedef := typedef?_of_mem h ht
  have hParse : TypeSpelling.parse spelling = .ok { base, arrayLength := length } :=
    parse_meanings (spelling, _, ref) he
  have hLast : file.resolver.typedef? base = none := (known_meanings h (spelling, _, ref) he).1
  have hTarget : Resolver.substitute { base := type } { base, arrayLength := length } =
      { base, arrayLength := length } := by simp [Resolver.substitute]
  have hEnd (fuel : Nat) (seen : List String) :
      file.resolver.expandFrom fuel seen { base, arrayLength := length } =
        .ok { base, arrayLength := length } := by
    cases fuel <;> simp only [Resolver.expandFrom, hLast] <;> rfl
  rw [Resolver.expand, Resolver.expandFrom, hTypedef]
  simp only [List.contains_nil, Bool.false_eq_true, if_false, hParse, Option.isSome_none,
    Bool.and_false, hTarget, hEnd]

theorem spells_pair (hType : IsName type) (hName : IsName name) :
    Token.Spells [.word type, .word name] (type ++ " " ++ name).toList := by
  have hBlank : Text.isBlank ' ' = true := by decide
  have hEnd : Token.EndsWord (' ' :: name.toList) := by
    rintro _ ⟨⟩ hWord
    rw [hWord.1] at hBlank
    cases hBlank
  have hFirst := plainWord_of_isQualifiedName hType.1
  have hSecond := plainWord_of_isQualifiedName hName.1
  have hRest : Token.Spells [.word (String.ofList name.toList)] (name.toList ++ []) :=
    .word hSecond.1 (fun c hc => isWordChar_of_name (hSecond.2 c hc)) nofun .nil
  have hBoth := Token.Spells.word hFirst.1 (fun c hc => isWordChar_of_name (hFirst.2 c hc)) hEnd
    (.blank hBlank (List.append_nil name.toList ▸ hRest))
  rw [String.ofList_toList, String.ofList_toList] at hBoth
  rw [String.toList_append, String.toList_append]
  simpa using hBoth

theorem resolveField_of_means (h : Declares file) (hMeans : Means type ref)
    (hName : IsName name) :
    DeclarationFile.resolveField file.resolver owner (type ++ " " ++ name) = .ok ⟨name, ref⟩ := by
  obtain ⟨spelling, target, ht, he⟩ := hMeans
  have hType := isName_typedefs _ ht
  have hExpand := expand_of_means h ht he
  have hKnown : file.resolver.knows target.base = true :=
    (known_meanings h (spelling, target, ref) he).2
  have hMeaning (unsupported : TypeRef) : file.resolver.meaning unsupported target = ref :=
    meaning_meanings h unsupported (spelling, target, ref) he
  have hPlain : (decide (0 < target.pointerDepth) || target.isReference) = false := by
    obtain ⟨base, length, hPlain⟩ := plain_meanings _ he
    cases hPlain
    rfl
  have hField : FieldSignature.parse (type ++ " " ++ name) = .ok ⟨name, { base := type }⟩ := by
    have hTokens : SpellsDeclaration { base := type } (some name) [.word type, .word name] :=
      .extentLast (.unqualified rfl (.name hType))
    have hVoid : isVoid { base := type } = false := by
      have hOther : ∀ t ∈ typedefs, t.1 ≠ "void" := by simp [typedefs]
      simp [isVoid, hOther _ ht]
    have hDeclarable : TypeSpelling.Declarable { base := type } :=
      ⟨⟨_, .name hType⟩, nofun⟩
    exact FieldSignature.parse_of_spells hDeclarable hVoid hName hTokens (spells_pair hType hName)
      (.run (List.forall_mem_nil _) 0 (List.forall_mem_nil _)) (List.append_nil _).symm
  have hSignature : DeclarationFile.ofSignature (FieldSignature.parse (type ++ " " ++ name)) =
      .ok ⟨name, { base := type }⟩ := by rw [hField]; rfl
  simp only [DeclarationFile.resolveField, hSignature, bind, Except.bind, hExpand, hPlain,
    Bool.false_eq_true, if_false, Resolver.resolve, hKnown, Bool.not_true, hMeaning]
  rfl

theorem forall₂_resolveFields (h : Declares file) {fields : List (String × String)}
    {resolved : List FieldDecl} (hNames : ∀ f ∈ fields, IsName f.2)
    (hFields : List.Forall₂ (fun f g => g.name = f.2 ∧ Means f.1 g.type) fields resolved) :
    (fields.map fun f => f.1 ++ " " ++ f.2).mapM
      (DeclarationFile.resolveField file.resolver owner) = .ok resolved := by
  rw [mapM_eq_ok_iff, List.forall₂_map_left_iff]
  refine ((List.forall₂_and_left _ _).mpr ⟨hNames, hFields⟩).imp ?_
  rintro f g ⟨hName, hSame, hMeans⟩
  rw [resolveField_of_means h hMeans hName, ← hSame]

theorem resolve_structs (h : Declares file) : (file.structs.mapM fun s => do
    let fields ← s.fields.mapM (DeclarationFile.resolveField file.resolver s.name)
    pure { name := s.name, fields : StructDecl }) = .ok resolved := by
  rw [h.structs, structs, mapM_eq_ok_iff, List.forall₂_map_left_iff]
  refine ((List.forall₂_and_left _ _).mpr ⟨isName_members, forall₂_resolved⟩).imp ?_
  rintro s t ⟨hNames, hName, hFields⟩
  rw [forall₂_resolveFields h hNames hFields, ← hName]
  rfl

theorem structs_of_toModel (h : Declares file) {model : Model} (hModel : file.toModel = .ok model) :
    model.structs = resolved ∧
      model.constants = Model.sortConstants (constants.map fun c => ⟨c.1, c.2⟩) ∧
        model.StructRules := by
  obtain ⟨-, -, found, hStructs, classes, -, base, hNew, hConstants⟩ := by
    simpa only [DeclarationFile.toModel, bind_eq_ok_iff] using hModel
  have hResolved : found = resolved := Except.ok.inj (hStructs.symm.trans (resolve_structs h))
  have hBase := (Model.new_eq_ok_iff.mp hNew).1
  have hModel := Model.withConstants_eq_ok hConstants
  have hAccepted : model.Accepted := .withConstants (.new hNew) hConstants
  refine ⟨?_, ?_, hAccepted.structRules⟩
  · rw [hModel, hBase, hResolved]
  · rw [hModel, h.constants]

end Resolve

/-- What the trader library uses of the declarations. -/
structure Bundled (m : Marshaler) : Prop where
  flat : m.Flat
  structs : m.model.structs = resolved
  queueing : constantText? m "THOST_FTDC_OST_NoTradeQueueing" = some "3"
  traded : constantText? m "THOST_FTDC_OST_AllTraded" = some "0"

theorem constantText?_of_mem {m : Marshaler} {name text : String}
    (hConstants : m.model.constants = Model.sortConstants (constants.map fun c => ⟨c.1, c.2⟩))
    (hMem : (name, .text text) ∈ constants) : constantText? m name = some text := by
  have hNames : (constants.map (·.1)).Nodup := by simp [constants]
  have hPerm : (m.model.constants).Perm (constants.map fun c => ⟨c.1, c.2⟩) := by
    rw [hConstants]
    exact List.mergeSort_perm _ _
  have hKeys : (m.model.constants.map (·.name)).Nodup := by
    rw [(hPerm.map _).nodup_iff, List.map_map]
    exact hNames
  have hFound : m.model.findConstant? name = some ⟨name, .text text⟩ :=
    (find?_key_eq_some_iff hKeys).mpr
      ⟨hPerm.mem_iff.mpr (List.mem_map.mpr ⟨_, hMem, rfl⟩), rfl⟩
  rw [constantText?, hFound]
  rfl

theorem bundled_of_toModel {file : DeclarationFile} {model : Model} {m : Marshaler}
    (h : Declares file) (hModel : file.toModel = .ok model) (hNew : Marshaler.new model = .ok m) :
    Bundled m := by
  obtain ⟨hStructs, hConstants, hRules⟩ := structs_of_toModel h hModel
  have hPlain : ∀ s ∈ resolved, ∀ f ∈ s.fields, ∀ name, f.type ≠ .struct name := by
    simp [resolved]
  obtain ⟨hSame, hFlat⟩ := Marshaler.flat_of_new hRules (hStructs ▸ hPlain) hNew
  rw [← hSame] at hStructs hConstants
  refine ⟨hFlat, hStructs, constantText?_of_mem hConstants ?_, constantText?_of_mem hConstants ?_⟩
  · simp [constants]
  · simp [constants]

section Accepted

variable {file : DeclarationFile}

theorem coherent_resolved : Coherent resolved [] := by
  have hPlain : ∀ s ∈ resolved, ∀ f ∈ s.fields,
      (∃ kind, f.type = .scalar kind) ∨ ∃ width, f.type = .fixedText width := by
    simp [resolved]
  have hHolds (s : StructDecl) (hs : s ∈ resolved) (t : StructDecl) :
      ¬ HoldsStruct resolved s t := by
    rintro ⟨-, f, hf, hType⟩
    rcases hPlain s hs f hf with ⟨kind, hScalar⟩ | ⟨width, hText⟩
    · cases hScalar.symm.trans hType
    · cases hText.symm.trans hType
  refine ⟨?_, List.nodup_nil, List.forall_mem_nil _, ?_, fun s hs f hf => ?_, List.forall_mem_nil _,
    fun s hs f hf => ?_, List.forall_mem_nil _, fun s hs hCycle => ?_, List.forall_mem_nil _,
    List.forall_mem_nil _⟩
  · simp [resolved]
  · simp [resolved]
  · exact (hPlain s hs f hf).imp_right .inl
  · rcases hPlain s hs f hf with ⟨kind, hType⟩ | ⟨width, hType⟩
    · rw [hType]
      trivial
    · rw [hType]
      trivial
  · obtain ⟨t, hHere, -⟩ := Relation.TransGen.head'_iff.mp hCycle
    exact hHolds s hs t hHere

theorem isIdentifier_constants : ∀ c ∈ constants, Text.isIdentifier c.1 = true := by
  simp only [constants, List.forall_mem_cons]
  repeat' apply And.intro
  all_goals first
    | exact isIdentifier_ofList rfl
    | exact List.forall_mem_nil _

theorem sorted_constants : Model.sortConstants (constants.map fun c => ⟨c.1, c.2⟩) =
    constants.map fun c => ⟨c.1, c.2⟩ := by
  apply List.mergeSort_of_pairwise
  simp only [constants, List.map_cons, List.map_nil]
  decide

theorem withConstants_resolved (library : LibraryInfo) :
    ∃ model, ({ library, structs := resolved } : Model).withConstants
      (constants.map fun c => ⟨c.1, c.2⟩) = .ok model := by
  have hDistinct : Model.checkDistinctConstants (constants.map fun c => ⟨c.1, c.2⟩) = .ok () := by
    simp [constants, Model.checkDistinctConstants, pure, Except.pure]
  have hShadow : ∀ c ∈ constants,
      ({ library, structs := resolved } : Model).declaresStruct c.1 = false := by
    simp [constants, Model.declaresStruct, Model.findStruct?, resolved]
  have hFinite : ∀ c ∈ constants, c.2.isFinite = true := by
    simp [constants, ConstValue.isFinite]
  have hChecks : (constants.map fun c => ⟨c.1, c.2⟩).forM
      ({ library, structs := resolved } : Model).checkConstant = .ok () := by
    refine forM_eq_ok_iff.mpr fun c hc => ?_
    obtain ⟨d, hd, rfl⟩ := List.mem_map.mp hc
    have hClass : ({ library, structs := resolved } : Model).declaresClass d.1 = false := rfl
    simp only [Model.checkConstant, isIdentifier_constants d hd, hShadow d hd, hClass,
      hFinite d hd, Bool.not_true, Bool.or_self, Bool.false_eq_true, if_false]
    rfl
  refine ⟨{ library, structs := resolved, constants := constants.map fun c => ⟨c.1, c.2⟩ }, ?_⟩
  simp only [Model.withConstants, sorted_constants, hDistinct, hChecks]
  rfl

theorem exists_marshaler (h : Declares file) (hClasses : file.classes = []) :
    ∃ model m, file.toModel = .ok model ∧ Marshaler.new model = .ok m := by
  obtain ⟨model, hModel⟩ := withConstants_resolved file.library
  have hNames := resolver_structs h
  have hShadows : (file.typedefs.forM fun t =>
      if file.resolver.structs.contains t.1 || file.resolver.classes.contains t.1 then
        throw (.model (.typedefShadows t.1))
      else pure ()) = (.ok () : Except DeclError Unit) := by
    have hOther : file.resolver.classes = file.classes.map (·.name) := rfl
    rw [h.typedefs, hNames, hOther, hClasses]
    refine forM_eq_ok_iff.mpr ?_
    simp [typedefs, structNames, members]
    rfl
  have hNew : Model.new file.library resolved [] =
      .ok { library := file.library, structs := resolved } :=
    Model.new_eq_ok_iff.mpr ⟨rfl, (@Model.checks_iff_coherent
      { library := file.library, structs := resolved }).mpr coherent_resolved⟩
  have hToModel : file.toModel = .ok model := by
    simp only [DeclarationFile.toModel, bind_eq_ok_iff]
    exact ⟨(), hShadows, resolved, resolve_structs h, [], hClasses ▸ rfl, _, hNew,
      h.constants ▸ hModel⟩
  obtain ⟨-, -, hRules⟩ := structs_of_toModel h hToModel
  obtain ⟨table, rank, hBuild, -⟩ := LayoutTable.build_ranked hRules
  refine ⟨model, { model, layouts := table }, hToModel, ?_⟩
  rw [Marshaler.new, hBuild]
  rfl

end Accepted

end NativeBinding.Trader
