import NativeBinding.Model.File
import NativeBinding.Proofs.Header.OptionalInt
import NativeBinding.Proofs.Model.Coherence

/-! # Methods of a loaded file

A model that a file gives has the classes of the file, and each has its methods in the order of
their texts. A method keeps the names, the types and the defaults of its declaration; a parameter
without a name is named for its position.
-/

set_option autoImplicit false

namespace NativeBinding

open Header

def Header.ParamSignature.nameAt (p : ParamSignature) (i : Nat) : String :=
  if p.name.isEmpty then "arg" ++ Text.natural i else p.name

/-- A method that the text of its declaration gives. -/
structure MethodDecl.Read (m : MethodDecl) (r : Resolver) (className : String)
    (s : MethodSignature) : Prop where
  name : m.name = s.name
  returned : r.resolve s.returnType (.method className s.name) = .ok m.returnType
  params : List.Forall₂ (fun p q => q.name = p.1.nameAt p.2 ∧ q.default = p.1.default ∧
    r.resolve p.1.type (.param className s.name q.name) = .ok q.type) s.params.zipIdx m.params

/-- The methods of a class are those that a file declares for it. -/
structure ClassDecl.Read (c : ClassDecl) (r : Resolver) (entry : ClassEntry) : Prop where
  name : c.name = entry.name
  methods : List.Forall₂ (fun text m => ∃ s, MethodSignature.parse text = .ok s ∧
    m.Read r entry.name s) entry.methods c.methods

namespace Header

variable {input : String} {text : List Char} {p : ParamSignature}

theorem readParam_eq_ok (h : readParam text = .ok p) :
    p.type.isVoid = false ∧ (p.name = "" ∨ Text.isQualifiedName p.name = true) := by
  rw [readParam_eq] at h
  split at h
  · cases h
  · obtain ⟨name, hRead, hType, hMade⟩ := readPieces_eq_ok_iff.mp h
    refine ⟨hType, ?_⟩
    rw [hMade]
    cases name with
    | none => exact .inl rfl
    | some name => exact .inr (IntegerText.isQualifiedName_of_readDeclaration hRead)

theorem readParams_eq_ok {params : List ParamSignature} (h : readParams text = .ok params)
    (hp : p ∈ params) :
    p.type.isVoid = false ∧ (p.name = "" ∨ Text.isQualifiedName p.name = true) := by
  unfold readParams at h
  dsimp only at h
  split at h
  · cases h
    cases hp
  · obtain ⟨part, -, hPart⟩ := exists_of_mem_mapM h hp
    exact readParam_eq_ok hPart

/-- The text between the parentheses of a method. -/
def paramText? (input : String) : Option (List Char) :=
  match (statement input).dropWhile (· != '(') with
  | [] => none
  | _ :: afterOpen => (splitAtClose 0 none afterOpen).map (·.1)

theorem ParamSignature.isQualifiedName_nameAt (i : Nat)
    (h : p.name = "" ∨ Text.isQualifiedName p.name = true) :
    Text.isQualifiedName (p.nameAt i) = true := by
  unfold nameAt
  split
  · have hDigits : ∀ c ∈ (Text.natural i).toList, Text.isAsciiDigit c = true := by
      rw [Text.natural, String.toList_ofList, Text.naturalChars, List.forall_mem_map]
      exact fun d hd => Text.isAsciiDigit_digitChar (Text.lt_ten_of_mem_decimalDigits hd)
    have hName : ("arg" ++ Text.natural i).toList =
        'a' :: 'r' :: 'g' :: (Text.natural i).toList := by
      rw [String.toList_append]
      rfl
    unfold Text.isQualifiedName
    rw [hName]
    simp only [List.all_cons, Bool.and_eq_true, List.all_eq_true]
    refine ⟨by decide, by decide, by decide, fun c hc => ?_⟩
    simp [Text.continuesIdentifier, hDigits c hc]
  · rename_i hSome
    refine h.resolve_left fun hNone => hSome ?_
    rw [hNone]
    rfl

namespace MethodSignature

variable {m : MethodSignature}

theorem exists_parts (h : parse input = .ok m) :
    ∃ head inner after, paramText? input = some inner ∧
      readParts input head inner after = .ok m := by
  rw [parse] at h
  dsimp only at h
  split at h
  · cases h
  · split at h
    · cases h
    · rename_i hRest
      split at h
      · cases h
      · rename_i inner after hClose
        refine ⟨_, inner, after, ?_, h⟩
        rw [paramText?, hRest]
        dsimp only
        rw [hClose]
        rfl

theorem exists_readParts (h : parse input = .ok m) :
    ∃ head inner, paramText? input = some inner ∧ readParams inner = .ok m.params ∧
      readTypeAndName head = .ok (m.returnType, m.name) := by
  obtain ⟨head, inner, after, hInner, h⟩ := exists_parts h
  obtain ⟨tail, -, h⟩ := bind_eq_ok_iff.mp h
  dsimp only at h
  obtain ⟨⟨type, name⟩, hName, h⟩ := bind_eq_ok_iff.mp h
  obtain ⟨params, hParams, h⟩ := bind_eq_ok_iff.mp h
  cases h
  exact ⟨_, inner, hInner, hParams, hName⟩

theorem names_of_parse (h : parse input = .ok m) : Text.isQualifiedName m.name = true ∧
    ∀ p ∈ m.params, p.type.isVoid = false ∧ (p.name = "" ∨ Text.isQualifiedName p.name = true) := by
  obtain ⟨head, inner, -, hParams, hName⟩ := exists_readParts h
  refine ⟨?_, fun p hp => readParams_eq_ok hParams hp⟩
  have hDeclaration := IntegerText.readTypeAndName_eq_ok_iff.mp hName
  exact IntegerText.isQualifiedName_of_readDeclaration hDeclaration

end MethodSignature

end Header

namespace DeclarationFile

variable {r : Resolver} {className methodName text : String} {file : DeclarationFile}
  {model : Model}

theorem forall₂_resolveParams {i : Nat} {params : List ParamSignature} {resolved : List Param}
    (h : resolveParams r className methodName i params = .ok resolved) :
    List.Forall₂ (fun p q => q.name = p.1.nameAt p.2 ∧ q.default = p.1.default ∧
      r.resolve p.1.type (.param className methodName q.name) = .ok q.type)
      (params.zipIdx i) resolved := by
  induction params generalizing i resolved with
  | nil =>
    cases h
    exact .nil
  | cons p params ih =>
    obtain ⟨type, hType, h⟩ := bind_eq_ok_iff.mp h
    obtain ⟨rest, hRest, h⟩ := bind_eq_ok_iff.mp h
    cases h
    rw [List.zipIdx_cons]
    exact .cons ⟨rfl, rfl, hType⟩ (ih hRest)

theorem read_of_resolveMethod {m : MethodDecl} (h : resolveMethod r className text = .ok m) :
    ∃ s, MethodSignature.parse text = .ok s ∧ m.Read r className s := by
  obtain ⟨s, hParse, h⟩ := bind_eq_ok_iff.mp h
  obtain ⟨returned, hReturned, h⟩ := bind_eq_ok_iff.mp h
  obtain ⟨params, hParams, h⟩ := bind_eq_ok_iff.mp h
  cases h
  refine ⟨s, ?_, rfl, hReturned, forall₂_resolveParams hParams⟩
  cases hResult : MethodSignature.parse text with
  | ok s' =>
    rw [hResult] at hParse
    cases hParse
    rfl
  | error e =>
    rw [hResult] at hParse
    cases hParse

theorem classes_of_toModel (h : file.toModel = .ok model) :
    List.Forall₂ (fun entry c => c.Read file.resolver entry) file.classes model.classes := by
  obtain ⟨-, -, structs, -, classes, hClasses, base, hNew, hConstants⟩ := by
    simpa only [toModel, bind_eq_ok_iff] using h
  have hBase := (Model.new_eq_ok_iff.mp hNew).1
  have hModel := Model.withConstants_eq_ok hConstants
  have hSame : model.classes = classes := by rw [hModel, hBase]
  rw [hSame]
  refine (mapM_eq_ok_iff.mp hClasses).imp ?_
  intro entry c hClass
  obtain ⟨methods, hMethods, hMade⟩ := bind_eq_ok_iff.mp hClass
  cases hMade
  exact ⟨rfl, (mapM_eq_ok_iff.mp hMethods).imp fun _ _ => read_of_resolveMethod⟩

theorem exists_read (h : file.toModel = .ok model) {c : ClassDecl} (hc : c ∈ model.classes)
    {m : MethodDecl} (hm : m ∈ c.methods) :
    ∃ entry ∈ file.classes, ∃ text ∈ entry.methods, ∃ s, MethodSignature.parse text = .ok s ∧
      m.Read file.resolver entry.name s := by
  obtain ⟨entry, hEntry, hRead⟩ := exists_of_mem_forall₂ (classes_of_toModel h) hc
  obtain ⟨text, hText, s, hParse, hMethod⟩ := exists_of_mem_forall₂ hRead.methods hm
  exact ⟨entry, hEntry, text, hText, s, hParse, hMethod⟩

/-- The methods of a loaded model and their parameters have names, which may be qualified. -/
theorem names_of_toModel (h : file.toModel = .ok model) {c : ClassDecl} (hc : c ∈ model.classes)
    {m : MethodDecl} (hm : m ∈ c.methods) : Text.isQualifiedName m.name = true ∧
      ∀ p ∈ m.params, Text.isQualifiedName p.name = true := by
  obtain ⟨entry, -, text, -, s, hParse, hRead⟩ := exists_read h hc hm
  obtain ⟨hName, hParams⟩ := Header.MethodSignature.names_of_parse hParse
  refine ⟨hRead.name ▸ hName, fun p hp => ?_⟩
  obtain ⟨q, hq, hSame, -⟩ := exists_of_mem_forall₂ hRead.params hp
  have hMem : q.1 ∈ s.params := List.fst_mem_of_mem_zipIdx hq
  rw [hSame]
  exact q.1.isQualifiedName_nameAt q.2 (hParams q.1 hMem).2

end DeclarationFile

end NativeBinding
