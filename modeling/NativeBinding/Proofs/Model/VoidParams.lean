import NativeBinding.Proofs.Model.CharPointer
import NativeBinding.Proofs.Model.Loaded
import NativeBinding.Proofs.Module.Surface

/-! # Parameters without a value

No parameter is spelled `void`: such a list is empty or rejected. A typedef that ends at `void` is
not looked at there, so its name makes a parameter that carries no value.
-/

set_option autoImplicit false

namespace NativeBinding

open Header

namespace Resolver

variable {r : Resolver} {type t : TypeSpelling} {site : Site} {unsupported : TypeRef}

/-- The indirections of the types on a way, counted in full: all stars, and one for a reference. -/
def indirections (chain : List TypeSpelling) : Nat :=
  (chain.map (·.pointerDepth.toNat)).sum + if chain.any (·.isReference) then 1 else 0

/-- A type that leads to `void`, by a way with so many indirections. -/
def VoidUnder (r : Resolver) (type : TypeSpelling) (n : Nat) : Prop :=
  ∃ t links, r.typedef? t.base = none ∧ (type :: links).IsChain r.Leads ∧
    Combines (type :: links) t ∧ t.base = "void" ∧ t.arrayLength = none ∧
    indirections (type :: links) = n

theorem Combines.toNat_indirection {chain : List TypeSpelling} (h : Combines chain t) :
    (indirection t).toNat = indirections chain % 256 := by
  have hReference : t.isReference = chain.any (·.isReference) :=
    Bool.eq_iff_iff.mpr (h.isReference.trans List.any_eq_true.symm)
  rw [indirection, indirections, UInt8.toNat_add, h.pointerDepth, hReference]
  cases chain.any (·.isReference) <;> simp

theorem indirections_eq_zero_iff {chain : List TypeSpelling} : indirections chain = 0 ↔
    ∀ link ∈ chain, link.pointerDepth = 0 ∧ link.isReference = false := by
  induction chain with
  | nil => simp [indirections]
  | cons link chain ih =>
    rw [List.forall_mem_cons, ← ih, ← UInt8.toNat_inj]
    cases hReference : link.isReference <;> simp [indirections, hReference, add_assoc]

theorem meaning_eq_void_iff (hUnsupported : unsupported ≠ .void) :
    r.meaning unsupported t = .void ↔
      t.base = "void" ∧ indirection t = 0 ∧ t.arrayLength = none := by
  rw [meaning]
  cases t.arrayLength with
  | some n =>
    dsimp only
    split_ifs <;> simp [hUnsupported]
  | none =>
    dsimp only
    split_ifs with hNone hVoid
    · simpa [hNone] using hVoid
    · simpa [hNone] using hVoid
    · cases ScalarKind.ofSpelling? t.base <;> simp_all
    all_goals simp [*]

theorem resolve_eq_void_iff :
    r.resolve type site = .ok .void ↔ ∃ n, r.VoidUnder type n ∧ n % 256 = 0 := by
  have hUnsupported : TypeRef.unsupported type.render ≠ .void := nofun
  rw [resolve_eq_ok_iff]
  constructor
  · rintro ⟨t, ⟨hFinal, links, hChain, hCombines⟩, -, hMeaning⟩
    obtain ⟨hBase, hNone, hLength⟩ := (meaning_eq_void_iff hUnsupported).mp hMeaning
    refine ⟨_, ⟨t, links, hFinal, hChain, hCombines, hBase, hLength, rfl⟩, ?_⟩
    rw [← hCombines.toNat_indirection, hNone]
    rfl
  · rintro ⟨_, ⟨t, links, hFinal, hChain, hCombines, hBase, hLength, rfl⟩, hCount⟩
    refine ⟨t, ⟨hFinal, links, hChain, hCombines⟩, by simp [knows, hBase], ?_⟩
    have hNone : indirection t = 0 :=
      UInt8.toNat_inj.mp (hCombines.toNat_indirection.trans hCount)
    exact (meaning_eq_void_iff hUnsupported).mpr ⟨hBase, hNone, hLength⟩

/-- Without an indirection, only the name of a typedef leads to `void` if the type is not spelled so
itself. -/
theorem VoidUnder.typedef (h : r.VoidUnder type 0) (hSpelled : type.isVoid = false) :
    (r.typedef? type.base).isSome = true ∧ r.VoidUnder { base := type.base } 0 := by
  obtain ⟨t, links, hFinal, hChain, hCombines, hBase, hLength, hCount⟩ := h
  have hPlain := indirections_eq_zero_iff.mp hCount
  obtain ⟨hDepth, hReference⟩ := hPlain type List.mem_cons_self
  have hNoLength : type.arrayLength = none := by
    have hNone := hCombines.arrayLength
    rw [hLength, Option.toList_none, List.filterMap_eq_nil_iff] at hNone
    exact hNone type List.mem_cons_self
  let isConst := decide (∃ link ∈ links, link.isConst = true)
  cases links with
  | nil =>
    have hLast : type.base = t.base := Option.some.inj hCombines.base
    simp [TypeSpelling.isVoid, hLast.trans hBase, hDepth, hReference] at hSpelled
  | cons link links =>
    obtain ⟨⟨spelling, hTypedef, hParse⟩, hRest⟩ := List.isChain_cons_cons.mp hChain
    refine ⟨by rw [hTypedef]; rfl, { t with isConst }, link :: links, hFinal,
      List.isChain_cons_cons.mpr ⟨⟨spelling, hTypedef, hParse⟩, hRest⟩, ?_, hBase, hLength, ?_⟩
    · constructor
      · exact hCombines.base
      · simp [isConst]
      · rw [hCombines.isReference]
        simp [hReference]
      · rw [hCombines.pointerDepth]
        simp [hDepth]
      · rw [← hCombines.arrayLength]
        simp [hNoLength]
    · refine indirections_eq_zero_iff.mpr (List.forall_mem_cons.mpr ⟨⟨rfl, rfl⟩, ?_⟩)
      exact fun other hOther => hPlain other (List.mem_cons_of_mem _ hOther)

/-- A parameter as it is declared and as the model has it. -/
structure Reads (r : Resolver) (p : ParamSignature) (q : Param) : Prop where
  spelled : p.type.isVoid = false
  /-- Indirections are counted in an octet. -/
  void_iff : q.type = .void ↔ ∃ n, r.VoidUnder p.type n ∧ n % 256 = 0
  named : r.VoidUnder p.type 0 →
    ∃ d ∈ r.typedefs, d.1 = p.type.base ∧ r.VoidUnder { base := d.1 } 0

theorem reads_of_resolve {p : ParamSignature} {q : Param} (hSpelled : p.type.isVoid = false)
    (h : r.resolve p.type site = .ok q.type) : r.Reads p q := by
  refine ⟨hSpelled, ?_, fun hVoid => ?_⟩
  · have hResolve : r.resolve p.type site = .ok .void ↔ ∃ n, r.VoidUnder p.type n ∧ n % 256 = 0 :=
      resolve_eq_void_iff
    rw [← hResolve, h, Except.ok.injEq]
  · obtain ⟨hTypedef, hBare⟩ := hVoid.typedef hSpelled
    obtain ⟨d, hd, hName⟩ := typedef?_isSome_iff.mp hTypedef
    exact ⟨d, hd, hName, hName ▸ hBare⟩

end Resolver

namespace Header

theorem splitFrom_ne_nil {delimiter : Char} {depth : Int} {quote : Option Char}
    {part text : List Char} : splitFrom delimiter depth quote part text ≠ [] := by
  induction text generalizing depth quote part with
  | nil => exact List.cons_ne_nil _ _
  | cons c text ih =>
    rw [splitFrom_step]
    split_ifs
    · exact List.cons_ne_nil _ _
    · exact ih

theorem readParams_empty_iff {text : List Char} {params : List ParamSignature}
    (h : readParams text = .ok params) :
    params = [] ↔ Text.trim text ∈ [[], "void".toList] := by
  have hEmpty : ((Text.trim text).isEmpty || String.ofList (Text.trim text) == "void") = true ↔
      Text.trim text ∈ [[], "void".toList] := by
    have hVoid : String.ofList (Text.trim text) = "void" ↔ Text.trim text = "void".toList := by
      rw [← String.toList_inj, String.toList_ofList]
    simp [hVoid]
  rw [← hEmpty]
  unfold readParams at h
  dsimp only at h
  split at h
  · rename_i hHere
    cases h
    simp [hHere]
  · rename_i hOther
    refine ⟨fun hNil => ?_, fun hHere => absurd hHere hOther⟩
    have hLength := (mapM_eq_ok_iff.mp h).length_eq
    rw [hNil, List.length_nil, List.length_eq_zero_iff] at hLength
    exact absurd hLength splitFrom_ne_nil

end Header

/-- The parameters of a method, and the text that declares them. -/
structure MethodDecl.Lists (m : MethodDecl) (r : Resolver) (text : String) (s : MethodSignature) :
    Prop where
  parsed : MethodSignature.parse text = .ok s
  empty_iff : ∃ inner, paramText? text = some inner ∧
    (m.params = [] ↔ Text.trim inner ∈ [[], "void".toList])
  params : List.Forall₂ r.Reads s.params m.params

/-- The parameters that carry a value. -/
def MethodDecl.valueParams (m : MethodDecl) : List Param :=
  m.params.filter fun p => p.type != .void

/-- A trampoline takes the parameters of a declared method, and counts the values that it carries
only if each of them carries one. -/
structure Trampoline.Counts (t : Trampoline) (model : Model) (m : MethodDecl) : Prop where
  declared : ∃ c ∈ model.classes, m ∈ c.methods
  takes : t.Declared m
  arity_iff : t.arity = m.valueParams.length ↔ ∀ p ∈ m.params, p.type ≠ .void

theorem Trampoline.Declared.arity_iff {t : Trampoline} {m : MethodDecl} (h : t.Declared m) :
    t.arity = m.valueParams.length ↔ ∀ p ∈ m.params, p.type ≠ .void := by
  have hArity : t.arity = m.params.length := by
    rw [← h.params, List.length_map]
    rfl
  rw [hArity, MethodDecl.valueParams, eq_comm, List.length_filter_eq_length_iff]
  simp

namespace DeclarationFile

variable {file : DeclarationFile} {model : Model} {r : Resolver} {className text : String}
  {m : MethodDecl}

theorem lists_of_read {s : MethodSignature} (hParse : MethodSignature.parse text = .ok s)
    (h : m.Read r className s) : m.Lists r text s := by
  have hLength : m.params.length = s.params.length := by
    rw [← h.params.length_eq, List.length_zipIdx]
  refine ⟨hParse, ?_, ?_⟩
  · obtain ⟨-, inner, hInner, hParams, -⟩ := MethodSignature.exists_readParts hParse
    refine ⟨inner, hInner, ?_⟩
    rw [← readParams_empty_iff hParams, ← List.length_eq_zero_iff, hLength,
      List.length_eq_zero_iff]
  · have hNames := (MethodSignature.names_of_parse hParse).2
    refine List.forall₂_iff_get.mpr ⟨hLength.symm, fun i hi hi' => ?_⟩
    have hParam := h.params.get (by rwa [List.length_zipIdx]) hi'
    simp only [List.get_eq_getElem, List.getElem_zipIdx] at hParam
    exact Resolver.reads_of_resolve (hNames _ (List.getElem_mem hi)).1 hParam.2.2

/-- In a file that loads, only a typedef that ends at `void` gives a parameter without a value; a
list spelled as `void` is empty. A trampoline counts such a parameter. -/
theorem void_params (h : file.toModel = .ok model) :
    List.Forall₂ (fun entry c => List.Forall₂ (fun text m => ∃ s, m.Lists file.resolver text s)
        entry.methods c.methods) file.classes model.classes ∧
      ∀ (g : Generator) (c : ClassDecl) (b : ClassBinding), g.model = model →
        c ∈ model.classes → g.generate c = .ok b →
          ∀ t ∈ b.trampolines, ∃ m, t.Counts model m := by
  constructor
  · refine (classes_of_toModel h).imp fun entry c hClass => hClass.methods.imp ?_
    rintro text m ⟨s, hParse, hRead⟩
    exact ⟨s, lists_of_read hParse hRead⟩
  · intro g c b hModel hc hGenerate t ht
    obtain ⟨m, hm, hDeclared⟩ := Generator.declared_of_generate hGenerate ht
    rw [hModel] at hm
    exact ⟨m, Model.declares_allMethods hc m hm, hDeclared, hDeclared.arity_iff⟩

def desk : DeclarationFile where
  library := { name := "desk" }
  typedefs := [("Empty", "void"), ("Nothing", "const Empty")]
  classes :=
    [{ name := "Api"
       methods :=
        ["virtual int Stop(void);", "virtual int Ask(Nothing);",
          "virtual void Put(int n, Empty x);"] }]

def deskModel : Model where
  library := { name := "desk" }
  classes :=
    [{ name := "Api"
       methods :=
        [{ name := "Stop", returnType := .scalar .i32, isVirtual := true },
          { name := "Ask", params := [⟨"arg0", .void, none⟩], returnType := .scalar .i32
            isVirtual := true },
          { name := "Put", params := [⟨"n", .scalar .i32, none⟩, ⟨"x", .void, none⟩]
            isVirtual := true }] }]

theorem toModel_desk : desk.toModel = .ok deskModel := by decide +kernel

theorem void_params_sample :
    desk.toModel = .ok deskModel ∧ ∃ g, Generator.new deskModel {} = .ok g ∧
      ∀ c ∈ deskModel.classes, ∃ b, g.generate c = .ok b ∧
        b.trampolines.map (·.arity) = [0, 1, 2] ∧
        ∀ t ∈ b.trampolines, ∃ m, t.Counts deskModel m := by
  obtain ⟨g, hNew⟩ : ∃ g, Generator.new deskModel {} = .ok g := ⟨_, rfl⟩
  have hModel : g.model = deskModel := by
    cases hNew
    rfl
  refine ⟨toModel_desk, g, hNew, fun c hc => ?_⟩
  obtain ⟨b, hGenerate, hArities⟩ : ∃ b, g.generate c = .ok b ∧
      b.trampolines.map (·.arity) = [0, 1, 2] := by
    obtain rfl := List.mem_singleton.mp hc
    cases hNew
    exact ⟨_, rfl, rfl⟩
  exact ⟨b, hGenerate, hArities, (void_params toModel_desk).2 g c b hModel hc hGenerate⟩

/-- A file loads although it has parameters without a value. -/
theorem void_params_kept : ∃ model, desk.toModel = .ok model ∧
    ∃ c ∈ model.classes, ∃ m ∈ c.methods, ∃ p ∈ m.params, p.type = .void :=
  ⟨deskModel, toModel_desk, _, .head _, _, .tail _ (.head _), _, .head _, rfl⟩

end DeclarationFile

end NativeBinding
