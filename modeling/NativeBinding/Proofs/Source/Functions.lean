import NativeBinding.Proofs.Binding.Declared
import NativeBinding.Proofs.Model.Loaded
import NativeBinding.Proofs.Module.Surface
import NativeBinding.Proofs.Source.Naming

/-! # Functions in generated source

The source of a class that is no interface has one function for each trampoline. Its parameters are
the module or the object, and then those of the method if it takes any. The methods of a class have
different names, but the functions may not: names are compared neither with each other once they are
in lower case, nor with the words that cannot stand as a name.
-/

set_option autoImplicit false

namespace NativeBinding

open Source

namespace Source

/-- What a function has as its first parameter. -/
inductive Receiver where
  | module
  | object
  deriving DecidableEq

namespace Receiver

def name : Receiver → String
  | module => "module"
  | object => "self"

def opening : Receiver → String
  | module => "(module: &LoadedModule"
  | object => "(&self"

end Receiver

/-- A function that generated source defines, with the names and the types of its parameters. -/
structure Function where
  name : String
  receiver : Receiver
  params : List (String × String)
  result : String

namespace Function

def signature (f : Function) : String :=
  f.name ++ f.receiver.opening ++
    String.join (f.params.map fun p => ", " ++ p.1 ++ ": " ++ p.2) ++ ")"

def head (f : Function) : String :=
  "    pub fn " ++ f.signature ++ " -> " ++ f.result ++ " \x7b"

structure WellNamed (f : Function) : Prop where
  name : Legal f.name
  params : ∀ p ∈ f.params, Legal p.1
  distinct : (f.receiver.name :: f.params.map Prod.fst).Nodup

end Function

def isHead (line : String) : Bool :=
  "    pub fn ".toList.isPrefixOf line.toList

end Source

namespace Trampoline

def receiver (t : Trampoline) : Receiver :=
  match t.kind with
  | .constructor => .module
  | .static => .module
  | _ => .object

/-- The parameters that stand for those of the method. -/
def valueParams (t : Trampoline) : List ParamBinding :=
  match t.kind with
  | .register _ => []
  | .init => []
  | .release => []
  | _ => t.params

/-- The parameters with a name of their own. -/
def ownParams (t : Trampoline) : List (String × String) :=
  match t.kind with
  | .register _ => [("spi", "&SpiObject")]
  | _ => []

def result (t : Trampoline) : String :=
  match t.kind with
  | .constructor => "Result<Self, CallError>"
  | .static => "Result<Value, CallError>"
  | .call => "Result<Value, CallError>"
  | _ => "Result<(), CallError>"

/-- The function of a trampoline. -/
def function (t : Trampoline) : Function where
  name := Source.identifier t.name
  receiver := t.receiver
  params := t.valueParams.map (fun p => (p.identifier, "Value")) ++ t.ownParams
  result := t.result

/-- What the native names have to be for a function that is well named. -/
structure WellSpelled (t : Trampoline) : Prop where
  name : Spellable t.name
  params : ∀ p ∈ t.valueParams, Spellable p.name
  module : t.receiver = .module → ∀ p ∈ t.valueParams, nameWords p.name ≠ nameWords "module"
  distinct : (t.valueParams.map fun p => nameWords p.name).Nodup

instance (t : Trampoline) : Decidable t.WellSpelled :=
  decidable_of_iff (Spellable t.name ∧ (∀ p ∈ t.valueParams, Spellable p.name) ∧
      (t.receiver = .module → ∀ p ∈ t.valueParams, nameWords p.name ≠ nameWords "module") ∧
      (t.valueParams.map fun p : ParamBinding => nameWords p.name).Nodup)
    ⟨fun h => ⟨h.1, h.2.1, h.2.2.1, h.2.2.2⟩, fun h => ⟨h.1, h.2, h.3, h.4⟩⟩

end Trampoline

namespace ClassBinding

def functions (b : ClassBinding) : List Source.Function :=
  b.trampolines.map (·.function)

/-- The functions of a class are well named and have names of their own. -/
structure WellNamed (b : ClassBinding) : Prop where
  functions : ∀ f ∈ b.functions, f.WellNamed
  distinct : (b.functions.map (·.name)).Nodup

/-- What the native names have to be for that. -/
structure WellSpelled (b : ClassBinding) : Prop where
  trampolines : ∀ t ∈ b.trampolines, t.WellSpelled
  distinct : (b.trampolines.map fun t => nameWords t.name).Nodup

instance (b : ClassBinding) : Decidable b.WellSpelled :=
  decidable_of_iff ((∀ t ∈ b.trampolines, t.WellSpelled) ∧
      (b.trampolines.map fun t : Trampoline => nameWords t.name).Nodup)
    ⟨fun h => ⟨h.1, h.2⟩, fun h => ⟨h.1, h.2⟩⟩

end ClassBinding

section Heads

section Leads

variable {lead : String} (h : ("    pub fn ".toList.isPrefixOf lead.toList ||
  lead.toList.isPrefixOf "    pub fn ".toList) = false)

include h

theorem isHead_append (text : String) : isHead (lead ++ text) = false := by
  rw [Bool.or_eq_false_iff] at h
  by_contra hHead
  rw [Bool.not_eq_false, isHead, String.toList_append, List.isPrefixOf_iff_prefix] at hHead
  have hLead : lead.toList <+: lead.toList ++ text.toList := List.prefix_append _ _
  rcases List.prefix_or_prefix_of_prefix hHead hLead with hMark | hMark
  · rw [← List.isPrefixOf_iff_prefix, h.1] at hMark
    cases hMark
  · rw [← List.isPrefixOf_iff_prefix, h.2] at hMark
    cases hMark

theorem isHead_around (text after : String) : isHead (lead ++ text ++ after) = false := by
  have hLine := isHead_append h (text ++ after)
  rwa [← String.append_assoc] at hLine

end Leads

theorem isHead_head (f : Function) : isHead f.head = true := by
  have hLine : f.head = "    pub fn " ++ (f.signature ++ " -> " ++ f.result ++ " \x7b") := by
    delta Function.head
    simp only [String.append_assoc]
  have hChars := (congrArg String.toList hLine).trans String.toList_append
  exact List.isPrefixOf_iff_prefix.mpr ⟨_, hChars.symm⟩

theorem filter_functionLines (f : Function) (body : String) :
    (functionLines f.signature f.result body).filter isHead = [f.head] := by
  have hLines : functionLines f.signature f.result body =
      [f.head, "        " ++ body, "    \x7d"] := rfl
  have hBody : isHead ("        " ++ body) = false := isHead_append (by decide) body
  have hEnd : isHead "    \x7d" = false := by decide
  simp [hLines, isHead_head, hBody, hEnd]

theorem filter_comment (text : String) (rest : List String) :
    (["", "    /// `" ++ text] ++ rest).filter isHead = rest.filter isHead := by
  have hComment : isHead ("    /// `" ++ text) = false := isHead_append (by decide) text
  have hBlank : isHead "" = false := by decide
  simp [hComment, hBlank]

theorem valueParams_eq (params : List ParamBinding) : valueParams params =
    String.join ((params.map fun p => (p.identifier, "Value")).map fun p =>
      ", " ++ p.1 ++ ": " ++ p.2) := by
  have hEach (name : String) : ", " ++ name ++ ": Value" = ", " ++ name ++ ": " ++ "Value" := by
    have hType : ": Value" = ": " ++ "Value" := by decide
    rw [hType, ← String.append_assoc]
  simp only [valueParams, List.map_map, Function.comp_def, hEach]

variable {t : Trampoline}

theorem signature_function (hOwn : t.ownParams = []) : t.function.signature =
    Source.identifier t.name ++ t.receiver.opening ++ valueParams t.valueParams ++ ")" := by
  rw [Function.signature, Trampoline.function, hOwn, List.append_nil, valueParams_eq]

theorem filter_constructorLines (h : t.kind = .constructor) :
    (constructorLines t).filter isHead = [t.function.head] := by
  have hSignature : t.function.signature =
      Source.identifier t.name ++ "(module: &LoadedModule" ++ valueParams t.params ++ ")" := by
    rw [signature_function (by rw [Trampoline.ownParams, h])]
    rw [Trampoline.receiver, Trampoline.valueParams, h]
    rfl
  have hResult : t.function.result = "Result<Self, CallError>" := by
    rw [Trampoline.function, Trampoline.result, h]
  rw [constructorLines, String.append_assoc, filter_comment, ← hSignature, ← hResult,
    filter_functionLines]

theorem signature_own (hValues : t.valueParams = []) {ending : String}
    (hEnding : t.receiver.opening ++
      (String.join (t.ownParams.map fun p => ", " ++ p.1 ++ ": " ++ p.2) ++ ")") = ending) :
    t.function.signature = Source.identifier t.name ++ ending := by
  rw [Function.signature, Trampoline.function, hValues, List.map_nil, List.nil_append,
    String.append_assoc, String.append_assoc, hEnding]

theorem bodyLines_eq (h : t.kind ≠ .constructor) :
    ∃ body, bodyLines t = functionLines t.function.signature t.function.result body := by
  have hResult : t.function.result = t.result := rfl
  rw [hResult]
  unfold bodyLines
  dsimp only
  cases hKind : t.kind with
  | constructor => exact absurd hKind h
  | static =>
    rw [signature_function (by rw [Trampoline.ownParams, hKind]), Trampoline.receiver,
      Trampoline.valueParams, Trampoline.result, hKind]
    exact ⟨_, rfl⟩
  | call =>
    rw [signature_function (by rw [Trampoline.ownParams, hKind]), Trampoline.receiver,
      Trampoline.valueParams, Trampoline.result, hKind]
    exact ⟨_, rfl⟩
  | register name =>
    have hSignature : t.function.signature =
        Source.identifier t.name ++ "(&self, spi: &SpiObject)" := by
      refine signature_own (by rw [Trampoline.valueParams, hKind]) ?_
      rw [Trampoline.receiver, Trampoline.ownParams, hKind]
      dsimp only
      decide
    rw [hSignature, Trampoline.result, hKind]
    exact ⟨_, rfl⟩
  | init =>
    have hSignature : t.function.signature = Source.identifier t.name ++ "(&self)" := by
      refine signature_own (by rw [Trampoline.valueParams, hKind]) ?_
      rw [Trampoline.receiver, Trampoline.ownParams, hKind]
      decide
    rw [hSignature, Trampoline.result, hKind]
    exact ⟨_, rfl⟩
  | release =>
    have hSignature : t.function.signature = Source.identifier t.name ++ "(&self)" := by
      refine signature_own (by rw [Trampoline.valueParams, hKind]) ?_
      rw [Trampoline.receiver, Trampoline.ownParams, hKind]
      decide
    rw [hSignature, Trampoline.result, hKind]
    exact ⟨_, rfl⟩

theorem filter_methodLines (h : t.kind ≠ .constructor) :
    (methodLines t).filter isHead = [t.function.head] := by
  obtain ⟨body, hBody⟩ := bodyLines_eq h
  rw [methodLines, String.append_assoc, filter_comment, hBody, filter_functionLines]

theorem filter_skippedLines (skipped : List SkippedMethod) :
    (skippedLines skipped).filter isHead = [] := by
  have hEach (s : SkippedMethod) :
      ["", "    // skipped " ++ s.name ++ ": " ++ s.reason].filter isHead = [] := by
    have hLine : isHead ("    // skipped " ++ s.name ++ (": " ++ s.reason)) = false :=
      isHead_around (by decide) _ _
    rw [← String.append_assoc] at hLine
    have hBlank : isHead "" = false := by decide
    simp [hLine, hBlank]
  rw [skippedLines, List.filter_flatMap, List.flatMap_eq_nil_iff]
  exact fun s _ => hEach s

theorem filter_flatMap_heads {ts : List Trampoline} {linesOf : Trampoline → List String}
    (h : ∀ t ∈ ts, (linesOf t).filter isHead = [t.function.head]) :
    (ts.flatMap linesOf).filter isHead = ts.map (·.function.head) := by
  rw [List.filter_flatMap]
  induction ts with
  | nil => rfl
  | cons t ts ih =>
    rw [List.forall_mem_cons] at h
    rw [List.flatMap_cons, List.map_cons, h.1, ih h.2]
    rfl

theorem filter_apiLines {b : ClassBinding}
    (hConstructors : ∀ t ∈ b.constructors, t.kind = .constructor)
    (hMethods : ∀ t ∈ b.methods, t.kind ≠ .constructor) :
    (apiLines b).filter isHead = b.trampolines.map (·.function.head) := by
  have hComment : isHead ("/// Wrapper for native class `" ++ b.className ++ "`.") = false :=
    isHead_around (by decide) _ _
  have hStruct : isHead ("pub struct " ++ b.exposedName ++ "(pub ApiObject);") = false :=
    isHead_around (by decide) _ _
  have hImpl : isHead ("impl " ++ b.exposedName ++ " \x7b") = false :=
    isHead_around (by decide) _ _
  have hNative : isHead (nativeNameLine b.className) = false :=
    isHead_around (by decide +kernel) _ _
  have hBlank : isHead "" = false := by decide
  have hEnd : isHead "\x7d" = false := by decide
  simp only [apiLines, List.filter_append, filter_skippedLines,
    filter_flatMap_heads fun t ht => filter_constructorLines (hConstructors t ht),
    filter_flatMap_heads fun t ht => filter_methodLines (hMethods t ht)]
  simp [hComment, hStruct, hImpl, hNative, hBlank, hEnd, ClassBinding.trampolines]

end Heads

section Names

variable {t : Trampoline}

theorem nodup_identifier_iff {α : Type} {items : List α} {nameOf : α → String}
    (h : ∀ x ∈ items, Text.isQualifiedName (nameOf x) = true) :
    (items.map fun x => Source.identifier (nameOf x)).Nodup ↔
      (items.map fun x => nameWords (nameOf x)).Nodup := by
  simp only [List.Nodup, List.pairwise_map]
  exact List.Pairwise.iff_of_mem fun ha hb => not_congr (identifier_eq_iff (h _ ha) (h _ hb))

theorem ownParams_cases (t : Trampoline) : t.ownParams = [] ∨
    t.valueParams = [] ∧ t.receiver = .object ∧ t.ownParams = [("spi", "&SpiObject")] := by
  unfold Trampoline.ownParams Trampoline.valueParams Trampoline.receiver
  cases t.kind <;> simp

theorem name_function (t : Trampoline) : t.function.name = Source.identifier t.name := by
  delta Trampoline.function
  rfl

theorem params_function (t : Trampoline) : t.function.params.map Prod.fst =
    t.valueParams.map ParamBinding.identifier ++ t.ownParams.map Prod.fst := by
  simp [Trampoline.function, Function.comp_def]

theorem legal_own : ∀ p ∈ t.ownParams, Legal p.1 := by
  rcases ownParams_cases t with hNone | ⟨-, -, hOwn⟩
  · rw [hNone]
    exact List.forall_mem_nil _
  · rw [hOwn]
    exact List.forall_mem_singleton.mpr (.plain (by decide) (by decide))

theorem not_legal_self : ¬ Legal "self" := by
  intro hLegal
  generalize hSelf : "self" = name at hLegal
  cases hLegal with
  | plain hIdentifier hFree => exact hFree (hSelf ▸ by decide)
  | raw =>
    have hFirst := congrArg (fun text => text.toList.head?) hSelf
    simp at hFirst

section Params

variable (hParams : ∀ p ∈ t.valueParams, Text.isQualifiedName p.name = true)

include hParams

theorem distinct_function_iff :
    (t.function.receiver.name :: t.function.params.map Prod.fst).Nodup ↔
      (∀ p ∈ t.valueParams, p.identifier ≠ t.receiver.name) ∧
        (t.valueParams.map fun p => nameWords p.name).Nodup := by
  have hWords := nodup_identifier_iff hParams
  have hReceiver : t.function.receiver = t.receiver := rfl
  rw [params_function, hReceiver]
  rcases ownParams_cases t with hNone | ⟨hValues, hObject, hOwn⟩
  · rw [hNone, List.map_nil, List.append_nil, List.nodup_cons]
    delta ParamBinding.identifier
    refine and_congr ?_ hWords
    simp [List.mem_map]
  · rw [hValues, hObject, hOwn]
    exact iff_of_true (by decide) ⟨List.forall_mem_nil _, List.nodup_nil⟩

/-- The function of a trampoline is well named if the native names are spelled for it. -/
theorem wellNamed_function_iff (hName : Text.isQualifiedName t.name = true) :
    t.function.WellNamed ↔ t.WellSpelled := by
  have hModule (p : ParamBinding) (hp : p ∈ t.valueParams) :
      p.identifier = "module" ↔ nameWords p.name = nameWords "module" := by
    have hSame : Source.identifier "module" = "module" := by decide
    have hQualified : Text.isQualifiedName "module" = true := by decide
    rw [← identifier_eq_iff (hParams p hp) hQualified, hSame]
    delta ParamBinding.identifier
    exact Iff.rfl
  have hSpelling (p : ParamBinding) (hp : p ∈ t.valueParams) :
      Legal p.identifier ↔ Spellable p.name := by
    delta ParamBinding.identifier
    exact legal_identifier_iff (hParams p hp)
  constructor
  · rintro ⟨hLegal, hEach, hDistinct⟩
    rw [name_function, legal_identifier_iff hName] at hLegal
    obtain ⟨hReceiver, hWords⟩ := (distinct_function_iff hParams).mp hDistinct
    refine ⟨hLegal, fun p hp => ?_, fun hKind p hp => ?_, hWords⟩
    · refine (hSpelling p hp).mp (hEach (p.identifier, "Value") ?_)
      exact List.mem_append_left _ (List.mem_map_of_mem hp)
    · intro hSame
      refine hReceiver p hp ?_
      rw [hKind]
      exact (hModule p hp).mpr hSame
  · rintro ⟨hSpelled, hEach, hOther, hWords⟩
    have hLegal (p : ParamBinding) (hp : p ∈ t.valueParams) : Legal p.identifier :=
      (hSpelling p hp).mpr (hEach p hp)
    rw [← legal_identifier_iff hName, ← name_function] at hSpelled
    refine ⟨hSpelled, ?_, (distinct_function_iff hParams).mpr ⟨fun p hp hSame => ?_, hWords⟩⟩
    · rw [Trampoline.function, List.forall_mem_append, List.forall_mem_map]
      exact ⟨hLegal, legal_own⟩
    · cases hKind : t.receiver with
      | module =>
        rw [hKind] at hSame
        exact hOther hKind p hp ((hModule p hp).mp hSame)
      | object =>
        rw [hKind] at hSame
        have hSelf := hLegal p hp
        rw [hSame] at hSelf
        exact not_legal_self hSelf

end Params

end Names

namespace Generator

variable {g : Generator} {c : ClassDecl} {b : ClassBinding} {t : Trampoline}

theorem mem_params_of_valueParams {p : ParamBinding} (hp : p ∈ t.valueParams) : p ∈ t.params := by
  unfold Trampoline.valueParams at hp
  split at hp
  · cases hp
  · cases hp
  · cases hp
  · exact hp

theorem filter_apiLines_of_generate (h : g.generate c = .ok b) :
    (apiLines b).filter isHead = b.functions.map (·.head) := by
  have hLawful := lawful_of_generate h
  rw [filter_apiLines (fun t ht => (hLawful.constructors t ht).1)
    fun t ht => (hLawful.methods t ht).1, ClassBinding.functions, List.map_map]
  rfl

/-- The methods of a binding have different names, whatever is made of them. -/
theorem nodup_trampolines (h : g.generate c = .ok b) (hOther : c.isInterface = false) :
    (b.trampolines.map (·.name)).Nodup := by
  have hConserves := conserves_of_generate h
  have hOnce := (hConserves.ordinary hOther).2.once.nodup_iff.mpr hConserves.distinct
  rw [ClassBinding.trampolines, List.map_append]
  simp only [List.flatten_cons, ← List.append_assoc] at hOnce
  exact hOnce.of_append_left.of_append_left

end Generator

namespace DeclarationFile

variable {file : DeclarationFile} {model : Model} {g : Generator} {c : ClassDecl} {b : ClassBinding}

/-- The functions of a class are those of its methods, which have different names. They are well
named only if these names are spelled for it. -/
theorem function_names (h : file.toModel = .ok model) (hModel : g.model = model)
    (hc : c ∈ model.classes) (hOther : c.isInterface = false) (hGenerate : g.generate c = .ok b) :
    b.source = lines (apiLines b) ∧
    (apiLines b).filter isHead = b.functions.map (·.head) ∧
    (b.trampolines.map (·.name)).Nodup ∧
    (b.WellNamed ↔ b.WellSpelled) := by
  have hSource : b.source = lines (apiLines b) := by
    rw [Generator.source_of_generate hGenerate, ClassBinding.render,
      (Generator.names_of_generate hGenerate).2.2, hOther]
    rfl
  have hNames (t : Trampoline) (ht : t ∈ b.trampolines) : Text.isQualifiedName t.name = true ∧
      ∀ p ∈ t.valueParams, Text.isQualifiedName p.name = true := by
    obtain ⟨m, hm, hDeclared⟩ := Generator.declared_of_generate hGenerate ht
    rw [hModel] at hm
    obtain ⟨d, hd, hMethod⟩ := Model.declares_allMethods hc m hm
    obtain ⟨hName, hParams⟩ := names_of_toModel h hd hMethod
    refine ⟨hDeclared.name ▸ hName, fun p hp => hParams p.declared ?_⟩
    rw [← hDeclared.params]
    exact List.mem_map_of_mem (Generator.mem_params_of_valueParams hp)
  refine ⟨hSource, Generator.filter_apiLines_of_generate hGenerate,
    Generator.nodup_trampolines hGenerate hOther, ?_⟩
  have hDistinct := nodup_identifier_iff fun t ht => (hNames t ht).1
  have hFunctions : b.functions.map (·.name) =
      b.trampolines.map fun t => Source.identifier t.name := by
    simp only [ClassBinding.functions, List.map_map, Function.comp_def, name_function]
  have hEach (t : Trampoline) (ht : t ∈ b.trampolines) : t.function.WellNamed ↔ t.WellSpelled :=
    wellNamed_function_iff (hNames t ht).2 (hNames t ht).1
  constructor
  · rintro ⟨hWellNamed, hNodup⟩
    refine ⟨fun t ht => (hEach t ht).mp (hWellNamed _ (List.mem_map_of_mem ht)), ?_⟩
    exact hDistinct.mp (hFunctions ▸ hNodup)
  · rintro ⟨hSpelled, hNodup⟩
    refine ⟨List.forall_mem_map.mpr fun t ht => (hEach t ht).mpr (hSpelled t ht), ?_⟩
    rw [hFunctions]
    exact hDistinct.mpr hNodup

/-- A file with one class that is spelled well, and one with two methods of the same words and a
parameter that cannot have its name. -/
def bazaar : DeclarationFile where
  library := { name := "bazaar" }
  classes :=
    [{ name := "Stall", methods := ["static Stall *Make(int type, int);"] },
      { name := "Board", methods := ["int GetX();", "int getX(int crate);"] }]

def stall : ClassDecl where
  name := "Stall"
  methods :=
    [{ name := "Make", params := [⟨"type", .scalar .i32, none⟩, ⟨"arg1", .scalar .i32, none⟩]
       returnType := .object "Stall", isStatic := true }]

def board : ClassDecl where
  name := "Board"
  methods :=
    [{ name := "GetX", returnType := .scalar .i32 },
      { name := "getX", params := [⟨"crate", .scalar .i32, none⟩], returnType := .scalar .i32 }]

def bazaarModel : Model where
  library := { name := "bazaar" }
  classes := [stall, board]

theorem toModel_bazaar : bazaar.toModel = .ok bazaarModel := by decide +kernel

theorem function_names_sample :
    bazaar.toModel = .ok bazaarModel ∧ ∃ g, Generator.new bazaarModel {} = .ok g ∧
      ∃ b, g.generate stall = .ok b ∧ b.WellNamed ∧
        b.functions.map (·.name) = ["make"] := by
  obtain ⟨g, hNew⟩ : ∃ g, Generator.new bazaarModel {} = .ok g := ⟨_, rfl⟩
  have hModel : g.model = bazaarModel := by
    cases hNew
    rfl
  obtain ⟨b, hGenerate, hSpelled, hFunctions⟩ : ∃ b, g.generate stall = .ok b ∧
      b.WellSpelled ∧ b.functions.map (·.name) = ["make"] := by
    cases hNew
    exact ⟨_, rfl, by decide, by decide⟩
  have hNames := function_names toModel_bazaar hModel (by decide) rfl hGenerate
  exact ⟨toModel_bazaar, g, hNew, b, hGenerate, hNames.2.2.2.mpr hSpelled, hFunctions⟩

/-- Two functions have the same name, and a parameter has one that does not exist. -/
theorem function_names_clash :
    bazaar.toModel = .ok bazaarModel ∧ ∃ g, Generator.new bazaarModel {} = .ok g ∧
      ∃ b, g.generate board = .ok b ∧ b.functions.map (·.name) = ["get_x", "get_x"] ∧
        b.functions.flatMap (·.params) = [("r#crate", "Value")] ∧ ¬ b.WellNamed :=
  ⟨toModel_bazaar, _, rfl, _, rfl, by decide, by decide, fun h => absurd h.distinct (by decide)⟩

end DeclarationFile

end NativeBinding
