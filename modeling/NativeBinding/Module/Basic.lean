import NativeBinding.Binding.Generate

/-! # Modules

An assembled module: records and classes in declaration order and constants in name order, under
exposed names that are pairwise distinct. `assemble` decides from the bindings alone, so their order
does not matter.
-/

set_option autoImplicit false

namespace NativeBinding

structure Module where
  name : String
  library : LibraryInfo
  modelFingerprint : String
  records : List RecordBinding
  classes : List ClassBinding
  constants : List ConstantBinding
  deriving DecidableEq, Inhabited

namespace Module

/-- A class by its native or its exposed name; the first that has either. -/
def findClass? (m : Module) (name : String) : Option ClassBinding :=
  m.classes.find? fun c => c.className == name || c.exposedName == name

/-- A record by its native or its exposed name; the first that has either. -/
def findRecord? (m : Module) (name : String) : Option RecordBinding :=
  m.records.find? fun r => r.structName == name || r.exposedName == name

def findConstant? (m : Module) (name : String) : Option ConstantBinding :=
  m.constants.find? fun c => c.name == name

/-- The names that every module defines for itself. -/
def ownItems : List String :=
  ["MODULE_NAME", "MODEL_FINGERPRINT", "RECORDS", "CLASSES", "SURFACE_JSON"]

/-- The exposed names in definition order, each with the native name it stands for. -/
def exposedNames (m : Module) : List (String × String) :=
  m.records.map (fun r => (r.exposedName, r.structName)) ++
    m.classes.map (fun c => (c.exposedName, c.className)) ++
    m.constants.map (fun c => (c.name, c.name))

def isItemName (name : String) : Bool :=
  Text.isIdentifier name && !Source.unspellable.contains name

/-- Takes exposed names in order. `taken` maps the names that are in use to their owners. -/
def checkNames : List (String × String) → List (String × String) → Except GenError Unit
  | _, [] => pure ()
  | taken, (exposed, native) :: rest =>
    if !isItemName exposed then .error (.exposedName exposed native)
    else
      match taken.find? fun t => t.1 == exposed with
      | some t => .error (.duplicateName exposed t.2 native)
      | none => checkNames ((exposed, native) :: taken) rest

/-- Sorts by a declaration position; what shares a position keeps its order. -/
def sortByPosition {α : Type} (position : α → Option Nat) (items : List α) : List α :=
  items.mergeSort fun a b => (position a).getD 0 ≤ (position b).getD 0

private def requireDeclared {α : Type} (name : α → String) (isDeclared : String → Bool)
    (items : List α) : Except GenError Unit :=
  items.forM fun item =>
    if isDeclared (name item) then pure () else throw (.unknownSymbol (name item))

/-- Makes one module of bindings for declarations of a model. -/
def assemble (model : Model) (options : GeneratorOptions) (classes : List ClassBinding)
    (records : List RecordBinding) (constants : List ConstantBinding) : Except GenError Module := do
  let name ← options.moduleNameFor model.library.name
  requireDeclared (·.structName) model.declaresStruct records
  requireDeclared (·.className) model.declaresClass classes
  requireDeclared (·.name) (fun name => (model.findConstant? name).isSome) constants
  let m : Module :=
    { name
      library := model.library
      modelFingerprint := model.fingerprint
      records := sortByPosition (fun r => model.structPosition? r.structName) records
      classes := sortByPosition (fun c => model.classPosition? c.className) classes
      constants := Model.sortConstants constants }
  checkNames (ownItems.map (·, "module")) m.exposedNames
  pure m

/-- The module of bindings in their order, before its names are checked. -/
def arranged (model : Model) (name : String) (classes : List ClassBinding)
    (records : List RecordBinding) (constants : List ConstantBinding) : Module where
  name
  library := model.library
  modelFingerprint := model.fingerprint
  records := sortByPosition (fun r => model.structPosition? r.structName) records
  classes := sortByPosition (fun c => model.classPosition? c.className) classes
  constants := Model.sortConstants constants

private theorem requireDeclared_of_forall {α : Type} {name : α → String}
    {isDeclared : String → Bool} {items : List α}
    (h : ∀ item ∈ items, isDeclared (name item) = true) :
    requireDeclared name isDeclared items = .ok () := by
  induction items with
  | nil => rfl
  | cons item items ih =>
    have hRest := ih fun other hOther => h other (List.mem_cons_of_mem _ hOther)
    rw [requireDeclared] at hRest ⊢
    simp only [List.forM_eq_forM, List.forM_cons, h item List.mem_cons_self, if_true] at hRest ⊢
    exact hRest

/-- Of bindings for declarations of the model only the names are left to check. -/
theorem assemble_of_declared {model : Model} {classes : List ClassBinding}
    {records : List RecordBinding} {constants : List ConstantBinding}
    (hRecords : ∀ r ∈ records, model.declaresStruct r.structName = true)
    (hClasses : ∀ c ∈ classes, model.declaresClass c.className = true)
    (hConstants : ∀ c ∈ constants, (model.findConstant? c.name).isSome = true)
    (options : GeneratorOptions) :
    assemble model options classes records constants = (do
      let name ← options.moduleNameFor model.library.name
      let m := arranged model name classes records constants
      checkNames (ownItems.map (·, "module")) m.exposedNames
      pure m) := by
  rw [assemble, requireDeclared_of_forall hRecords, requireDeclared_of_forall hClasses,
    requireDeclared_of_forall hConstants]
  rfl

def generate (model : Model) (options : GeneratorOptions) : Except GenError Module := do
  let generator ← Generator.new model options
  let classes ← generator.generateClasses
  assemble model options classes generator.generateRecords generator.generateConstants

end Module

end NativeBinding
