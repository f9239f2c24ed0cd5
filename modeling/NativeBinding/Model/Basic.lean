import NativeBinding.Model.Declaration
import NativeBinding.Model.Error

/-! # The model of a native library

The accepted declarations of one library. `Model.new` accepts structs and classes with distinct
names, fixed-layout fields, references that resolve inside the model, no struct inside itself and no
class below itself; `Model.withConstants` adds constants in name order. The searches are bounded by
the number of declarations, which no path without a repetition exceeds.
-/

set_option autoImplicit false

namespace NativeBinding

structure Model where
  library : LibraryInfo
  structs : List StructDecl := []
  classes : List ClassDecl := []
  constants : List ConstDecl := []
  deriving DecidableEq, Inhabited

namespace Model

def findStruct? (m : Model) (name : String) : Option StructDecl :=
  m.structs.find? fun s => s.name == name

def findClass? (m : Model) (name : String) : Option ClassDecl :=
  m.classes.find? fun c => c.name == name

def findConstant? (m : Model) (name : String) : Option ConstDecl :=
  m.constants.find? fun c => c.name == name

def classPosition? (m : Model) (name : String) : Option Nat :=
  m.classes.findIdx? fun c => c.name == name

def structPosition? (m : Model) (name : String) : Option Nat :=
  m.structs.findIdx? fun s => s.name == name

def declaresStruct (m : Model) (name : String) : Bool :=
  (m.findStruct? name).isSome

def declaresClass (m : Model) (name : String) : Bool :=
  (m.findClass? name).isSome

/-- A class and its bases, the class first. -/
def baseChain (m : Model) : Nat → ClassDecl → List ClassDecl
  | 0, c => [c]
  | fuel + 1, c =>
    match c.base.bind m.findClass? with
    | some base => c :: baseChain m fuel base
    | none => [c]

/-- Replaces the method of the same name where it stands, or adds the method at the end. -/
def redeclare (m : MethodDecl) : List MethodDecl → List MethodDecl
  | [] => [m]
  | n :: rest => if n.name == m.name then m :: rest else n :: redeclare m rest

/-- The methods of a class with the inherited ones, those of the root base first. A redeclared
method stands where its base declared it. -/
def allMethods (m : Model) (c : ClassDecl) : List MethodDecl :=
  (m.baseChain m.classes.length c).reverse.foldl
    (fun methods d => d.methods.foldl (fun methods method => redeclare method methods) methods) []

def rejectModel {α : Type} (cause : ModelError) : Except DeclError α :=
  .error (.model cause)

def checkFields (structName : String) : List String → List FieldDecl → Except DeclError Unit
  | _, [] => pure ()
  | seen, f :: rest =>
    if seen.contains f.name then rejectModel (.duplicateField structName f.name)
    else if !f.type.isFixedLayout then rejectModel (.looseField structName f.name f.type)
    else checkFields structName (f.name :: seen) rest

def checkStructs : List String → List StructDecl → Except DeclError Unit
  | _, [] => pure ()
  | seen, s :: rest => do
    if seen.contains s.name then rejectModel (.duplicateStruct s.name)
    checkFields s.name [] s.fields
    checkStructs (s.name :: seen) rest

def checkMethods (className : String) : List String → List MethodDecl → Except DeclError Unit
  | _, [] => pure ()
  | seen, m :: rest =>
    if seen.contains m.name then rejectModel (.overloadedMethod className m.name)
    else checkMethods className (m.name :: seen) rest

def checkClasses (model : Model) : List String → List ClassDecl → Except DeclError Unit
  | _, [] => pure ()
  | seen, c :: rest => do
    if model.declaresStruct c.name then rejectModel (.structAndClass c.name)
    if seen.contains c.name then rejectModel (.duplicateClass c.name)
    checkMethods c.name [] c.methods
    checkClasses model (c.name :: seen) rest

def checkReference (m : Model) (type : TypeRef) (site : Site) : Except DeclError Unit :=
  match type with
  | .struct name => if m.declaresStruct name then pure () else .error (.unresolvedType name site)
  | .object name => if m.declaresClass name then pure () else .error (.unresolvedType name site)
  | _ => pure ()

def checkClosed (m : Model) : Except DeclError Unit := do
  m.structs.forM fun s =>
    s.fields.forM fun f => m.checkReference f.type (.field s.name f.name)
  m.classes.forM fun c =>
    c.methods.forM fun d => d.types.forM fun type => m.checkReference type (.method c.name d.name)

def containedStructs (m : Model) (s : StructDecl) : List StructDecl :=
  s.fields.filterMap fun f => f.type.structName?.bind m.findStruct?

/-- Searches below a struct. `path` holds the structs being searched, and the answer adds to
`finished` the names below which nothing contains itself. -/
def searchContainment (m : Model) :
    Nat → List String → List String → StructDecl → Except DeclError (List String)
  | 0, _, _, s => rejectModel (.selfContainment s.name)
  | fuel + 1, path, finished, s =>
    if finished.contains s.name then pure finished
    else if path.contains s.name then rejectModel (.selfContainment s.name)
    else do
      let finished ← (m.containedStructs s).foldlM
        (fun finished t => searchContainment m fuel (s.name :: path) finished t) finished
      pure (s.name :: finished)

def checkContainment (m : Model) : Except DeclError Unit := do
  let _ ← m.structs.foldlM
    (fun finished s => m.searchContainment (m.structs.length + 1) [] finished s) []

/-- Follows the bases from one class on; `seen` holds the names on the way. -/
def followBases (m : Model) (start : String) :
    Nat → List String → ClassDecl → Except DeclError Unit
  | 0, _, _ => rejectModel (.inheritanceCycle start)
  | fuel + 1, seen, c =>
    match c.base with
    | none => pure ()
    | some base =>
      match m.findClass? base with
      | none => rejectModel (.undeclaredBase c.name base)
      | some next =>
        if seen.contains next.name then rejectModel (.inheritanceCycle start)
        else followBases m start fuel (next.name :: seen) next

def checkBases (m : Model) : Except DeclError Unit :=
  m.classes.forM fun c => m.followBases c.name (m.classes.length + 1) [c.name] c

/-- Accepts structs and classes as a model without constants. -/
def new (library : LibraryInfo) (structs : List StructDecl) (classes : List ClassDecl) :
    Except DeclError Model := do
  let m : Model := { library, structs, classes }
  checkStructs [] structs
  m.checkClasses [] classes
  m.checkClosed
  m.checkContainment
  m.checkBases
  pure m

def checkDistinctConstants : List ConstDecl → Except DeclError Unit
  | a :: b :: rest =>
    if a.name == b.name then rejectModel (.duplicateConstant a.name)
    else checkDistinctConstants (b :: rest)
  | _ => pure ()

def checkConstant (m : Model) (c : ConstDecl) : Except DeclError Unit := do
  if !Text.isIdentifier c.name then rejectModel (.constantName c.name)
  if m.declaresStruct c.name || m.declaresClass c.name then rejectModel (.constantShadows c.name)
  if !c.value.isFinite then rejectModel (.constantNotFinite c.name)

/-- Constants in name order; those of one name keep their order. -/
def sortConstants (constants : List ConstDecl) : List ConstDecl :=
  constants.mergeSort fun a b => !decide (b.name < a.name)

def withConstants (m : Model) (constants : List ConstDecl) : Except DeclError Model := do
  let constants := sortConstants constants
  checkDistinctConstants constants
  constants.forM m.checkConstant
  pure { m with constants }

end Model

end NativeBinding
