import NativeBinding.Binding.Options
import NativeBinding.Source.Definition

/-! # Generating bindings

Each class of a model becomes a binding under a name filter. A class that is no interface gets one
trampoline for every method, static factories of the class itself as constructors; an interface gets
one slot for every hook that can be overridden. A method whose types cannot be carried stops
generation, or is skipped and reported.
-/

set_option autoImplicit false

namespace NativeBinding

/-- A model with the options and the filter it is generated under. -/
structure Generator where
  model : Model
  options : GeneratorOptions
  filter : SymbolFilter

namespace Generator

def new (model : Model) (options : GeneratorOptions) : Except GenError Generator := do
  pure { model, options, filter := ← options.compileFilter }

def generatesClass (g : Generator) (name : String) : Bool :=
  g.model.declaresClass name && !g.filter.isIgnored name

def generatesStruct (g : Generator) (name : String) : Bool :=
  g.model.declaresStruct name && !g.filter.isIgnored name

/-- The rule of one type. A handle is allowed for one class at most, and a struct must be generated
itself. -/
def rule (g : Generator) (allowedClass : Option String) (type : TypeRef) :
    Except TypeObstacle MarshalRule :=
  match MarshalRule.select? type with
  | none => .error (.noRule type)
  | some (.object name) =>
    if allowedClass = some name then .ok (.object name) else .error (.noRule type)
  | some (.struct name) =>
    if g.generatesStruct name then .ok (.struct name) else .error (.notGenerated type)
  | some rule => .ok rule

def param (g : Generator) (allowedClass : Option String) (p : Param) :
    Except TypeObstacle ParamBinding := do
  let rule ← g.rule allowedClass p.type
  pure { name := p.name, type := p.type, rule, default := p.default }

/-- A trampoline of a kind, with the classes that its parameters and its return may be. -/
def trampolineOf (g : Generator) (m : MethodDecl) (kind : TrampolineKind)
    (paramClass returnClass : Option String) : Except TypeObstacle Trampoline := do
  let params ← m.params.mapM (g.param paramClass)
  let returnRule ← g.rule returnClass m.returnType
  pure { name := m.name, kind, params, returnType := m.returnType, returnRule }

/-- The interface whose implementation a method registers: its only parameter is a handle to a
generated interface. -/
def registeredInterface? (g : Generator) (m : MethodDecl) : Option String :=
  match m.params with
  | [only] =>
    match only.type with
    | .object name =>
      if (g.model.findClass? name).any (·.isInterface) && g.generatesClass name then some name
      else none
    | _ => none
  | _ => none

def isFactory (c : ClassDecl) (m : MethodDecl) : Bool :=
  m.isStatic && m.returnType == .object c.name

/-- What a method of a class that is no interface becomes. -/
def trampoline (g : Generator) (c : ClassDecl) (m : MethodDecl) :
    Except TypeObstacle Trampoline :=
  if isFactory c m then g.trampolineOf m .constructor none (some c.name)
  else if m.isStatic then g.trampolineOf m .static none none
  else
    match g.registeredInterface? m with
    | some name => g.trampolineOf m (.register name) (some name) none
    | none =>
      let kind : TrampolineKind :=
        if m.name == "Init" && m.params.isEmpty then .init
        else if m.name == "Release" && m.params.isEmpty then .release
        else .call
      g.trampolineOf m kind none none

def slot (g : Generator) (m : MethodDecl) : Except TypeObstacle OverrideSlot := do
  let params ← m.params.mapM (g.param none)
  let returnRule ← g.rule none m.returnType
  pure { name := m.name, params, returnType := m.returnType, returnRule, isPure := m.isPure }

inductive Member where
  | constructor (t : Trampoline)
  | method (t : Trampoline)
  | override (s : OverrideSlot)
  | omitted

def member (g : Generator) (c : ClassDecl) (m : MethodDecl) : Except TypeObstacle Member :=
  if c.isInterface then
    if !m.isOverridable || g.filter.isNoCallback (c.name ++ "::" ++ m.name) then .ok .omitted
    else (g.slot m).map Member.override
  else
    (g.trampoline c m).map fun t => if isFactory c m then .constructor t else .method t

def add (b : ClassBinding) : Member → ClassBinding
  | .constructor t => { b with constructors := b.constructors ++ [t] }
  | .method t => { b with methods := b.methods ++ [t] }
  | .override s => { b with overrides := b.overrides ++ [s] }
  | .omitted => b

def skip (b : ClassBinding) (m : MethodDecl) (obstacle : TypeObstacle) : ClassBinding :=
  { b with skipped := b.skipped ++ [⟨m.name, "unsupported type " ++ obstacle.render⟩] }

/-- Takes one method into the binding of a class. -/
def take (g : Generator) (c : ClassDecl) (b : ClassBinding) (m : MethodDecl) :
    Except GenError ClassBinding :=
  if g.filter.isIgnored (c.name ++ "::" ++ m.name) then .ok b
  else
    match g.member c m with
    | .ok part => .ok (add b part)
    | .error obstacle =>
      if g.options.ignoreUnsupported then .ok (skip b m obstacle)
      else .error (.unsupportedType c.name m.name obstacle)

/-- The binding of a class before its source is rendered. -/
def collect (g : Generator) (c : ClassDecl) : Except GenError ClassBinding :=
  (g.model.allMethods c).foldlM (g.take c)
    { className := c.name
      exposedName := g.options.exposedName c.name
      isInterface := c.isInterface }

def generate (g : Generator) (c : ClassDecl) : Except GenError ClassBinding :=
  (g.collect c).map ClassBinding.rendered

def generateRecord (g : Generator) (s : StructDecl) : RecordBinding :=
  RecordBinding.rendered
    { structName := s.name, exposedName := g.options.exposedName s.name, fields := s.fields }

def generateClasses (g : Generator) : Except GenError (List ClassBinding) :=
  (g.model.classes.filter fun c => !g.filter.isIgnored c.name).mapM g.generate

def generateRecords (g : Generator) : List RecordBinding :=
  (g.model.structs.filter fun s => !g.filter.isIgnored s.name).map g.generateRecord

def generateConstants (g : Generator) : List ConstantBinding :=
  if g.options.exposeConstants then
    g.model.constants.filter fun c => !g.filter.isIgnored c.name
  else []

end Generator

end NativeBinding
