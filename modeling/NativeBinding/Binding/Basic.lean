import NativeBinding.Marshal.Rule

/-! # Bindings

What is generated for one class, struct or constant: how each method reaches the native library,
with the marshaling rule of every parameter and return.
-/

set_option autoImplicit false

namespace NativeBinding

/-- How a method reaches the native library. -/
inductive TrampolineKind where
  /-- A static method that makes an instance of its class. -/
  | constructor
  | static
  /-- Registers an implementation of an interface. -/
  | register (interfaceName : String)
  | init
  | release
  | call
  deriving DecidableEq, Inhabited

structure ParamBinding where
  name : String
  type : TypeRef
  rule : MarshalRule
  default : Option String := none
  deriving DecidableEq, Inhabited

/-- A method that can be called on a class that is no interface. -/
structure Trampoline where
  name : String
  kind : TrampolineKind
  params : List ParamBinding
  returnType : TypeRef
  returnRule : MarshalRule
  deriving DecidableEq, Inhabited

def Trampoline.arity (t : Trampoline) : Nat :=
  t.params.length

/-- A hook of an interface that a handler can override. -/
structure OverrideSlot where
  name : String
  params : List ParamBinding
  returnType : TypeRef
  returnRule : MarshalRule
  isPure : Bool
  deriving DecidableEq, Inhabited

/-- A method that was left out, with the reason. -/
structure SkippedMethod where
  name : String
  reason : String
  deriving DecidableEq, Inhabited

structure ClassBinding where
  className : String
  exposedName : String
  isInterface : Bool
  constructors : List Trampoline := []
  methods : List Trampoline := []
  overrides : List OverrideSlot := []
  skipped : List SkippedMethod := []
  /-- The rendered definition, which a description leaves out. -/
  source : String := ""
  deriving DecidableEq, Inhabited

namespace ClassBinding

def method? (c : ClassBinding) (name : String) : Option Trampoline :=
  c.methods.find? fun m => m.name == name

def constructor? (c : ClassBinding) (name : String) : Option Trampoline :=
  c.constructors.find? fun m => m.name == name

def slot? (c : ClassBinding) (name : String) : Option OverrideSlot :=
  c.overrides.find? fun s => s.name == name

end ClassBinding

structure RecordBinding where
  structName : String
  exposedName : String
  fields : List FieldDecl
  source : String := ""
  deriving DecidableEq, Inhabited

abbrev ConstantBinding := ConstDecl

end NativeBinding
