import NativeBinding.Model.Constant
import NativeBinding.Model.TypeRef

/-! # Declarations of a native library

Structs, classes and constants with their types resolved. Order is declaration order throughout.
-/

set_option autoImplicit false

namespace NativeBinding

structure LibraryInfo where
  name : String
  version : Option String := none
  headers : List String := []
  deriving DecidableEq, Inhabited

structure Param where
  name : String
  type : TypeRef
  default : Option String := none
  deriving DecidableEq, Inhabited

structure MethodDecl where
  name : String
  params : List Param := []
  returnType : TypeRef := .void
  isVirtual : Bool := false
  isPure : Bool := false
  isStatic : Bool := false
  isFinal : Bool := false
  deriving DecidableEq, Inhabited

namespace MethodDecl

/-- Whether scripting code may override the method on an interface. -/
def isOverridable (m : MethodDecl) : Bool :=
  m.isVirtual && !m.isStatic && !m.isFinal

/-- All types that a method mentions, the return type first. -/
def types (m : MethodDecl) : List TypeRef :=
  m.returnType :: m.params.map (·.type)

end MethodDecl

structure ClassDecl where
  name : String
  methods : List MethodDecl := []
  isInterface : Bool := false
  base : Option String := none
  deriving DecidableEq, Inhabited

structure FieldDecl where
  name : String
  type : TypeRef
  deriving DecidableEq, Inhabited

/-- A struct; the order of its fields is their order in memory. -/
structure StructDecl where
  name : String
  fields : List FieldDecl := []
  deriving DecidableEq, Inhabited

structure ConstDecl where
  name : String
  value : ConstValue
  deriving DecidableEq, Inhabited

end NativeBinding
