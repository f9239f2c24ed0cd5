import NativeBinding.Model.TypeRef

/-! # What can stop generation -/

set_option autoImplicit false

namespace NativeBinding

/-- Why a type cannot be used in a method. -/
inductive TypeObstacle where
  | noRule (type : TypeRef)
  /-- The struct is declared but left out. -/
  | notGenerated (type : TypeRef)
  deriving DecidableEq

def TypeObstacle.render : TypeObstacle → String
  | noRule type => type.render
  | notGenerated type => type.render ++ " (not generated)"

inductive GenError where
  | unsupportedType (className methodName : String) (obstacle : TypeObstacle)
  | duplicateName (name first second : String)
  | invalidPattern (pattern : String)
  | moduleName (name : String)
  | exposedName (name nativeName : String)
  | unknownSymbol (name : String)
  /-- The text is no description of a module. -/
  | description
  deriving DecidableEq

def GenError.message : GenError → String
  | unsupportedType c m obstacle => s!"unsupported type {obstacle.render} in {c}::{m}"
  | duplicateName name first second =>
    s!"exposed name '{name}' is produced by both '{first}' and '{second}'"
  | invalidPattern pattern => s!"invalid name pattern '{pattern}'"
  | moduleName name =>
    s!"invalid generator option: module name '{name}' is not an identifier"
  | exposedName name nativeName =>
    s!"invalid generator option: exposed name '{name}' of '{nativeName}' is not an identifier"
  | unknownSymbol name => s!"unknown symbol '{name}'"
  | description => "surface JSON error"

def GenError.kind : GenError → String
  | unsupportedType .. => "UnsupportedType"
  | duplicateName .. => "DuplicateName"
  | invalidPattern _ => "InvalidPattern"
  | moduleName _ => "InvalidOption"
  | exposedName .. => "InvalidOption"
  | unknownSymbol _ => "UnknownSymbol"
  | description => "Json"

end NativeBinding
