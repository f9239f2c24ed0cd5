import NativeBinding.Header.Error
import NativeBinding.Model.TypeRef

/-! # What can be wrong with a set of declarations -/

set_option autoImplicit false

namespace NativeBinding

inductive Site where
  | field (structName fieldName : String)
  | method (className methodName : String)
  | param (className methodName paramName : String)
  deriving DecidableEq

def Site.render : Site → String
  | field s f => s!"field {s}::{f}"
  | method c m => s!"method {c}::{m}"
  | param c m p => s!"method {c}::{m}({p})"

inductive ModelError where
  | missingLibraryName
  | typedefShadows (name : String)
  | typedefCycle (name : String)
  | arrayOfArray (name : String)
  | pointerField (site : Site)
  | duplicateStruct (name : String)
  | duplicateField (structName fieldName : String)
  | looseField (structName fieldName : String) (type : TypeRef)
  | structAndClass (name : String)
  | duplicateClass (name : String)
  | overloadedMethod (className methodName : String)
  | selfContainment (name : String)
  | undeclaredBase (className base : String)
  | inheritanceCycle (className : String)
  | duplicateConstant (name : String)
  | constantName (name : String)
  | constantShadows (name : String)
  | constantNotFinite (name : String)
  deriving DecidableEq

def ModelError.message : ModelError → String
  | missingLibraryName => "library.name is required"
  | typedefShadows name => s!"typedef '{name}' shadows a struct or class"
  | typedefCycle name => s!"typedef cycle through '{name}'"
  | arrayOfArray name => s!"array of array typedef '{name}' is not supported"
  | pointerField site => s!"{site.render}: pointer fields are not fixed-layout"
  | duplicateStruct name => s!"duplicate struct '{name}'"
  | duplicateField s f => s!"duplicate field '{s}::{f}'"
  | looseField s f type => s!"field '{s}::{f}' has non fixed-layout type {type.render}"
  | structAndClass name => s!"'{name}' is declared as both struct and class"
  | duplicateClass name => s!"duplicate class '{name}'"
  | overloadedMethod c m => s!"overloaded method '{c}::{m}' is not supported"
  | selfContainment name => s!"struct '{name}' contains itself"
  | undeclaredBase c base => s!"class '{c}' has undeclared base '{base}'"
  | inheritanceCycle c => s!"inheritance cycle through '{c}'"
  | duplicateConstant name => s!"duplicate constant '{name}'"
  | constantName name => s!"constant name '{name}' is not an identifier"
  | constantShadows name => s!"constant '{name}' shadows a struct or class"
  | constantNotFinite name => s!"constant '{name}' is not a finite number"

inductive DeclError where
  | unresolvedType (name : String) (site : Site)
  | signature (cause : Header.SignatureError)
  | model (cause : ModelError)
  /-- The text is no document, or its values have the wrong shape. -/
  | document
  deriving DecidableEq

def DeclError.message : DeclError → String
  | unresolvedType name site => s!"unresolved type '{name}' in {site.render}"
  | signature cause => s!"invalid C++ declaration: {cause.message}"
  | model cause => s!"invalid declaration: {cause.message}"
  | document => "TOML parse error"

def DeclError.kind : DeclError → String
  | unresolvedType .. => "UnresolvedType"
  | signature _ => "InvalidSignature"
  | model _ => "InvalidDeclaration"
  | document => "Toml"

end NativeBinding
