import NativeBinding.Model.TypeRef
import NativeBinding.Text.Numeral

/-! # What can go wrong when a value crosses over -/

set_option autoImplicit false

namespace NativeBinding

inductive Expectation where
  | type (value : TypeRef)
  | scalar (kind : ScalarKind)
  | record (name : String)
  | cString
  | nulFree
  deriving DecidableEq

def Expectation.render : Expectation → String
  | type value => value.render
  | scalar kind => kind.name
  | record name => "record " ++ name
  | cString => "char*"
  | nulFree => "text without NUL"

/-- Why a value cannot be carried across. A path names the value at fault. -/
inductive MarshalError where
  | valueTooLong (path : String) (width actual : Nat)
  | range (path value : String) (kind : ScalarKind)
  | typeMismatch (path : String) (expected : Expectation) (found : String)
  | unknownField (record field : String)
  | missingField (record field : String)
  | unknownStruct (name : String)
  | unsupported (path : String) (type : TypeRef)
  /-- A field of a struct has a type without a size. -/
  | unsupportedField (structName fieldName : String) (type : TypeRef)
  | bufferSize (name : String) (expected actual : Nat)
  deriving DecidableEq

def MarshalError.message : MarshalError → String
  | valueTooLong path width actual =>
    path ++ ": value of " ++ Text.natural actual ++ " bytes exceeds field width " ++
      Text.natural width
  | range path value kind => path ++ ": " ++ value ++ " is out of range for " ++ kind.name
  | typeMismatch path expected found =>
    path ++ ": expected " ++ expected.render ++ ", found " ++ found
  | unknownField record field => s!"record {record} has no field '{field}'"
  | missingField record field => s!"record {record} is missing field '{field}'"
  | unknownStruct name => s!"unknown struct '{name}'"
  | unsupported path type => "no marshaling rule for " ++ path ++ ": " ++ type.render
  | unsupportedField s f type =>
    s!"no marshaling rule for field {s}::{f} of type {type.render}"
  | bufferSize name expected actual =>
    "buffer for " ++ name ++ " is " ++ Text.natural actual ++ " bytes, layout needs " ++
      Text.natural expected

def MarshalError.kind : MarshalError → String
  | valueTooLong .. => "ValueTooLong"
  | range .. => "Range"
  | typeMismatch .. => "TypeMismatch"
  | unknownField .. => "UnknownField"
  | missingField .. => "MissingField"
  | unknownStruct _ => "UnknownStruct"
  | unsupported .. => "Unsupported"
  | unsupportedField .. => "Unsupported"
  | bufferSize .. => "BufferSize"

end NativeBinding
