/-! # What can be wrong with a header declaration -/

set_option autoImplicit false

namespace NativeBinding.Header

inductive SignatureError where
  | emptyType
  | nameInType (name input : String)
  | emptyMethod
  | missingOpen (input : String)
  | missingClose (input : String)
  | unterminatedBody (input : String)
  | unexpectedQualifier (word input : String)
  | voidField (name : String)
  | expectedType
  | expectedTypeFound (token : String)
  | invalidTypeName (token : String)
  | missingExtent
  | missingBracket
  | multiDimensional
  | invalidExtent (token : String)
  | zeroLength
  | unexpectedToken (token : String)
  | emptyTypeAndName
  | missingName (input : String)
  | variadic
  | emptyParameter
  | voidParameter
  deriving DecidableEq

def SignatureError.message : SignatureError → String
  | emptyType => "empty type"
  | nameInType name input => s!"unexpected name '{name}' in type '{input}'"
  | emptyMethod => "empty method declaration"
  | missingOpen input => s!"missing '(' in '{input}'"
  | missingClose input => s!"missing ')' in '{input}'"
  | unterminatedBody input => s!"unterminated body in '{input}'"
  | unexpectedQualifier word input => s!"unexpected '{word}' after parameters in '{input}'"
  | voidField name => s!"field '{name}' cannot be void"
  | expectedType => "expected type"
  | expectedTypeFound token => s!"expected type, found '{token}'"
  | invalidTypeName token => s!"invalid type name '{token}'"
  | missingExtent => "missing array extent"
  | missingBracket => "missing ']'"
  | multiDimensional => "multi-dimensional arrays are not supported"
  | invalidExtent token => s!"invalid array extent '{token}'"
  | zeroLength => "zero-length array"
  | unexpectedToken token => s!"unexpected token '{token}'"
  | emptyTypeAndName => "empty type and name"
  | missingName input => s!"missing name after type in '{input}'"
  | variadic => "variadic methods are not supported"
  | emptyParameter => "empty parameter"
  | voidParameter => "'void' parameter must be the only parameter"

end NativeBinding.Header
