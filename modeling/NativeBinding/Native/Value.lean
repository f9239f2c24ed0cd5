import NativeBinding.Ieee.Text
import NativeBinding.Model.Constant
import NativeBinding.Native.Scalar
import NativeBinding.Text.Quoted
import NativeBinding.Text.Utf8

/-! # Values on both sides

`Value` is what scripting code sees: null, scalars, text, and records with named fields. `NativeArg`
is what a native function takes and gives: scalars, text without its terminator, struct memory, and
null pointers.
-/

set_option autoImplicit false

namespace NativeBinding

open Ieee

/-- A scripting value. `bytes` is text that is not UTF-8; a record has the name of its struct and
its fields in order. -/
inductive Value where
  | null
  | bool (value : Bool)
  | int (value : Int64)
  | float (value : Binary64)
  | text (value : String)
  | bytes (octets : List UInt8)
  | record (typeName : String) (fields : List (String × Value))
  deriving Inhabited

structure Record where
  typeName : String
  fields : List (String × Value)
  deriving Inhabited

namespace Record

def toValue (r : Record) : Value :=
  .record r.typeName r.fields

def get? (r : Record) (field : String) : Option Value :=
  (r.fields.find? fun f => f.1 == field).map (·.2)

def replaceField (field : String) (value : Value) : List (String × Value) →
    Option (List (String × Value))
  | [] => none
  | f :: rest =>
    if f.1 == field then some ((f.1, value) :: rest)
    else (replaceField field value rest).map (f :: ·)

def set? (r : Record) (field : String) (value : Value) : Option Record :=
  (replaceField field value r.fields).map fun fields => { r with fields }

end Record

namespace Value

def shape : Value → String
  | null => "null"
  | bool _ => "bool"
  | int _ => "int"
  | float _ => "float"
  | text _ => "text"
  | bytes _ => "bytes"
  | record typeName _ => "record " ++ typeName

def isNull : Value → Bool
  | null => true
  | _ => false

def asBool? : Value → Option Bool
  | bool value => some value
  | _ => none

def asInt? : Value → Option Int64
  | int value => some value
  | _ => none

/-- A float, or an integer as the nearest one. -/
def asFloat? : Value → Option Binary64
  | float value => some value
  | int value => some (Binary64.ofInt value.toInt)
  | _ => none

def asText? : Value → Option String
  | text value => some value
  | _ => none

def asRecord? : Value → Option Record
  | record typeName fields => some ⟨typeName, fields⟩
  | _ => none

def textBytes? : Value → Option (List UInt8)
  | text value => some (Text.Utf8.ofString value)
  | bytes octets => some octets
  | _ => none

mutual

def display : Value → String
  | null => "null"
  | bool true => "true"
  | bool false => "false"
  | int value => Text.integer value.toInt
  | float value => value.render .displayed
  | text value => Text.Quoted.encode value
  | bytes octets => "b" ++ Text.Quoted.encode (String.ofList (Text.Utf8.decodeLossy octets))
  | record typeName fields => typeName ++ " \x7b" ++ displayFields true fields ++ " \x7d"

/-- The fields of a record; all but the first follow a comma. -/
def displayFields (first : Bool) : List (String × Value) → String
  | [] => ""
  | (name, value) :: rest =>
    (if first then "" else ",") ++ " " ++ name ++ ": " ++ display value ++
      displayFields false rest

end

def ofConstant : ConstValue → Value
  | .bool value => bool value
  | .int value => int value
  | .float value => float value
  | .text value => text value

/-- Text when the octets are UTF-8, and the octets themselves when they are not. -/
def ofTextBytes (octets : List UInt8) : Value :=
  match Text.Utf8.toString? octets with
  | some value => text value
  | none => bytes octets

end Value

structure NativeStruct where
  name : String
  bytes : List UInt8
  deriving DecidableEq, Inhabited

inductive NativeArg where
  | void
  | scalar (value : Scalar)
  | text (octets : List UInt8)
  | struct (value : NativeStruct)
  | null
  deriving DecidableEq, Inhabited

namespace NativeArg

def shape : NativeArg → String
  | void => "void"
  | scalar value => value.kind.name
  | text _ => "text"
  | struct value => "struct " ++ value.name
  | null => "null pointer"

def asInt32? : NativeArg → Option Int32
  | scalar (.i32 value) => some value
  | _ => none

end NativeArg

end NativeBinding
