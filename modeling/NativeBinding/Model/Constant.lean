import NativeBinding.Ieee.Text
import NativeBinding.Text.Quoted

/-! # Declared constants

The value of a macro or a `const` global. Floats are told apart by their bits, so that a model can
be compared as a whole.
-/

set_option autoImplicit false

namespace NativeBinding

open Ieee

inductive ConstValue where
  | bool (value : Bool)
  | int (value : Int64)
  | float (value : Binary64)
  | text (value : String)
  deriving DecidableEq, Inhabited

namespace ConstValue

def sourceType : ConstValue → String
  | bool _ => "bool"
  | int _ => "i64"
  | float _ => "f64"
  | text _ => "&str"

def literal : ConstValue → String
  | bool true => "true"
  | bool false => "false"
  | int n => Text.integer n.toInt
  | float x => x.render .literal
  | text value => Text.Quoted.encode value

def asText : ConstValue → Option String
  | text value => some value
  | _ => none

def isFinite : ConstValue → Bool
  | float x => x.isFinite
  | _ => true

end ConstValue

end NativeBinding
