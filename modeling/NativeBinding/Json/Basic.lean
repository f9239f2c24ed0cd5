import NativeBinding.Ieee.Basic

/-! # JSON values

Documents with their members in written order. Whole numbers and floating-point numbers are
different values, since a whole number above 64 bits can only be read as the latter.
-/

set_option autoImplicit false

namespace NativeBinding

open Ieee

inductive Json where
  | null
  | bool (value : Bool)
  | int (value : Int)
  | float (value : Binary64)
  | text (value : String)
  | array (items : List Json)
  | object (members : List (String × Json))
  deriving Inhabited

namespace Json

/-- The last member of a name; a repeated name replaces what stood before. -/
def member? (name : String) : Json → Option Json
  | object members => (members.reverse.find? fun m => m.1 == name).map (·.2)
  | _ => none

def strings (texts : List String) : Json :=
  array (texts.map text)

def nat (n : Nat) : Json :=
  int n

def optionText : Option String → Json
  | none => null
  | some value => text value

end Json

end NativeBinding
