import NativeBinding.Json.Basic
import NativeBinding.Toml.Basic

/-! # TOML values as JSON values

Configuration and declaration files are decoded by the same readers as JSON documents. A moment of
time has no counterpart; it becomes an object with one private member.
-/

set_option autoImplicit false

namespace NativeBinding.Toml

mutual

def toJson : Toml → Json
  | text value => .text value
  | int value => .int value
  | float value => .float value
  | bool value => .bool value
  | moment => .object [("$__toml_private_datetime", .text "")]
  | array items => .array (itemsToJson items)
  | tables items => .array (tablesToJson items)
  | table _ entries => .object (entriesToJson entries)

def itemsToJson : List Toml → List Json
  | [] => []
  | item :: rest => toJson item :: itemsToJson rest

def tablesToJson : List (List (String × Toml)) → List Json
  | [] => []
  | entries :: rest => .object (entriesToJson entries) :: tablesToJson rest

def entriesToJson : List (String × Toml) → List (String × Json)
  | [] => []
  | (name, value) :: rest => (name, toJson value) :: entriesToJson rest

end

end NativeBinding.Toml
