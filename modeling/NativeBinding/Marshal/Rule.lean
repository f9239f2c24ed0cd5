import NativeBinding.Json.Decode
import NativeBinding.Model.Json

/-! # Marshaling rules

The strategy for each type that can cross over. `MarshalRule.select?` is partial exactly on the
types without a rule.
-/

set_option autoImplicit false

namespace NativeBinding

inductive MarshalRule where
  | direct (kind : ScalarKind)
  /-- A `char` array padded with NUL. -/
  | fixedText (width : Nat)
  | nulTerminated
  | struct (name : String)
  | object (name : String)
  | nothing
  deriving DecidableEq, Inhabited

namespace MarshalRule

def select? : TypeRef → Option MarshalRule
  | .scalar kind => some (direct kind)
  | .fixedText width => some (fixedText width)
  | .cString => some nulTerminated
  | .struct name => some (struct name)
  | .object name => some (object name)
  | .void => some nothing
  | .unsupported _ => none

def toJson : MarshalRule → Json
  | direct kind => .object [("rule", .text "direct"), ("of", kind.toJson)]
  | fixedText width =>
    .object [("rule", .text "fixed_text"), ("of", .object [("max_len", .nat width)])]
  | nulTerminated => .object [("rule", .text "nul_terminated")]
  | struct name => .object [("rule", .text "struct_layout"), ("of", .text name)]
  | object name => .object [("rule", .text "object_handle"), ("of", .text name)]
  | nothing => .object [("rule", .text "nothing")]

def ofContent? (rule : String) (content : Option Json) : Option MarshalRule :=
  match rule, content with
  | "direct", some value => (ScalarKind.ofJson? value).map direct
  | "fixed_text", some value => do
    match ← Json.fields? ["max_len"] value with
    | [width] => (Json.required Json.asNat width).map fixedText
    | _ => none
  | "struct_layout", some value => (Json.asText value).map struct
  | "object_handle", some value => (Json.asText value).map object
  | "nul_terminated", none => some nulTerminated
  | "nul_terminated", some .null => some nulTerminated
  | "nothing", none => some nothing
  | "nothing", some .null => some nothing
  | _, _ => none

/-- The rule stands as one member and what it is about as another. -/
def ofJson? (value : Json) : Option MarshalRule := do
  match ← Json.fields? ["rule", "of"] value with
  | [some (.text rule), content] => ofContent? rule content
  | _ => none

end MarshalRule

end NativeBinding
