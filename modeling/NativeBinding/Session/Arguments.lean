import NativeBinding.Binding.Basic
import NativeBinding.Ieee.Reader
import NativeBinding.Marshal.Basic
import NativeBinding.Session.Error

/-! # Arguments of native calls

The native arguments of a call. Arguments that are left out at the end take the default that the
parameter is declared with, if that is a literal; a parameter with any other default must be given.
-/

set_option autoImplicit false

namespace NativeBinding.Session

open Ieee

def between? (mark : Char) : List Char → Option (List Char)
  | [] => none
  | c :: rest => if c == mark && rest.getLast? == some mark then some rest.dropLast else none

def int64? (text : List Char) : Option Int64 :=
  (integer? text).bind fun n =>
    if Int64.minValue.toInt ≤ n ∧ n ≤ Int64.maxValue.toInt then some (Int64.ofInt n) else none

/-- A literal number; a floating one may end in `f`. The integer zero is also the null pointer. -/
def numberArgument? (type : TypeRef) (text : List Char) : Option Value :=
  match int64? text with
  | some n =>
    match type with
    | .cString => some (if n = 0 then .null else .int n)
    | .struct _ => some (if n = 0 then .null else .int n)
    | _ => some (.int n)
  | none =>
    let digits := match text.getLast? with
      | some 'f' => text.dropLast
      | some 'F' => text.dropLast
      | _ => text
    (Binary64.parse? digits).map Value.float

/-- The value of a declared default, when it is spelled as a literal. -/
def defaultArgument? (type : TypeRef) (spelling : String) : Option Value :=
  let text := Text.trim spelling.toList
  match String.ofList text with
  | "NULL" => some .null
  | "nullptr" => some .null
  | "true" => some (.bool true)
  | "false" => some (.bool false)
  | _ =>
    match between? '"' text, between? '\x27' text with
    | some inner, _ => some (.text (String.ofList inner))
    | none, some inner => some (.text (String.ofList inner))
    | none, none => numberArgument? type text

/-- The native arguments for parameters in order, from the given values and then from defaults. -/
def marshalArguments (m : Marshaler) (callee : String) (tooFew : CallError) :
    List ParamBinding → List Value → Except CallError (List NativeArg)
  | [], _ => .ok []
  | p :: params, values => do
    let given := values.head?.or (p.default.bind (defaultArgument? p.type))
    let some value := given | throw tooFew
    let arg ← (m.toNative p.type value s!"{callee}({p.name})").mapError .marshal
    pure (arg :: (← marshalArguments m callee tooFew params values.tail))

/-- The native arguments of a call, as many as the method has parameters. -/
def nativeArguments (m : Marshaler) (className method : String) (params : List ParamBinding)
    (values : List Value) : Except CallError (List NativeArg) :=
  let callee := s!"{className}::{method}"
  let arity := .arity callee params.length values.length
  if params.length < values.length then .error arity
  else marshalArguments m callee arity params values

end NativeBinding.Session
