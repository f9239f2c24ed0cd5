import NativeBinding.Json.Basic

/-! # Decoding JSON values

Readers from a value to a typed one, all partial. A record with named fields may also be written as
an array of them in order; unknown members are ignored and a known one may stand only once.
-/

set_option autoImplicit false

namespace NativeBinding.Json

variable {α : Type}

def asText : Json → Option String
  | text value => some value
  | _ => none

def asBool : Json → Option Bool
  | bool value => some value
  | _ => none

def asInt64 : Json → Option Int64
  | int n =>
    if Int64.minValue.toInt ≤ n ∧ n ≤ Int64.maxValue.toInt then some (Int64.ofInt n) else none
  | _ => none

/-- A natural number of 64 bits. -/
def asNat : Json → Option Nat
  | int n => if 0 ≤ n ∧ n < UInt64.size then some n.toNat else none
  | _ => none

def asList (item : Json → Option α) : Json → Option (List α)
  | array items => items.mapM item
  | _ => none

def asOption (item : Json → Option α) : Json → Option (Option α)
  | null => some none
  | value => (item value).map some

def fields? (names : List String) : Json → Option (List (Option Json))
  | object members =>
    names.mapM fun name =>
      match members.filter fun m => m.1 == name with
      | [] => some none
      | [m] => some (some m.2)
      | _ => none
  | array items =>
    if names.length < items.length then none
    else some (items.map some ++ List.replicate (names.length - items.length) none)
  | _ => none

def required (item : Json → Option α) (field : Option Json) : Option α :=
  field.bind item

def withDefault (default : α) (item : Json → Option α) : Option Json → Option α
  | none => some default
  | some value => item value

/-- Adds an entry to a list in key order; one with the same key is replaced. -/
def insertByKey (key : String) (value : α) : List (String × α) → List (String × α)
  | [] => [(key, value)]
  | e :: rest =>
    if key < e.1 then (key, value) :: e :: rest
    else if key == e.1 then (key, value) :: rest
    else e :: insertByKey key value rest

def asMap (item : Json → Option α) : Json → Option (List (String × α))
  | object members =>
    members.foldlM (fun entries m => (item m.2).map fun v => insertByKey m.1 v entries) []
  | _ => none

end NativeBinding.Json
