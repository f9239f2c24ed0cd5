import NativeBinding.Ieee.Basic

/-! # TOML values

Documents as tables of keyed values. A table remembers how it came about, because only that decides
whether a later line may still add to it.
-/

set_option autoImplicit false

namespace NativeBinding

open Ieee

/-- How a table came about: by a header of its own, as the parent in a longer header, as the parent
in a dotted key, or between braces. -/
inductive Toml.Origin where
  | header
  | implied
  | dotted
  | braces
  deriving DecidableEq

inductive Toml where
  | text (value : String)
  | int (value : Int)
  | float (value : Binary64)
  | bool (value : Bool)
  | moment
  | array (items : List Toml)
  | tables (items : List (List (String × Toml)))
  | table (origin : Toml.Origin) (entries : List (String × Toml))
  deriving Inhabited

namespace Toml

abbrev Entries := List (String × Toml)

def find? (name : String) (entries : Entries) : Option Toml :=
  (entries.find? fun e => e.1 == name).map (·.2)

def put (name : String) (value : Toml) : Entries → Entries
  | [] => [(name, value)]
  | e :: rest => if e.1 == name then (name, value) :: rest else e :: put name value rest

def remove (name : String) (entries : Entries) : Entries :=
  entries.filter fun e => e.1 != name

/-- Changes the table that a header path leads to. Missing tables on the way are implied, and a
list of tables stands for its last one. -/
def atHeader? (change : Entries → Option Entries) : List String → Entries → Option Entries
  | [], entries => change entries
  | name :: path, entries =>
    match find? name entries with
    | none => (atHeader? change path []).map fun inner => put name (table .implied inner) entries
    | some (table .braces _) => none
    | some (table origin inner) =>
      (atHeader? change path inner).map fun inner => put name (table origin inner) entries
    | some (tables items) =>
      match items.reverse with
      | [] => none
      | last :: others =>
        (atHeader? change path last).map fun last =>
          put name (tables (last :: others).reverse) entries
    | some _ => none

/-- Adds a value under a dotted key, whose parents must come about by dotted keys only. -/
def atKey? (name : String) (value : Toml) : List String → Entries → Option Entries
  | [], entries => if (find? name entries).isSome then none else some (put name value entries)
  | parent :: path, entries =>
    match find? parent entries with
    | none => (atKey? name value path []).map fun inner => put parent (table .dotted inner) entries
    | some (table .dotted inner) =>
      (atKey? name value path inner).map fun inner => put parent (table .dotted inner) entries
    | some (table .implied inner) =>
      if path.isEmpty then none
      else
        (atKey? name value path inner).map fun inner => put parent (table .implied inner) entries
    | some (tables items) =>
      if path.isEmpty then none
      else
        match items.reverse with
        | [] => none
        | last :: others =>
          (atKey? name value path last).map fun last =>
            put parent (tables (last :: others).reverse) entries
    | some _ => none

end Toml

end NativeBinding
