import NativeBinding.Header.Signature
import NativeBinding.Model.Basic

/-! # Resolving declared types

Typedefs are followed from a base spelling until it is no typedef; the expanded spelling then says
what the type means to the binding.
-/

set_option autoImplicit false

namespace NativeBinding

/-- The names that a declared type may use. -/
structure Resolver where
  typedefs : List (String × String) := []
  structs : List String := []
  classes : List String := []
  deriving DecidableEq

namespace Resolver

open Header

def typedef? (r : Resolver) (name : String) : Option String :=
  (r.typedefs.find? fun t => t.1 == name).map (·.2)

/-- Puts the target of a typedef in place of the base that named it. -/
def substitute (type target : TypeSpelling) : TypeSpelling :=
  { base := target.base
    isConst := type.isConst || target.isConst
    pointerDepth := type.pointerDepth + target.pointerDepth
    isReference := type.isReference || target.isReference
    arrayLength := type.arrayLength.or target.arrayLength }

/-- Follows typedefs; `seen` holds the names already replaced, so at most one step is taken for each
typedef. -/
def expandFrom (r : Resolver) :
    Nat → List String → TypeSpelling → Except DeclError TypeSpelling
  | fuel, seen, type =>
    match r.typedef? type.base with
    | none => pure type
    | some spelling =>
      if seen.contains type.base then .error (.model (.typedefCycle type.base))
      else
        match TypeSpelling.parse spelling with
        | .error e => .error (.signature e)
        | .ok target =>
          if target.arrayLength.isSome && type.arrayLength.isSome then
            .error (.model (.arrayOfArray type.base))
          else
            match fuel with
            | 0 => .error (.model (.typedefCycle type.base))
            | fuel + 1 => expandFrom r fuel (type.base :: seen) (substitute type target)

def expand (r : Resolver) (type : TypeSpelling) : Except DeclError TypeSpelling :=
  r.expandFrom (r.typedefs.length + 1) [] type

def knows (r : Resolver) (base : String) : Bool :=
  (ScalarKind.ofSpelling? base).isSome || ScalarKind.isPlatformSized base ||
    r.structs.contains base || r.classes.contains base || base == "void"

/-- The stars of a type, and one more for a reference; this sum is an octet too. -/
def indirection (type : TypeSpelling) : UInt8 :=
  type.pointerDepth + (if type.isReference then 1 else 0)

/-- The meaning of an expanded type of a known base; `unsupported` where it has none. -/
def meaning (r : Resolver) (unsupported : TypeRef) (type : TypeSpelling) : TypeRef :=
  let scalar := ScalarKind.ofSpelling? type.base
  match type.arrayLength with
  | some n => if scalar = some .char && indirection type == 0 then .fixedText n else unsupported
  | none =>
    if indirection type = 0 then
      if type.base == "void" then .void
      else if r.structs.contains type.base then .struct type.base
      else
        match scalar with
        | some kind => .scalar kind
        | none => unsupported
    else if indirection type = 1 then
      if scalar = some .char then .cString
      else if r.structs.contains type.base then .struct type.base
      else if r.classes.contains type.base then .object type.base
      else unsupported
    else unsupported

def resolve (r : Resolver) (type : TypeSpelling) (site : Site) : Except DeclError TypeRef := do
  let expanded ← r.expand type
  if !r.knows expanded.base then throw (.unresolvedType expanded.base site)
  pure (r.meaning (.unsupported type.render) expanded)

end Resolver

end NativeBinding
