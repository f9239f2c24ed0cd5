import NativeBinding.Marshal.Error
import NativeBinding.Model.Basic

/-! # Struct layout

Where each field of a struct lies in memory: fields in declaration order at their natural alignment,
nested structs inline, the size a multiple of the greatest alignment. `LayoutTable.build` computes
each struct of a model once.
-/

set_option autoImplicit false

namespace NativeBinding

structure FieldLayout where
  name : String
  type : TypeRef
  offset : Nat
  size : Nat
  deriving DecidableEq, Inhabited

structure StructLayout where
  name : String
  size : Nat
  align : Nat
  fields : List FieldLayout
  deriving DecidableEq, Inhabited

def StructLayout.field? (s : StructLayout) (name : String) : Option FieldLayout :=
  s.fields.find? fun f => f.name == name

/-- The least multiple of a power of two that is not below the value. -/
def alignUp (value align : Nat) : Nat :=
  if align ≤ 1 then value
  else
    let top := value + align - 1
    top - (top &&& (align - 1))

/-- The layouts computed so far, each name once. -/
structure LayoutTable where
  layouts : List StructLayout := []
  deriving DecidableEq, Inhabited

namespace LayoutTable

def get? (table : LayoutTable) (name : String) : Option StructLayout :=
  table.layouts.find? fun s => s.name == name

def require (table : LayoutTable) (name : String) : Except MarshalError StructLayout :=
  match table.get? name with
  | some layout => .ok layout
  | none => .error (.unknownStruct name)

def size (table : LayoutTable) : Nat :=
  table.layouts.length

/-- A struct whose first fields are placed: the end of the last one and the greatest alignment. -/
structure Placement where
  offset : Nat := 0
  align : Nat := 1
  /-- The placed fields, the last one first. -/
  placed : List FieldLayout := []
  deriving DecidableEq

namespace Placement

def add (p : Placement) (f : FieldDecl) (size align : Nat) : Placement :=
  let offset := alignUp p.offset align
  { offset := offset + size
    align := max p.align align
    placed := ⟨f.name, f.type, offset, size⟩ :: p.placed }

def finish (p : Placement) (name : String) : StructLayout :=
  ⟨name, alignUp p.offset p.align, p.align, p.placed.reverse⟩

end Placement

/-- Places the next field of a struct. Layouts of structs inside are added to the table by the
function given. -/
def placeField (m : Model)
    (compute : LayoutTable → StructDecl → Except MarshalError (LayoutTable × StructLayout))
    (owner : String) (state : LayoutTable × Placement) (f : FieldDecl) :
    Except MarshalError (LayoutTable × Placement) :=
  match f.type with
  | .scalar kind => .ok (state.1, state.2.add f kind.size kind.align)
  | .fixedText width => .ok (state.1, state.2.add f width 1)
  | .struct name =>
    match m.findStruct? name with
    | none => .error (.unknownStruct name)
    | some nested =>
      match compute state.1 nested with
      | .ok (table, layout) => .ok (table, state.2.add f layout.size layout.align)
      | .error e => .error e
  | other => .error (.unsupportedField owner f.name other)

/-- Adds the layout of a struct, and before it those of the structs it holds. The first argument
bounds how deep structs lie inside one another. -/
def compute (m : Model) : Nat → LayoutTable → StructDecl →
    Except MarshalError (LayoutTable × StructLayout)
  | 0, _, s => .error (.unknownStruct s.name)
  | fuel + 1, table, s =>
    match table.get? s.name with
    | some done => .ok (table, done)
    | none => do
      let (table, placement) ← s.fields.foldlM (placeField m (compute m fuel) s.name) (table, {})
      let layout := placement.finish s.name
      pure (⟨table.layouts ++ [layout]⟩, layout)

def build (m : Model) : Except MarshalError LayoutTable :=
  m.structs.foldlM
    (fun table s => do
      let (table, _) ← compute m (m.structs.length + 1) table s
      pure table)
    {}

end LayoutTable

end NativeBinding
