import NativeBinding.Layout.Basic
import NativeBinding.Marshal.Scalar

/-! # Marshaling

Values between scripting code and native memory, by the type they are declared with. A record is
written into the memory of its struct field by field and read back the same way; an array of
characters holds text up to its first NUL.
-/

set_option autoImplicit false

namespace NativeBinding

def Record.setAll (r : Record) : List (String × Value) → Except MarshalError Record
  | [] => .ok r
  | (field, value) :: rest =>
    match r.set? field value with
    | some r => Record.setAll r rest
    | none => .error (.unknownField r.typeName field)

structure Marshaler where
  model : Model
  layouts : LayoutTable
  deriving Inhabited

namespace Marshaler

open Marshal

def new (model : Model) : Except MarshalError Marshaler := do
  pure { model, layouts := ← LayoutTable.build model }

def untilNul (octets : List UInt8) : List UInt8 :=
  octets.takeWhile (· != 0)

def slot (f : FieldLayout) (octets : List UInt8) : List UInt8 :=
  (octets.drop f.offset).take f.size

/-- Reads one field from its slot. Structs inside are read by the function given. -/
def decodeField (m : Marshaler)
    (nested : StructLayout → List UInt8 → Except MarshalError Record)
    (owner : String) (f : FieldLayout) (memory : List UInt8) : Except MarshalError Value :=
  let path := owner ++ "." ++ f.name
  match f.type with
  | .scalar kind => ofScalar path (Scalar.read kind memory)
  | .fixedText _ => pure (Value.ofTextBytes (untilNul memory))
  | .struct name => do
    let layout ← m.layouts.require name
    let record ← nested layout memory
    pure record.toValue
  | other => throw (.unsupported path other)

/-- Reads the fields of a struct in order. The first argument bounds how deep structs lie inside one
another. -/
def decodeFields (m : Marshaler) : Nat → StructLayout → List UInt8 → Except MarshalError Record
  | 0, layout, _ => .error (.unknownStruct layout.name)
  | fuel + 1, layout, octets => do
    let fields ← layout.fields.mapM fun f => do
      let value ← m.decodeField (decodeFields m fuel) layout.name f (slot f octets)
      pure (f.name, value)
    pure ⟨layout.name, fields⟩

/-- Structs lie inside one another at most as deep as there are structs. -/
def depth (m : Marshaler) : Nat :=
  m.layouts.size + 1

def decodeStruct (m : Marshaler) (native : NativeStruct) : Except MarshalError Record := do
  let layout ← m.layouts.require native.name
  if native.bytes.length != layout.size then
    throw (.bufferSize native.name layout.size native.bytes.length)
  m.decodeFields m.depth layout native.bytes

def toScript (m : Marshaler) (type : TypeRef) (arg : NativeArg) (path : String) :
    Except MarshalError Value :=
  let mismatch := .error (.typeMismatch path (.type type) arg.shape)
  match type with
  | .void => .ok .null
  | .scalar kind =>
    match arg with
    | .scalar s => if s.kind = kind then ofScalar path s else mismatch
    | _ => mismatch
  | .fixedText width =>
    match arg with
    | .text octets => .ok (Value.ofTextBytes (untilNul (octets.take width)))
    | _ => mismatch
  | .cString =>
    match arg with
    | .text octets => .ok (Value.ofTextBytes (untilNul octets))
    | .null => .ok .null
    | _ => mismatch
  | .struct name =>
    match arg with
    | .null => .ok .null
    | .struct native =>
      if native.name = name then (m.decodeStruct native).map Record.toValue else mismatch
    | _ => mismatch
  | .object _ => .error (.unsupported path type)
  | .unsupported _ => .error (.unsupported path type)

def fixedTextBytes (path : String) (width : Nat) (value : Value) :
    Except MarshalError (List UInt8) :=
  match value.textBytes? with
  | none => .error (.typeMismatch path (.type (.fixedText width)) value.shape)
  | some octets =>
    if width < octets.length then .error (.valueTooLong path width octets.length)
    else .ok octets

def overwrite (octets : List UInt8) (offset : Nat) (part : List UInt8) : List UInt8 :=
  octets.take offset ++ part ++ octets.drop (offset + part.length)

/-- The octets of one field for its slot, which holds `memory` so far. Structs inside are written by
the function given. -/
def encodeField (m : Marshaler)
    (nested : StructLayout → Record → List UInt8 → String → Except MarshalError (List UInt8))
    (path : String) (f : FieldLayout) (value : Value) (memory : List UInt8) :
    Except MarshalError (List UInt8) :=
  match f.type with
  | .scalar kind => do
    let scalar ← toScalar kind path value
    pure scalar.write
  | .fixedText width => do
    let text ← fixedTextBytes path width value
    pure (text ++ List.replicate (f.size - text.length) 0)
  | .struct name => do
    let layout ← m.layouts.require name
    match value with
    | .record typeName fields =>
      if typeName = name then nested layout ⟨typeName, fields⟩ memory path
      else throw (.typeMismatch path (.record name) value.shape)
    | _ => throw (.typeMismatch path (.record name) value.shape)
  | other => throw (.unsupported path other)

def encodeMember (m : Marshaler)
    (nested : StructLayout → Record → List UInt8 → String → Except MarshalError (List UInt8))
    (owner : String) (record : Record) (path : String) (f : FieldLayout) (memory : List UInt8) :
    Except MarshalError (List UInt8) :=
  match record.get? f.name with
  | some value => m.encodeField nested (path ++ "." ++ f.name) f value memory
  | none => .error (.missingField owner f.name)

/-- Writes the fields of a record over the memory of its struct, in layout order. Every field must
be there, and no other. -/
def encodeFields (m : Marshaler) :
    Nat → StructLayout → Record → List UInt8 → String → Except MarshalError (List UInt8)
  | 0, layout, _, _, _ => .error (.unknownStruct layout.name)
  | fuel + 1, layout, record, octets, path => do
    record.fields.forM fun f =>
      if (layout.field? f.1).isSome then pure () else throw (.unknownField layout.name f.1)
    layout.fields.foldlM
      (fun octets f => do
        let part ← m.encodeMember (encodeFields m fuel) layout.name record path f (slot f octets)
        pure (overwrite octets f.offset part))
      octets

def encodeStruct (m : Marshaler) (record : Record) : Except MarshalError NativeStruct := do
  let layout ← m.layouts.require record.typeName
  let zeros := List.replicate layout.size 0
  let octets ← m.encodeFields m.depth layout record zeros record.typeName
  pure ⟨layout.name, octets⟩

def encodeInto (m : Marshaler) (record : Record) (target : NativeStruct) :
    Except MarshalError NativeStruct := do
  if record.typeName != target.name then
    throw (.typeMismatch target.name (.record target.name) ("record " ++ record.typeName))
  let fresh ← m.encodeStruct record
  if fresh.bytes.length != target.bytes.length then
    throw (.bufferSize target.name fresh.bytes.length target.bytes.length)
  pure { target with bytes := fresh.bytes }

/-- Gives a scripting value to a native parameter or return of a declared type. -/
def toNative (m : Marshaler) (type : TypeRef) (value : Value) (path : String) :
    Except MarshalError NativeArg :=
  match type with
  | .void => .ok .void
  | .scalar kind => (toScalar kind path value).map NativeArg.scalar
  | .fixedText width => (fixedTextBytes path width value).map NativeArg.text
  | .cString =>
    match value with
    | .null => .ok .null
    | other =>
      match other.textBytes? with
      | none => .error (.typeMismatch path .cString other.shape)
      | some octets =>
        if octets.contains 0 then
          .error (.typeMismatch path .nulFree "text with embedded NUL")
        else .ok (.text octets)
  | .struct name =>
    match value with
    | .null => .ok .null
    | .record typeName fields =>
      if typeName = name then (m.encodeStruct ⟨typeName, fields⟩).map NativeArg.struct
      else .error (.typeMismatch path (.record name) value.shape)
    | other => .error (.typeMismatch path (.record name) other.shape)
  | .object _ => .error (.unsupported path type)
  | .unsupported _ => .error (.unsupported path type)

/-- A record of a struct with every field zero. -/
def newRecord (m : Marshaler) (name : String) : Except MarshalError Record := do
  let layout ← m.layouts.require name
  m.decodeFields m.depth layout (List.replicate layout.size 0)

/-- The zero of a type as scripting code sees it. -/
def defaultValue (m : Marshaler) : TypeRef → Value
  | .scalar kind =>
    match ofScalar "" (Scalar.zero kind) with
    | .ok value => value
    | .error _ => .int 0
  | .fixedText _ => .text ""
  | .cString => .text ""
  | .struct name =>
    match m.newRecord name with
    | .ok record => record.toValue
    | .error _ => .null
  | .void => .null
  | .object _ => .null
  | .unsupported _ => .null

/-- The zero of a type as a native caller gets it. -/
def defaultNative : TypeRef → NativeArg
  | .void => .void
  | .scalar kind => .scalar (Scalar.zero kind)
  | .fixedText _ => .text []
  | .cString => .null
  | .struct _ => .null
  | .object _ => .null
  | .unsupported _ => .null

end Marshaler

end NativeBinding
