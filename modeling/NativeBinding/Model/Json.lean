import NativeBinding.Digest.Sha256
import NativeBinding.Json.Decode
import NativeBinding.Json.Printer
import NativeBinding.Model.File

/-! # Declarations as JSON

The document form of a model's declarations, both ways, and the fingerprint taken over it.
-/

set_option autoImplicit false

namespace NativeBinding

def ScalarKind.toJson (kind : ScalarKind) : Json :=
  .text kind.name

/-- A kind is its name; the form with a null member is read too. -/
def ScalarKind.ofJson? : Json → Option ScalarKind
  | .text name => ofName? name
  | .object [(name, .null)] => ofName? name
  | _ => none

namespace TypeRef

def toJson : TypeRef → Json
  | scalar kind => .object [("kind", .text "primitive"), ("primitive", kind.toJson)]
  | fixedText width => .object [("kind", .text "fixed_text"), ("max_len", .nat width)]
  | struct name => .object [("kind", .text "struct_ref"), ("name", .text name)]
  | object name => .object [("kind", .text "class_ref"), ("name", .text name)]
  | cString => .object [("kind", .text "c_string")]
  | void => .object [("kind", .text "void")]
  | unsupported spelling =>
    .object [("kind", .text "unsupported"), ("spelling", .text spelling)]

def ofContent? (kind : String) (content : Json) : Option TypeRef :=
  let one {α : Type} (name : String) (item : Json → Option α) : Option α := do
    match ← Json.fields? [name] content with
    | [value] => Json.required item value
    | _ => none
  match kind with
  | "primitive" => (one "primitive" ScalarKind.ofJson?).map scalar
  | "fixed_text" => (one "max_len" Json.asNat).map fixedText
  | "struct_ref" => (one "name" Json.asText).map struct
  | "class_ref" => (one "name" Json.asText).map object
  | "c_string" => some cString
  | "void" => some void
  | "unsupported" => (one "spelling" Json.asText).map unsupported
  | _ => none

/-- The kind stands as a member beside the others, or as the first item of an array. -/
def ofJson? : Json → Option TypeRef
  | .array (.text kind :: items) => ofContent? kind (.array items)
  | .object members =>
    match members.filter fun m => m.1 == "kind" with
    | [(_, .text kind)] => ofContent? kind (.object members)
    | _ => none
  | _ => none

end TypeRef

def LibraryInfo.toJson (library : LibraryInfo) : Json :=
  .object
    [("name", .text library.name), ("version", .optionText library.version),
     ("headers", .strings library.headers)]

namespace Param

def toJson (p : Param) : Json :=
  .object [("name", .text p.name), ("ty", p.type.toJson), ("default", .optionText p.default)]

def ofJson? (value : Json) : Option Param := do
  match ← Json.fields? ["name", "ty", "default"] value with
  | [name, type, default] =>
    let name ← Json.required Json.asText name
    let type ← Json.required TypeRef.ofJson? type
    let default ← Json.withDefault none (Json.asOption Json.asText) default
    some { name, type, default }
  | _ => none

end Param

namespace MethodDecl

def toJson (m : MethodDecl) : Json :=
  .object
    [("name", .text m.name), ("params", .array (m.params.map Param.toJson)),
     ("return_type", m.returnType.toJson), ("is_virtual", .bool m.isVirtual),
     ("is_pure", .bool m.isPure), ("is_static", .bool m.isStatic), ("is_final", .bool m.isFinal)]

def ofJson? (value : Json) : Option MethodDecl := do
  let names := ["name", "params", "return_type", "is_virtual", "is_pure", "is_static", "is_final"]
  match ← Json.fields? names value with
  | [name, params, returnType, isVirtual, isPure, isStatic, isFinal] =>
    let name ← Json.required Json.asText name
    let params ← Json.required (Json.asList Param.ofJson?) params
    let returnType ← Json.required TypeRef.ofJson? returnType
    let isVirtual ← Json.required Json.asBool isVirtual
    let isPure ← Json.required Json.asBool isPure
    let isStatic ← Json.withDefault false Json.asBool isStatic
    let isFinal ← Json.withDefault false Json.asBool isFinal
    some { name, params, returnType, isVirtual, isPure, isStatic, isFinal }
  | _ => none

end MethodDecl

namespace ClassDecl

def toJson (c : ClassDecl) : Json :=
  .object
    [("name", .text c.name), ("methods", .array (c.methods.map MethodDecl.toJson)),
     ("is_interface", .bool c.isInterface), ("base", .optionText c.base)]

def ofJson? (value : Json) : Option ClassDecl := do
  match ← Json.fields? ["name", "methods", "is_interface", "base"] value with
  | [name, methods, isInterface, base] =>
    let name ← Json.required Json.asText name
    let methods ← Json.required (Json.asList MethodDecl.ofJson?) methods
    let isInterface ← Json.required Json.asBool isInterface
    let base ← Json.withDefault none (Json.asOption Json.asText) base
    some { name, methods, isInterface, base }
  | _ => none

end ClassDecl

namespace FieldDecl

def toJson (f : FieldDecl) : Json :=
  .object [("name", .text f.name), ("ty", f.type.toJson)]

def ofJson? (value : Json) : Option FieldDecl := do
  match ← Json.fields? ["name", "ty"] value with
  | [name, type] =>
    some { name := ← Json.required Json.asText name, type := ← Json.required TypeRef.ofJson? type }
  | _ => none

end FieldDecl

namespace StructDecl

def toJson (s : StructDecl) : Json :=
  .object [("name", .text s.name), ("fields", .array (s.fields.map FieldDecl.toJson))]

def ofJson? (value : Json) : Option StructDecl := do
  match ← Json.fields? ["name", "fields"] value with
  | [name, fields] =>
    let name ← Json.required Json.asText name
    let fields ← Json.required (Json.asList FieldDecl.ofJson?) fields
    some { name, fields }
  | _ => none

end StructDecl

def ConstValue.toJson : ConstValue → Json
  | bool value => .bool value
  | int value => .int value.toInt
  | float value => .float value
  | text value => .text value

namespace ConstDecl

def toJson (c : ConstDecl) : Json :=
  .object [("name", .text c.name), ("value", c.value.toJson)]

def ofJson? (value : Json) : Option ConstDecl := do
  match ← Json.fields? ["name", "value"] value with
  | [name, value] =>
    some
      { name := ← Json.required Json.asText name
        value := ← Json.required ConstValue.ofJson? value }
  | _ => none

end ConstDecl

def Model.toJson (m : Model) : Json :=
  .array
    [m.library.toJson, .array (m.structs.map StructDecl.toJson),
     .array (m.classes.map ClassDecl.toJson), .array (m.constants.map ConstDecl.toJson)]

def Json.contentHash (value : Json) : String :=
  Digest.Sha256.ofText value.compact

def Model.fingerprint (m : Model) : String :=
  m.toJson.contentHash

end NativeBinding
