import NativeBinding.Binding.Basic

/-! # Bindings as JSON -/

set_option autoImplicit false

namespace NativeBinding

namespace TrampolineKind

def toJson : TrampolineKind → Json
  | constructor => .object [("kind", .text "constructor")]
  | static => .object [("kind", .text "static")]
  | register name => .object [("kind", .text "register_spi"), ("interface", .text name)]
  | init => .object [("kind", .text "init")]
  | release => .object [("kind", .text "release")]
  | call => .object [("kind", .text "call")]

def ofContent? (kind : String) (content : Json) : Option TrampolineKind :=
  match kind with
  | "constructor" => some constructor
  | "static" => some static
  | "register_spi" => do
    match ← Json.fields? ["interface"] content with
    | [name] => (Json.required Json.asText name).map register
    | _ => none
  | "init" => some init
  | "release" => some release
  | "call" => some call
  | _ => none

def ofJson? : Json → Option TrampolineKind
  | .array (.text kind :: items) => ofContent? kind (.array items)
  | .object members =>
    match members.filter fun m => m.1 == "kind" with
    | [(_, .text kind)] => ofContent? kind (.object members)
    | _ => none
  | _ => none

end TrampolineKind

namespace ParamBinding

def toJson (p : ParamBinding) : Json :=
  .object
    ([("name", .text p.name), ("ty", p.type.toJson), ("rule", p.rule.toJson)] ++
      match p.default with
      | some text => [("default", .text text)]
      | none => [])

def ofJson? (value : Json) : Option ParamBinding := do
  match ← Json.fields? ["name", "ty", "rule", "default"] value with
  | [name, type, rule, default] =>
    let name ← Json.required Json.asText name
    let type ← Json.required TypeRef.ofJson? type
    let rule ← Json.required MarshalRule.ofJson? rule
    let default ← Json.withDefault none (Json.asOption Json.asText) default
    some { name, type, rule, default }
  | _ => none

end ParamBinding

namespace Trampoline

def toJson (t : Trampoline) : Json :=
  .object
    [("name", .text t.name), ("kind", t.kind.toJson),
     ("params", .array (t.params.map ParamBinding.toJson)), ("return_type", t.returnType.toJson),
     ("return_rule", t.returnRule.toJson)]

def ofJson? (value : Json) : Option Trampoline := do
  match ← Json.fields? ["name", "kind", "params", "return_type", "return_rule"] value with
  | [name, kind, params, returnType, returnRule] =>
    let name ← Json.required Json.asText name
    let kind ← Json.required TrampolineKind.ofJson? kind
    let params ← Json.required (Json.asList ParamBinding.ofJson?) params
    let returnType ← Json.required TypeRef.ofJson? returnType
    let returnRule ← Json.required MarshalRule.ofJson? returnRule
    some { name, kind, params, returnType, returnRule }
  | _ => none

end Trampoline

namespace OverrideSlot

def toJson (s : OverrideSlot) : Json :=
  .object
    [("name", .text s.name), ("params", .array (s.params.map ParamBinding.toJson)),
     ("return_type", s.returnType.toJson), ("return_rule", s.returnRule.toJson),
     ("is_pure", .bool s.isPure)]

def ofJson? (value : Json) : Option OverrideSlot := do
  match ← Json.fields? ["name", "params", "return_type", "return_rule", "is_pure"] value with
  | [name, params, returnType, returnRule, isPure] =>
    let name ← Json.required Json.asText name
    let params ← Json.required (Json.asList ParamBinding.ofJson?) params
    let returnType ← Json.required TypeRef.ofJson? returnType
    let returnRule ← Json.required MarshalRule.ofJson? returnRule
    let isPure ← Json.required Json.asBool isPure
    some { name, params, returnType, returnRule, isPure }
  | _ => none

end OverrideSlot

namespace SkippedMethod

def toJson (s : SkippedMethod) : Json :=
  .object [("name", .text s.name), ("reason", .text s.reason)]

def ofJson? (value : Json) : Option SkippedMethod := do
  match ← Json.fields? ["name", "reason"] value with
  | [name, reason] =>
    let name ← Json.required Json.asText name
    let reason ← Json.required Json.asText reason
    some { name, reason }
  | _ => none

end SkippedMethod

namespace ClassBinding

def toJson (c : ClassBinding) : Json :=
  .object
    ([("class_name", .text c.className), ("exposed_name", .text c.exposedName),
      ("is_interface", .bool c.isInterface),
      ("constructors", .array (c.constructors.map Trampoline.toJson)),
      ("methods", .array (c.methods.map Trampoline.toJson)),
      ("overrides", .array (c.overrides.map OverrideSlot.toJson))] ++
      if c.skipped.isEmpty then []
      else [("skipped", .array (c.skipped.map SkippedMethod.toJson))])

def ofJson? (value : Json) : Option ClassBinding := do
  let names := ["class_name", "exposed_name", "is_interface", "constructors", "methods",
    "overrides", "skipped"]
  match ← Json.fields? names value with
  | [className, exposedName, isInterface, constructors, methods, overrides, skipped] =>
    let className ← Json.required Json.asText className
    let exposedName ← Json.required Json.asText exposedName
    let isInterface ← Json.required Json.asBool isInterface
    let constructors ← Json.required (Json.asList Trampoline.ofJson?) constructors
    let methods ← Json.required (Json.asList Trampoline.ofJson?) methods
    let overrides ← Json.required (Json.asList OverrideSlot.ofJson?) overrides
    let skipped ← Json.withDefault [] (Json.asList SkippedMethod.ofJson?) skipped
    some { className, exposedName, isInterface, constructors, methods, overrides, skipped }
  | _ => none

end ClassBinding

namespace RecordBinding

def toJson (r : RecordBinding) : Json :=
  .object
    [("struct_name", .text r.structName), ("exposed_name", .text r.exposedName),
     ("fields", .array (r.fields.map FieldDecl.toJson))]

def ofJson? (value : Json) : Option RecordBinding := do
  match ← Json.fields? ["struct_name", "exposed_name", "fields"] value with
  | [structName, exposedName, fields] =>
    let structName ← Json.required Json.asText structName
    let exposedName ← Json.required Json.asText exposedName
    let fields ← Json.required (Json.asList FieldDecl.ofJson?) fields
    some { structName, exposedName, fields }
  | _ => none

end RecordBinding

end NativeBinding
