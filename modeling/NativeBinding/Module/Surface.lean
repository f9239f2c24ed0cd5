import NativeBinding.Json.Reader
import NativeBinding.Module.Basic

/-! # Module descriptions

The document from which a module is loaded. It holds the bindings without their source, which is
rendered again once they are read.
-/

set_option autoImplicit false

namespace NativeBinding.Module

def toJson (m : Module) : Json :=
  .object
    ([("module_name", .text m.name), ("library", m.library.toJson),
      ("model_fingerprint", .text m.modelFingerprint),
      ("records", .array (m.records.map RecordBinding.toJson)),
      ("classes", .array (m.classes.map ClassBinding.toJson))] ++
      if m.constants.isEmpty then []
      else [("constants", .array (m.constants.map ConstDecl.toJson))])

def ofJson? (value : Json) : Option Module := do
  let names := ["module_name", "library", "model_fingerprint", "records", "classes", "constants"]
  match ← Json.fields? names value with
  | [name, library, modelFingerprint, records, classes, constants] =>
    let name ← Json.required Json.asText name
    let library ← Json.required LibraryInfo.ofJson? library
    let modelFingerprint ← Json.required Json.asText modelFingerprint
    let records ← Json.required (Json.asList RecordBinding.ofJson?) records
    let classes ← Json.required (Json.asList ClassBinding.ofJson?) classes
    let constants ← Json.withDefault [] (Json.asList ConstDecl.ofJson?) constants
    some { name, library, modelFingerprint, records, classes, constants }
  | _ => none

def surface (m : Module) : String :=
  m.toJson.indented ++ "\n"

/-- The module with the source of every record and class rendered from its binding. -/
def rendered (m : Module) : Module :=
  { m with
    records := m.records.map RecordBinding.rendered
    classes := m.classes.map ClassBinding.rendered }

def ofSurface (text : String) : Except GenError Module :=
  match (Json.parse? text).bind ofJson? with
  | some m => .ok m.rendered
  | none => .error .description

end NativeBinding.Module
