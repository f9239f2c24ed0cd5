import NativeBinding.Json.Decode
import NativeBinding.Model.Resolver
import NativeBinding.Toml.Json
import NativeBinding.Toml.Reader

/-! # Declaration files

A file gives typedefs, constants, structs and classes as header text. `DeclarationFile.parse` reads
one from TOML, `DeclarationFile.toModel` resolves every declaration in it.
-/

set_option autoImplicit false

namespace NativeBinding

structure StructEntry where
  name : String
  fields : List String := []
  deriving DecidableEq

structure ClassEntry where
  name : String
  isInterface : Bool := false
  base : Option String := none
  methods : List String := []
  deriving DecidableEq

/-- A declaration file; typedefs and constants are in name order. -/
structure DeclarationFile where
  library : LibraryInfo
  typedefs : List (String × String) := []
  constants : List (String × ConstValue) := []
  structs : List StructEntry := []
  classes : List ClassEntry := []
  deriving DecidableEq

def LibraryInfo.ofJson? (value : Json) : Option LibraryInfo := do
  match ← Json.fields? ["name", "version", "headers"] value with
  | [name, version, headers] =>
    let name ← Json.required Json.asText name
    let version ← Json.withDefault none (Json.asOption Json.asText) version
    let headers ← Json.withDefault [] (Json.asList Json.asText) headers
    some { name, version, headers }
  | _ => none

/-- A constant keeps the type it is written with; a whole number above 63 bits becomes a float. -/
def ConstValue.ofJson? : Json → Option ConstValue
  | .bool value => some (.bool value)
  | .int n =>
    match Json.asInt64 (.int n) with
    | some value => some (.int value)
    | none => some (.float (Ieee.Binary64.ofInt n))
  | .float value => some (.float value)
  | .text value => some (.text value)
  | _ => none

private def structEntryOfJson? (value : Json) : Option StructEntry := do
  match ← Json.fields? ["name", "fields"] value with
  | [name, fields] =>
    let name ← Json.required Json.asText name
    let fields ← Json.withDefault [] (Json.asList Json.asText) fields
    some { name, fields }
  | _ => none

private def classEntryOfJson? (value : Json) : Option ClassEntry := do
  match ← Json.fields? ["name", "interface", "base", "methods"] value with
  | [name, isInterface, base, methods] =>
    let name ← Json.required Json.asText name
    let isInterface ← Json.withDefault false Json.asBool isInterface
    let base ← Json.withDefault none (Json.asOption Json.asText) base
    let methods ← Json.withDefault [] (Json.asList Json.asText) methods
    some { name, isInterface, base, methods }
  | _ => none

namespace DeclarationFile

def ofJson? (value : Json) : Option DeclarationFile := do
  match ← Json.fields? ["library", "typedefs", "constants", "structs", "classes"] value with
  | [library, typedefs, constants, structs, classes] =>
    let library ← Json.required LibraryInfo.ofJson? library
    let typedefs ← Json.withDefault [] (Json.asMap Json.asText) typedefs
    let constants ← Json.withDefault [] (Json.asMap ConstValue.ofJson?) constants
    let structs ← Json.withDefault [] (Json.asList structEntryOfJson?) structs
    let classes ← Json.withDefault [] (Json.asList classEntryOfJson?) classes
    some { library, typedefs, constants, structs, classes }
  | _ => none

def parse (input : String) : Except DeclError DeclarationFile :=
  match (Toml.parse? input).bind fun entries => ofJson? (.object (Toml.entriesToJson entries)) with
  | none => .error .document
  | some file =>
    if (Text.trim file.library.name.toList).isEmpty then .error (.model .missingLibraryName)
    else .ok file

def resolver (file : DeclarationFile) : Resolver :=
  { typedefs := file.typedefs
    structs := file.structs.map (·.name)
    classes := file.classes.map (·.name) }

def ofSignature {α : Type} : Except Header.SignatureError α → Except DeclError α
  | .ok value => .ok value
  | .error e => .error (.signature e)

def resolveField (r : Resolver) (structName text : String) : Except DeclError FieldDecl := do
  let field ← ofSignature (Header.FieldSignature.parse text)
  let site := Site.field structName field.name
  let expanded ← r.expand field.type
  if 0 < expanded.pointerDepth || expanded.isReference then throw (.model (.pointerField site))
  let type ← r.resolve field.type site
  pure { name := field.name, type }

/-- Resolves parameters in order; an unnamed one is named for its position. -/
def resolveParams (r : Resolver) (className methodName : String) :
    Nat → List Header.ParamSignature → Except DeclError (List Param)
  | _, [] => pure []
  | i, p :: rest => do
    let name := if p.name.isEmpty then "arg" ++ Text.natural i else p.name
    let type ← r.resolve p.type (.param className methodName name)
    let rest ← resolveParams r className methodName (i + 1) rest
    pure ({ name, type, default := p.default } :: rest)

def resolveMethod (r : Resolver) (className text : String) : Except DeclError MethodDecl := do
  let m ← ofSignature (Header.MethodSignature.parse text)
  let returnType ← r.resolve m.returnType (.method className m.name)
  let params ← resolveParams r className m.name 0 m.params
  pure
    { name := m.name, params, returnType
      isVirtual := m.isVirtual, isPure := m.isPure, isStatic := m.isStatic, isFinal := m.isFinal }

def toModel (file : DeclarationFile) : Except DeclError Model := do
  let r := file.resolver
  file.typedefs.forM fun t =>
    if r.structs.contains t.1 || r.classes.contains t.1 then
      throw (.model (.typedefShadows t.1))
    else pure ()
  let structs ← file.structs.mapM fun s => do
    let fields ← s.fields.mapM (resolveField r s.name)
    pure { name := s.name, fields : StructDecl }
  let classes ← file.classes.mapM fun c => do
    let methods ← c.methods.mapM (resolveMethod r c.name)
    pure { name := c.name, methods, isInterface := c.isInterface, base := c.base : ClassDecl }
  let m ← Model.new file.library structs classes
  m.withConstants (file.constants.map fun c => ⟨c.1, c.2⟩)

end DeclarationFile

def Model.parse (input : String) : Except DeclError Model := do
  (← DeclarationFile.parse input).toModel

end NativeBinding
