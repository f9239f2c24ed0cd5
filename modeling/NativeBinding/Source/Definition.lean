import NativeBinding.Binding.Json
import NativeBinding.Model.Json
import NativeBinding.Source.Identifier
import NativeBinding.Source.Template

/-! # Generated definitions

The source text of a constant, a record, an API class and an interface. The text is a function of
the other parts of a binding, which keeps it. Every definition ends its last line.
-/

set_option autoImplicit false

namespace NativeBinding

open Source

def ConstDecl.source (c : ConstDecl) : String :=
  lines ["pub const " ++ rawIdentifier c.name ++ ": " ++ c.value.sourceType ++ " = " ++
    c.value.literal ++ ";"]

namespace ParamBinding

def signature (p : ParamBinding) : String :=
  match p.default with
  | some text => p.name ++ ": " ++ p.type.render ++ " = " ++ text
  | none => p.name ++ ": " ++ p.type.render

def identifier (p : ParamBinding) : String :=
  Source.identifier p.name

end ParamBinding

namespace Source

def signature (name : String) (params : List ParamBinding) (returnType : TypeRef) : String :=
  let call := name ++ "(" ++ Text.join ", " (params.map ParamBinding.signature) ++ ")"
  if returnType = .void then call else call ++ " -> " ++ returnType.render

def valueParams (params : List ParamBinding) : String :=
  String.join (params.map fun p => ", " ++ p.identifier ++ ": Value")

def argumentList (params : List ParamBinding) : String :=
  Text.join ", " (params.map ParamBinding.identifier)

def nativeNameLine (name : String) : String :=
  "    pub const NATIVE_NAME: &'static str = " ++ Text.Quoted.encode name ++ ";"

def functionLines (head result body : String) : List String :=
  ["    pub fn " ++ head ++ " -> " ++ result ++ " \x7b", "        " ++ body, "    \x7d"]

def skippedLines (skipped : List SkippedMethod) : List String :=
  skipped.flatMap fun s => ["", "    // skipped " ++ s.name ++ ": " ++ s.reason]

def constructorLines (t : Trampoline) : List String :=
  ["", "    /// `" ++ signature t.name t.params t.returnType ++ "`"] ++
    functionLines
      (Source.identifier t.name ++ "(module: &LoadedModule" ++ valueParams t.params ++ ")")
      "Result<Self, CallError>"
      ("module.construct(Self::NATIVE_NAME, " ++ Text.Quoted.encode t.name ++ ", &[" ++
        argumentList t.params ++ "]).map(Self)")

def bodyLines (t : Trampoline) : List String :=
  let name := Source.identifier t.name
  let values := valueParams t.params
  let args := Text.Quoted.encode t.name ++ ", &[" ++ argumentList t.params ++ "])"
  match t.kind with
  | .register _ =>
    functionLines (name ++ "(&self, spi: &SpiObject)") "Result<(), CallError>"
      "self.0.register_spi(spi)"
  | .init => functionLines (name ++ "(&self)") "Result<(), CallError>" "self.0.init()"
  | .release => functionLines (name ++ "(&self)") "Result<(), CallError>" "self.0.release()"
  | .static =>
    functionLines (name ++ "(module: &LoadedModule" ++ values ++ ")") "Result<Value, CallError>"
      ("module.call_static(Self::NATIVE_NAME, " ++ args)
  | .call | .constructor =>
    functionLines (name ++ "(&self" ++ values ++ ")") "Result<Value, CallError>"
      ("self.0.invoke(" ++ args)

def methodLines (t : Trampoline) : List String :=
  ["", "    /// `" ++ signature t.name t.params t.returnType ++ "`"] ++ bodyLines t

def apiLines (c : ClassBinding) : List String :=
  ["/// Wrapper for native class `" ++ c.className ++ "`.",
   "pub struct " ++ c.exposedName ++ "(pub ApiObject);",
   "",
   "impl " ++ c.exposedName ++ " \x7b",
   nativeNameLine c.className] ++
  c.constructors.flatMap constructorLines ++
  c.methods.flatMap methodLines ++
  skippedLines c.skipped ++
  ["\x7d"]

/-- The lines of an interface, with its hooks in table order. -/
def interfaceLines (c : ClassBinding) : List String :=
  ["/// Overridable wrapper for native interface `" ++ c.className ++ "`.",
   "///",
   "/// Handler methods named after a hook are called from the native callback thread",
   "/// under the runtime lock; unimplemented hooks return their default.",
   "pub struct " ++ c.exposedName ++ ";",
   "",
   "impl " ++ c.exposedName ++ " \x7b",
   nativeNameLine c.className,
   "",
   "    /// Overridable hooks in dispatch-table order.",
   "    pub const HOOKS: &'static [&'static str] = &["] ++
  (c.overrides.flatMap fun s =>
    ["        // " ++ signature s.name s.params s.returnType,
     "        " ++ Text.Quoted.encode s.name ++ ","]) ++
  ["    ];",
   "",
   "    pub fn new(",
   "        module: &LoadedModule,",
   "        handler: &Arc<ScriptObject>,",
   "    ) -> Result<SpiObject, BridgeError> \x7b",
   "        module.new_spi(Self::NATIVE_NAME, handler)",
   "    \x7d"] ++
  skippedLines c.skipped ++
  ["\x7d"]

/-- The lines of a record, with its fields in memory order. -/
def recordLines (r : RecordBinding) : List String :=
  ["/// Record for native struct `" ++ r.structName ++ "`.",
   "pub struct " ++ r.exposedName ++ ";",
   "",
   "impl " ++ r.exposedName ++ " \x7b",
   nativeNameLine r.structName,
   "    pub const FIELDS: &'static [&'static str] = &["] ++
  (r.fields.map fun f =>
    "        " ++ Text.Quoted.encode f.name ++ ", // " ++ f.type.render) ++
  ["    ];",
   "",
   "    /// A zero-filled record.",
   "    pub fn new(module: &LoadedModule) -> Result<Record, BridgeError> \x7b",
   "        module.new_record(Self::NATIVE_NAME)",
   "    \x7d",
   "\x7d"]

end Source

def ClassBinding.render (c : ClassBinding) : String :=
  lines (if c.isInterface then interfaceLines c else apiLines c)

def ClassBinding.rendered (c : ClassBinding) : ClassBinding :=
  { c with source := c.render }

def RecordBinding.render (r : RecordBinding) : String :=
  lines (recordLines r)

def RecordBinding.rendered (r : RecordBinding) : RecordBinding :=
  { r with source := r.render }

def ClassBinding.fingerprint (c : ClassBinding) : String :=
  (Json.array [c.toJson, .text c.source]).contentHash

end NativeBinding
