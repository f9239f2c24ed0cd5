import NativeBinding.Module.Surface

/-! # Module files

The source of a module, as one text or cut into files, beside its description. A module that is
longer than the line limit keeps its definitions in numbered files, each a run of consecutive
definitions, and includes them from the root file.
-/

set_option autoImplicit false

namespace NativeBinding

open Source

/-- The number of lines; an end of line at the very end starts no other line. -/
def lineCount (text : String) : Nat :=
  let rec go (pending : Nat) : List Char → Nat
    | [] => pending
    | c :: rest => if c == '\n' then go 0 rest + 1 else go 1 rest
  go 0 text.toList

/-- Files by name, in name order. -/
abbrev FileSet := List (String × String)

namespace FileSet

def ofList (files : List (String × String)) : FileSet :=
  files.mergeSort fun a b => !decide (b.1 < a.1)

def text? (files : FileSet) (name : String) : Option String :=
  (files.find? fun f => f.1 == name).map (·.2)

def names (files : FileSet) : List String :=
  files.map (·.1)

def listing (files : FileSet) : String :=
  lines (("# of files generated : " ++ Text.natural files.length) :: names files)

end FileSet

namespace Module

def generatorVersion : String := "0.1.0"

def rootFile : String := "module.rs"

def surfaceFile : String := "surface.json"

def definitions (m : Module) : List String :=
  m.records.map (·.source) ++ m.classes.map (·.source)

def headerComments (m : Module) : String :=
  lines (m.library.headers.map ("// native header: " ++ ·))

private def nameTable (item : String) (names : List String) : List String :=
  ["pub const " ++ item ++ ": &[&str] = &["] ++
    names.map (fun name => "    " ++ Text.Quoted.encode name ++ ",") ++ ["];"]

def body (m : Module) : String :=
  let identity := lines
    ["pub const MODULE_NAME: &str = " ++ Text.Quoted.encode m.name ++ ";",
     "pub const MODEL_FINGERPRINT: &str = " ++ Text.Quoted.encode m.modelFingerprint ++ ";",
     ""]
  let constants :=
    if m.constants.isEmpty then ""
    else "// Declared constants.\n" ++ String.join (m.constants.map ConstDecl.source) ++ "\n"
  let tables := lines
    (["/// Exposed records in registration order."] ++
      nameTable "RECORDS" (m.records.map (·.exposedName)) ++
     ["", "/// Exposed classes in registration order."] ++
      nameTable "CLASSES" (m.classes.map (·.exposedName)) ++
     ["", "/// Surface description for `LoadedModule::load`.",
      "pub const SURFACE_JSON: &str = include_str!(" ++ Text.Quoted.encode surfaceFile ++ ");"])
  identity ++ constants ++ tables

def trimmedEnd (text : String) : String :=
  String.ofList (Text.trimEnd text.toList)

def renderRoot (m : Module) (includes definitions : String) : String :=
  fill moduleTemplate
    [("library", m.library.name ++ " " ++ m.library.version.getD "unversioned"),
     ("module_name", m.name),
     ("generator_version", generatorVersion),
     ("model_fingerprint", m.modelFingerprint),
     ("includes", trimmedEnd includes),
     ("classes_generator_definitions", trimmedEnd definitions),
     ("module_body", trimmedEnd m.body)]

def source (m : Module) : String :=
  m.renderRoot m.headerComments (Text.join "\n" m.definitions)

def fingerprint (m : Module) : String :=
  Digest.Sha256.ofText m.source

/-- Cuts definitions into runs. A run ends before a definition that would take its file over the
limit, so only a run of one definition can be longer. -/
def runs (limit : Nat) (definitions : List String) : List (List String) :=
  let rec go (run : List String) (size : Nat) : List String → List (List String)
    | [] => if run.isEmpty then [] else [run.reverse]
    | d :: rest =>
      let length := lineCount d + 1
      if !run.isEmpty && limit < lineCount chunkTemplate + size + length then
        run.reverse :: go [d] length rest
      else go (d :: run) (size + length) rest
  go [] 0 definitions

/-- The texts that the numbered files of a split module hold. -/
def chunks (m : Module) (limit : Nat) : List String :=
  (runs limit m.definitions).map (Text.join "\n")

def chunkName (i : Nat) : String :=
  "classes_" ++ Text.natural i

def renderChunk (m : Module) (chunk : String) : String :=
  fill chunkTemplate [("module_name", m.name), ("classes_generator_definitions", chunk)]

def includes (m : Module) (count : Nat) : String :=
  m.headerComments ++ lines ((List.range count).flatMap fun i =>
    ["mod " ++ chunkName i ++ ";", "pub use " ++ chunkName i ++ "::*;"])

def sourceFiles (m : Module) (limit : Nat) : List (String × String) :=
  let whole := m.source
  if lineCount whole ≤ limit then [(rootFile, whole)]
  else
    let chunks := m.chunks limit
    (rootFile, m.renderRoot (m.includes chunks.length) "") ::
      chunks.zipIdx.map fun (chunk, i) => (chunkName i ++ ".rs", m.renderChunk chunk)

/-- All files of a module. Limits that are too small are raised to the least one. -/
def toFiles (m : Module) (maxLines : Nat) : FileSet :=
  FileSet.ofList
    ((surfaceFile, m.surface) :: m.sourceFiles (max maxLines leastLinesPerFile))

end Module

end NativeBinding
