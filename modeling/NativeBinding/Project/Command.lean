import NativeBinding.Project.Arguments
import NativeBinding.Project.FileSystem
import NativeBinding.Project.Inspection

/-! # Commands

A command finds the manifest of its project, reads the declarations and makes the module. Only
`generate` writes, and only after everything before it went well.
-/

set_option autoImplicit false

namespace NativeBinding.Project

/-- What a command was doing with a module. -/
inductive Activity where
  | generating
  | checking
  deriving DecidableEq

inductive CommandError where
  | manifestFile (path : String) (cause : FileError)
  | manifest (path : String)
  | noDeclarations
  | declarationFile (path : String) (cause : FileError)
  | declarations (path : String) (cause : DeclError)
  | module (activity : Activity) (path : String) (cause : GenError)
  | layout (cause : MarshalError)
  | format (name : String)
  | output (path : String) (cause : FileError)
  deriving DecidableEq

private def fileTrouble (cause : FileError) : String :=
  s!"I/O error: {cause.message}: {cause.message}"

def CommandError.message : CommandError → String
  | manifestFile path cause => s!"reading {path}: {cause.message}"
  | manifest path => s!"parsing {path}: TOML parse error"
  | noDeclarations => "no declaration file given and none configured in spibind.toml"
  | declarationFile path cause => s!"loading declarations {path}: {fileTrouble cause}"
  | declarations path cause => s!"loading declarations {path}: {cause.message}"
  | module .generating path cause => s!"generating bindings for {path}: {cause.message}"
  | module .checking path cause => s!"checking {path}: {cause.message}"
  | layout cause => cause.message
  | format name => s!"unknown format '{name}' (expected text or json)"
  | output path cause => s!"writing {path}: {fileTrouble cause}"

structure Outcome where
  exit : Nat := 0
  output : String := ""
  error : Option String := none
  deriving DecidableEq

namespace Outcome

def failure (e : CommandError) : Outcome :=
  { exit := 1, error := some ("error: " ++ e.message) }

def ofResult : Except CommandError String → Outcome
  | .ok text => { output := text }
  | .error e => failure e

end Outcome

/-- A project by the path of its directory. -/
structure Found where
  directory : String
  configuration : Configuration
  deriving DecidableEq

/-- The declaration file of a command: the one given, or the one of the manifest. -/
def Found.declarations (p : Found) (given : Option String) : Except CommandError String :=
  match given, p.configuration.declarations with
  | some path, _ => .ok path
  | none, some path => .ok (joinPath p.directory path)
  | none, none => .error .noDeclarations

variable {m : Type → Type} [Monad m]

namespace FileSystem

/-- The nearest manifest at or above a directory; without one the directory is the project. -/
def findProject (fs : FileSystem m) (working : Directory) : ExceptT CommandError m Found :=
  let rec go : List Directory → ExceptT CommandError m Found
    | [] => pure ⟨working.path, {}⟩
    | d :: above => do
      let path := joinPath d.path manifestFile
      if ← (fs.isFile path : m Bool) then
        match ← (fs.readText path : m _) with
        | .error e => throw (.manifestFile path e)
        | .ok text =>
          match Manifest.parse? text with
          | some manifest => pure ⟨d.path, manifest.configuration⟩
          | none => throw (.manifest path)
      else go above
  go working.ancestors

def loadModel (fs : FileSystem m) (path : String) : ExceptT CommandError m Model := do
  match ← (fs.readText path : m _) with
  | .error e => throw (.declarationFile path e)
  | .ok text =>
    match Model.parse text with
    | .ok model => pure model
    | .error e => throw (.declarations path e)

def make (activity : Activity) (path : String) (model : Model)
    (options : GeneratorOptions) : ExceptT CommandError m Module :=
  match Module.generate model options with
  | .ok made => pure made
  | .error e => throw (.module activity path e)

def orThrow {α : Type} (path : String) (action : m (Except FileError α)) :
    ExceptT CommandError m α := do
  match ← (action : m _) with
  | .ok value => pure value
  | .error e => throw (.output path e)

/-- Writes files into a directory, which is made if it is missing and emptied of files on demand. -/
def writeFiles (fs : FileSystem m) (directory : String) (clears : Bool) (files : FileSet) :
    ExceptT CommandError m Unit := do
  orThrow directory (fs.makeDirectories directory)
  if clears then
    let names ← orThrow directory (fs.fileNames directory)
    names.forM fun name => orThrow directory (fs.remove (joinPath directory name))
  files.forM fun file => orThrow directory (fs.writeText (joinPath directory file.1) file.2)

def run (fs : FileSystem m) (working : Directory) (command : Command) :
    ExceptT CommandError m String := do
  let project ← fs.findProject working
  match command with
  | .generate given overrides =>
    let path ← ExceptT.mk (pure (project.declarations given))
    let model ← fs.loadModel path
    let options := overrides.apply project.configuration.options
    let made ← make .generating path model options
    let files := made.toFiles options.linesPerFile
    let directory := match overrides.output with
      | some directory => directory
      | none => joinPath project.directory
          (project.configuration.outputDirectory.getD defaultOutputDirectory)
    fs.writeFiles directory (project.configuration.clearsOutput && !overrides.noClearOutput) files
    pure files.listing
  | .inspect given format =>
    let path ← ExceptT.mk (pure (project.declarations given))
    let model ← fs.loadModel path
    let made ← make .generating path model project.configuration.options
    match format with
    | "text" =>
      match made.view model with
      | .ok view => pure (view ++ "\n")
      | .error e => throw (.layout e)
    | "json" => pure made.surface
    | name => throw (.format name)
  | .check given =>
    let path ← ExceptT.mk (pure (project.declarations given))
    let model ← fs.loadModel path
    let made ← make .checking path model project.configuration.options
    let files := made.toFiles project.configuration.options.linesPerFile
    let skipped := made.classes.foldl (fun n c => n + c.skipped.length) 0
    let summary := "ok: module " ++ made.name ++ " (" ++ Text.natural made.records.length ++
      " records, " ++ Text.natural made.classes.length ++ " classes, " ++
      Text.natural files.length ++ " files)\n"
    pure
      (if 0 < skipped then
        summary ++ "    " ++ Text.natural skipped ++ " methods skipped as unsupported\n"
       else summary)

def call (fs : FileSystem m) (working : Directory) (arguments : List String) : m Outcome :=
  match Invocation.ofArguments? arguments with
  | none => pure { exit := 2 }
  | some (.print text) => pure { output := text }
  | some (.run command) => Outcome.ofResult <$> (fs.run working command).run

end FileSystem

end NativeBinding.Project
