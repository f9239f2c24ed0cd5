import NativeBinding.Binding.Options
import NativeBinding.Toml.Json
import NativeBinding.Toml.Reader

/-! # Project manifests

The settings of a project: where its declarations and its output are, and the generator options.
Arguments of a command are laid over the options of the manifest.
-/

set_option autoImplicit false

namespace NativeBinding.Project

def manifestFile : String := "spibind.toml"

def defaultOutputDirectory : String := "generated"

structure Configuration where
  declarations : Option String := none
  outputDirectory : Option String := none
  /-- Whether files that are already in the output directory are removed. -/
  clearsOutput : Bool := true
  options : GeneratorOptions := {}
  deriving DecidableEq

/-- A manifest; one that states no configuration means the default one. -/
structure Manifest where
  stated? : Option Configuration := none
  deriving DecidableEq

def Configuration.ofJson? (value : Json) : Option Configuration :=
  match value with
  | .object members => do
    match ← Json.fields? ["declarations", "output_dir", "clear_output"] (.object members) with
    | [declarations, outputDirectory, clearsOutput] =>
      let optional := Json.withDefault none (Json.asOption Json.asText)
      some
        { declarations := ← optional declarations
          outputDirectory := ← optional outputDirectory
          clearsOutput := ← Json.withDefault true Json.asBool clearsOutput
          options := ← GeneratorOptions.ofJson? (.object members) }
    | _ => none
  | _ => none

namespace Manifest

def parse? (input : String) : Option Manifest := do
  let entries ← Toml.parse? input
  match ← Json.fields? ["generator"] (.object (Toml.entriesToJson entries)) with
  | [found] =>
    some { stated? := ← Json.withDefault none (Json.asOption Configuration.ofJson?) found }
  | _ => none

def configuration (m : Manifest) : Configuration :=
  m.stated?.getD {}

end Manifest

/-- Arguments of a command that change the options of the manifest. -/
structure Overrides where
  output : Option String := none
  moduleName : Option String := none
  ignoreNames : List String := []
  noCallbackNames : List String := []
  ignoreUnsupported : Bool := false
  stripPrefix : Option String := none
  noConstants : Bool := false
  ignoreUnderlinePrefixed : Bool := false
  maxLinesPerFile : Option Nat := none
  noClearOutput : Bool := false
  deriving DecidableEq

/-- Lays arguments over options: given values replace, lists are added, switches only switch. -/
def Overrides.apply (a : Overrides) (base : GeneratorOptions) : GeneratorOptions :=
  { base with
    moduleName := a.moduleName <|> base.moduleName
    ignoreNames := base.ignoreNames ++ a.ignoreNames
    noCallbackNames := base.noCallbackNames ++ a.noCallbackNames
    ignoreUnsupported := base.ignoreUnsupported || a.ignoreUnsupported
    stripPrefix := a.stripPrefix <|> base.stripPrefix
    maxLinesPerFile := a.maxLinesPerFile.getD base.maxLinesPerFile
    exposeConstants := base.exposeConstants && !a.noConstants
    ignoreUnderlinePrefixed := base.ignoreUnderlinePrefixed || a.ignoreUnderlinePrefixed }

end NativeBinding.Project
