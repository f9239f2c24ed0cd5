import NativeBinding.Project.Manifest
import NativeBinding.Source.Template

/-! # Command arguments

Arguments of a call are read against a table of options for each command. A value stands in the same
argument or in the next one, which must not look like an option; an option that is not repeatable
may stand once.
-/

set_option autoImplicit false

namespace NativeBinding.Project

inductive Command where
  | generate (declarations : Option String) (overrides : Overrides)
  | inspect (declarations : Option String) (format : String)
  | check (declarations : Option String)
  deriving DecidableEq

inductive Invocation where
  | run (command : Command)
  | print (text : String)
  deriving DecidableEq

namespace Arguments

inductive OptionKind where
  | switch
  /-- A switch that may be repeated. -/
  | count
  | value
  /-- An option that may be given several times. -/
  | values
  | help
  | version
  deriving DecidableEq

structure OptionSpec where
  long : String
  short : Option Char := none
  kind : OptionKind
  accepts : String → Bool := fun _ => true

def OptionSpec.takesValue (o : OptionSpec) : Bool :=
  o.kind == .value || o.kind == .values

inductive Stop where
  | misuse
  | help
  | version
  deriving DecidableEq

structure Found where
  switches : List String := []
  values : List (String × String) := []
  positional : Option String := none

namespace Found

def value? (m : Found) (name : String) : Option String :=
  (m.values.find? fun v => v.1 == name).map (·.2)

def valuesOf (m : Found) (name : String) : List String :=
  m.values.filterMap fun v => if v.1 == name then some v.2 else none

def give (m : Found) (o : OptionSpec) (value : String) : Except Stop Found :=
  if !o.accepts value || (o.kind == .value && (m.value? o.long).isSome) then .error .misuse
  else .ok { m with values := m.values ++ [(o.long, value)] }

def switchOn (m : Found) (o : OptionSpec) : Except Stop Found :=
  match o.kind with
  | .help => .error .help
  | .version => .error .version
  | .count => .ok m
  | .switch =>
    if m.switches.contains o.long then .error .misuse
    else .ok { m with switches := o.long :: m.switches }
  | .value => .error .misuse
  | .values => .error .misuse

/-- A path may stand once and is not empty. -/
def takePositional (m : Found) (path : String) : Except Stop Found :=
  if m.positional.isSome || path.isEmpty then .error .misuse
  else .ok { m with positional := some path }

end Found

private def splitAtEquals : List Char → List Char × Option (List Char)
  | [] => ([], none)
  | '=' :: rest => ([], some rest)
  | c :: rest =>
    let (name, value) := splitAtEquals rest
    (c :: name, value)

/-- An option by its long name. The answer says which option still waits for its value. -/
def longOption (options : List OptionSpec) (m : Found) (body : List Char) :
    Except Stop (Option OptionSpec × Found) :=
  let (name, value) := splitAtEquals body
  match options.find? fun o => o.long.toList == name with
  | none => .error .misuse
  | some o =>
    match value with
    | some chars =>
      if o.takesValue then (m.give o (String.ofList chars)).map (none, ·) else .error .misuse
    | none => if o.takesValue then .ok (some o, m) else (m.switchOn o).map (none, ·)

/-- Options by their letters; the rest of the argument is the value of the first that takes one. -/
def shortOptions (options : List OptionSpec) (m : Found) :
    List Char → Except Stop (Option OptionSpec × Found)
  | [] => .ok (none, m)
  | c :: rest =>
    match options.find? fun o => o.short == some c with
    | none => .error .misuse
    | some o =>
      if o.takesValue then
        match rest with
        | [] => .ok (some o, m)
        | '=' :: value => (m.give o (String.ofList value)).map (none, ·)
        | value => (m.give o (String.ofList value)).map (none, ·)
      else
        match m.switchOn o with
        | .ok m => shortOptions options m rest
        | .error e => .error e

private def looksLikeOption : List Char → Bool
  | '-' :: _ :: _ => true
  | _ => false

/-- The arguments of one command. `waiting` is the option whose value comes next. -/
def scan (options : List OptionSpec) : Option OptionSpec → Found → List String → Except Stop Found
  | none, m, [] => .ok m
  | some _, _, [] => .error .misuse
  | some o, m, arg :: rest =>
    if looksLikeOption arg.toList then .error .misuse
    else
      match m.give o arg with
      | .ok m => scan options none m rest
      | .error e => .error e
  | none, m, arg :: rest =>
    match arg.toList with
    | ['-', '-'] => rest.foldlM Found.takePositional m
    | '-' :: '-' :: body =>
      match longOption options m body with
      | .ok (waiting, m) => scan options waiting m rest
      | .error e => .error e
    | '-' :: c :: body =>
      match shortOptions options m (c :: body) with
      | .ok (waiting, m) => scan options waiting m rest
      | .error e => .error e
    | _ =>
      match m.takePositional arg with
      | .ok m => scan options none m rest
      | .error e => .error e

private def commonOptions : List OptionSpec :=
  [{ long := "verbose", short := some 'v', kind := .count },
   { long := "help", short := some 'h', kind := .help }]

private def versionOption : OptionSpec :=
  { long := "version", short := some 'V', kind := .version }

def isPath (text : String) : Bool :=
  !text.isEmpty

def generateOptions : List OptionSpec :=
  [{ long := "output", short := some 'o', kind := .value, accepts := isPath },
   { long := "module-name", short := some 'm', kind := .value },
   { long := "ignore-name", short := some 'i', kind := .values },
   { long := "no-callback-name", kind := .values },
   { long := "ignore-unsupported", kind := .switch },
   { long := "strip-prefix", kind := .value },
   { long := "no-constants", kind := .switch },
   { long := "ignore-underline-prefixed", kind := .switch },
   { long := "max-lines-per-file", kind := .value,
     accepts := fun text => (Text.count? text).isSome },
   { long := "no-clear-output", kind := .switch }] ++ commonOptions

def inspectOptions : List OptionSpec :=
  { long := "format", kind := .value } :: commonOptions

def checkOptions : List OptionSpec :=
  commonOptions

def overrides (m : Found) : Overrides :=
  { output := m.value? "output"
    moduleName := m.value? "module-name"
    ignoreNames := m.valuesOf "ignore-name"
    noCallbackNames := m.valuesOf "no-callback-name"
    ignoreUnsupported := m.switches.contains "ignore-unsupported"
    stripPrefix := m.value? "strip-prefix"
    noConstants := m.switches.contains "no-constants"
    ignoreUnderlinePrefixed := m.switches.contains "ignore-underline-prefixed"
    maxLinesPerFile := (m.value? "max-lines-per-file").bind Text.count?
    noClearOutput := m.switches.contains "no-clear-output" }

def versionText : String := "spibind 0.1.0\n"

private def overview : String := Source.lines
  ["Bindings for native Api/Spi callback libraries", "",
   "Usage: spibind [OPTIONS] <COMMAND>", "",
   "Commands:",
   "  generate  Generate the binding module",
   "  inspect   Describe the classes and records a declaration file exposes",
   "  check     Validate declarations and generation without writing files",
   "  help      Print this message or the help of the given subcommand(s)", "",
   "Options:",
   "  -v, --verbose...  Increase log verbosity (-v info, -vv debug)",
   "  -h, --help        Print help",
   "  -V, --version     Print version"]

private def generateHelp : String := Source.lines
  ["Generate the binding module", "",
   "Usage: spibind generate [OPTIONS] [DECL]", "",
   "Arguments:",
   "  [DECL]  Declaration file (.bind.toml); defaults to the manifest's", "",
   "Options:",
   "  -o, --output <OUTPUT>",
   "          Output directory",
   "  -v, --verbose...",
   "          Increase log verbosity (-v info, -vv debug)",
   "  -m, --module-name <MODULE_NAME>",
   "          Module name (defaults to the library name)",
   "  -i, --ignore-name <IGNORE_NAME>",
   "          Regex of symbols to leave out (repeatable)",
   "      --no-callback-name <NO_CALLBACK_NAME>",
   "          Regex of interface methods that are not overridable (repeatable)",
   "      --ignore-unsupported",
   "          Skip methods with unsupported types instead of failing",
   "      --strip-prefix <STRIP_PREFIX>",
   "          Prefix removed from exposed class and struct names",
   "      --no-constants",
   "          Leave declared constants out of the module",
   "      --ignore-underline-prefixed",
   "          Leave out every symbol whose name starts with an underscore",
   "      --max-lines-per-file <MAX_LINES_PER_FILE>",
   "          Line budget per generated file (minimum 200)",
   "      --no-clear-output",
   "          Keep existing files in the output directory",
   "  -h, --help",
   "          Print help"]

private def inspectHelp : String := Source.lines
  ["Describe the classes and records a declaration file exposes", "",
   "Usage: spibind inspect [OPTIONS] [DECL]", "",
   "Arguments:",
   "  [DECL]  ", "",
   "Options:",
   "      --format <FORMAT>  Output format (text, json) [default: text]",
   "  -v, --verbose...       Increase log verbosity (-v info, -vv debug)",
   "  -h, --help             Print help"]

private def checkHelp : String := Source.lines
  ["Validate declarations and generation without writing files", "",
   "Usage: spibind check [OPTIONS] [DECL]", "",
   "Arguments:",
   "  [DECL]  ", "",
   "Options:",
   "  -v, --verbose...  Increase log verbosity (-v info, -vv debug)",
   "  -h, --help        Print help"]

private def helpHelp : String := Source.lines
  ["Print this message or the help of the given subcommand(s)", "",
   "Usage: spibind help [COMMAND]", "",
   "Arguments:",
   "  [COMMAND]  Print help for the subcommand(s)"]

def helpFor? : List String → Option String
  | [] => some overview
  | ["generate"] => some generateHelp
  | ["inspect"] => some inspectHelp
  | ["check"] => some checkHelp
  | ["help"] => some helpHelp
  | _ => none

def answer (help : String) (command : Found → Command) :
    Except Stop Found → Option Invocation
  | .ok m => some (.run (command m))
  | .error .help => some (.print help)
  | .error .version => some (.print versionText)
  | .error .misuse => none

/-- Options before the command, then the arguments of the command. -/
def read : Found → List String → Option Invocation
  | _, [] => none
  | m, arg :: rest =>
    match arg with
    | "generate" => answer generateHelp (fun m => .generate m.positional (overrides m))
        (scan generateOptions none {} rest)
    | "inspect" =>
      answer inspectHelp (fun m => .inspect m.positional ((m.value? "format").getD "text"))
        (scan inspectOptions none {} rest)
    | "check" => answer checkHelp (fun m => .check m.positional) (scan checkOptions none {} rest)
    | "help" => (helpFor? rest).map .print
    | _ =>
      let options := versionOption :: commonOptions
      let step : Except Stop (Option OptionSpec × Found) := match arg.toList with
        | ['-', '-'] => .error .misuse
        | '-' :: '-' :: body => longOption options m body
        | '-' :: c :: body => shortOptions options m (c :: body)
        | _ => .error .misuse
      match step with
      | .ok (_, m) => read m rest
      | .error .help => some (.print overview)
      | .error .version => some (.print versionText)
      | .error .misuse => none

end Arguments

def Invocation.ofArguments? (arguments : List String) : Option Invocation :=
  Arguments.read {} arguments

end NativeBinding.Project
