import NativeBinding.Binding.Error
import NativeBinding.Json.Decode
import NativeBinding.Pattern.Reader

/-! # Options and name filters

What is generated and under which names. Filters see qualified names, `Class` or `Class::Method`;
their patterns start matching at the beginning of a name.
-/

set_option autoImplicit false

namespace NativeBinding

structure GeneratorOptions where
  moduleName : Option String := none
  ignoreNames : List String := []
  noCallbackNames : List String := []
  ignoreUnsupported : Bool := false
  stripPrefix : Option String := none
  /-- Native names with their exposed names, in name order; they win over the prefix. -/
  renames : List (String × String) := []
  maxLinesPerFile : Nat := 500
  exposeConstants : Bool := true
  ignoreUnderlinePrefixed : Bool := false
  deriving DecidableEq

/-- Smaller line limits are raised to this. -/
def leastLinesPerFile : Nat := 200

def defaultLinesPerFile : Nat := 500

/-- Which native names are left out, and which hooks cannot be overridden. -/
structure SymbolFilter where
  isIgnored : String → Bool
  isNoCallback : String → Bool

/-- The part of a qualified name after its last pair of colons. -/
def ownName (qualified : String) : String :=
  let rec go : List Char → Option (List Char)
    | [] => none
    | c :: rest =>
      match go rest, c, rest with
      | some own, _, _ => some own
      | none, ':', ':' :: after => some after
      | none, _, _ => none
  match go qualified.toList with
  | some own => String.ofList own
  | none => qualified

namespace GeneratorOptions

def moduleNameFor (o : GeneratorOptions) (library : String) : Except GenError String :=
  let name := match o.moduleName with
    | some name => name
    | none => library.map fun c => if c == '-' || c == '.' || c == ' ' then '_' else c
  if Text.isIdentifier name then .ok name else .error (.moduleName name)

def exposedName (o : GeneratorOptions) (nativeName : String) : String :=
  match o.renames.find? fun r => r.1 == nativeName with
  | some renamed => renamed.2
  | none =>
    match o.stripPrefix with
    | none => nativeName
    | some lead =>
      match lead.toList, Text.dropLead? lead.toList nativeName.toList with
      | _ :: _, some (c :: rest) => String.ofList (c :: rest)
      | _, _ => nativeName

def linesPerFile (o : GeneratorOptions) : Nat :=
  max o.maxLinesPerFile leastLinesPerFile

private def compileAll : List String → Except GenError (List Pattern)
  | [] => .ok []
  | p :: rest =>
    match Pattern.compile? ("^(?:" ++ p ++ ")") with
    | none => .error (.invalidPattern p)
    | some pattern => do pure (pattern :: (← compileAll rest))

def compileFilter (o : GeneratorOptions) : Except GenError SymbolFilter := do
  let ignored ← compileAll o.ignoreNames
  let noCallback ← compileAll o.noCallbackNames
  pure
    { isIgnored := fun name =>
        (o.ignoreUnderlinePrefixed && (ownName name).toList.head? == some '_') ||
          ignored.any fun p => p.isMatch name
      isNoCallback := fun name => noCallback.any fun p => p.isMatch name }

def matchesStart (pattern name : String) : Bool :=
  (Pattern.compile? ("^(?:" ++ pattern ++ ")")).any (·.isMatch name)

/-- The filter of the options when patterns match names in a given way. -/
def filterBy (o : GeneratorOptions) (matching : String → String → Bool) : SymbolFilter where
  isIgnored name :=
    (o.ignoreUnderlinePrefixed && (ownName name).toList.head? == some '_') ||
      o.ignoreNames.any (matching · name)
  isNoCallback name := o.noCallbackNames.any (matching · name)

private theorem any_of_compileAll {patterns : List String} {compiled : List Pattern}
    (h : compileAll patterns = .ok compiled) (name : String) :
    (compiled.any fun p => p.isMatch name) = patterns.any (matchesStart · name) := by
  induction patterns generalizing compiled with
  | nil =>
    cases h
    rfl
  | cons pattern patterns ih =>
    unfold compileAll at h
    split at h
    · cases h
    · rename_i first hFirst
      cases hRest : compileAll patterns with
      | error e => simp [hRest, bind, Except.bind] at h
      | ok rest =>
        simp only [hRest, bind, Except.bind, pure, Except.pure, Except.ok.injEq] at h
        subst h
        simp [matchesStart, hFirst, ih hRest]

theorem eq_filterBy_of_compileFilter {o : GeneratorOptions} {filter : SymbolFilter}
    (h : o.compileFilter = .ok filter) : filter = o.filterBy matchesStart := by
  unfold compileFilter at h
  cases hIgnored : compileAll o.ignoreNames with
  | error e => simp [hIgnored, bind, Except.bind] at h
  | ok ignored =>
    cases hNoCallback : compileAll o.noCallbackNames with
    | error e => simp [hIgnored, hNoCallback, bind, Except.bind] at h
    | ok noCallback =>
      simp only [hIgnored, hNoCallback, bind, Except.bind, pure, Except.pure,
        Except.ok.injEq] at h
      subst h
      simp only [filterBy, any_of_compileAll hIgnored, any_of_compileAll hNoCallback]

def toJson (o : GeneratorOptions) : Json :=
  .object
    [("module_name", .optionText o.moduleName), ("ignore_names", .strings o.ignoreNames),
     ("no_callback_names", .strings o.noCallbackNames),
     ("ignore_unsupported", .bool o.ignoreUnsupported),
     ("strip_prefix", .optionText o.stripPrefix),
     ("renames", .object (o.renames.map fun r => (r.1, .text r.2))),
     ("max_lines_per_file", .nat o.maxLinesPerFile),
     ("expose_constants", .bool o.exposeConstants),
     ("ignore_underline_prefixed", .bool o.ignoreUnderlinePrefixed)]

def ofJson? (value : Json) : Option GeneratorOptions := do
  let names := ["module_name", "ignore_names", "no_callback_names", "ignore_unsupported",
    "strip_prefix", "renames", "max_lines_per_file", "expose_constants",
    "ignore_underline_prefixed"]
  match ← Json.fields? names value with
  | [moduleName, ignoreNames, noCallbackNames, ignoreUnsupported, stripPrefix, renames,
      maxLinesPerFile, exposeConstants, ignoreUnderlinePrefixed] =>
    let texts := Json.withDefault [] (Json.asList Json.asText)
    let optional := Json.withDefault none (Json.asOption Json.asText)
    some
      { moduleName := ← optional moduleName
        ignoreNames := ← texts ignoreNames
        noCallbackNames := ← texts noCallbackNames
        ignoreUnsupported := ← Json.withDefault false Json.asBool ignoreUnsupported
        stripPrefix := ← optional stripPrefix
        renames := ← Json.withDefault [] (Json.asMap Json.asText) renames
        maxLinesPerFile := ← Json.withDefault defaultLinesPerFile Json.asNat maxLinesPerFile
        exposeConstants := ← Json.withDefault true Json.asBool exposeConstants
        ignoreUnderlinePrefixed :=
          ← Json.withDefault false Json.asBool ignoreUnderlinePrefixed }
  | _ => none

end GeneratorOptions

end NativeBinding
