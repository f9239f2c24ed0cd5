import NativeBinding.Layout.Basic
import NativeBinding.Module.Files

/-! # The text view of a module

What a module exposes, line by line: records with their layout, constants, and classes with the
signatures of their methods or hooks.
-/

set_option autoImplicit false

namespace NativeBinding

open Source

private def padded (width : Nat) (text : String) : String :=
  text ++ String.ofList (List.replicate (width - text.length) ' ')

private def viewSignature (name : String) (params : List ParamBinding) (returnType : TypeRef) :
    String :=
  let call := name ++ "(" ++
    Text.join ", " (params.map fun p => p.type.render ++ " " ++ p.name) ++ ")"
  if returnType = .void then call else call ++ " -> " ++ returnType.render

def TrampolineKind.label : TrampolineKind → String
  | constructor => "constructor"
  | static => "static"
  | register _ => "register"
  | init => "init"
  | release => "release"
  | call => "call"

private def recordView (layouts : LayoutTable) (r : RecordBinding) :
    Except MarshalError (List String) := do
  let layout ← layouts.require r.structName
  pure
    (("  " ++ r.exposedName ++ " <- " ++ r.structName ++ "  size " ++ Text.natural layout.size ++
        " align " ++ Text.natural layout.align) ::
      layout.fields.map fun f =>
        "    @" ++ padded 4 (Text.natural f.offset) ++ " " ++ f.type.render ++ " " ++ f.name)

private def memberView (label signature : String) : String :=
  "    " ++ padded 11 label ++ " " ++ signature

private def classView (c : ClassBinding) : List String :=
  let title := "  " ++ c.exposedName ++ " <- " ++ c.className
  let members :=
    if c.isInterface then
      (title ++ "  interface, " ++ Text.natural c.overrides.length ++ " hooks") ::
        c.overrides.map fun s => "    hook " ++ viewSignature s.name s.params s.returnType
    else
      title :: (c.constructors ++ c.methods).map fun t =>
        memberView t.kind.label (viewSignature t.name t.params t.returnType)
  members ++ c.skipped.map fun s => memberView "skipped" (s.name ++ ": " ++ s.reason)

def Module.view (model : Model) (m : Module) : Except MarshalError String := do
  let layouts ← LayoutTable.build model
  let records ← m.records.mapM (recordView layouts)
  pure (lines
    (["library " ++ m.library.name ++ " " ++ m.library.version.getD "(unversioned)"] ++
      (if m.library.headers.isEmpty then []
       else ["headers " ++ Text.join ", " m.library.headers]) ++
      ["module " ++ m.name ++ " (" ++
        String.ofList (m.modelFingerprint.toList.take 12) ++ ")",
       "",
       "records (" ++ Text.natural m.records.length ++ "):"] ++
      records.flatten ++
      (if m.constants.isEmpty then []
       else ["", "constants (" ++ Text.natural m.constants.length ++ "):"] ++
         m.constants.map fun c => "  " ++ c.name ++ " = " ++ c.value.literal) ++
      ["", "classes (" ++ Text.natural m.classes.length ++ "):"] ++
      m.classes.flatMap classView))

end NativeBinding
