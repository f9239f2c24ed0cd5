import NativeBinding.Project.Command
import NativeBinding.Text.Utf8

/-! # The command line

Commands on the files of the system. Everything that is decided is decided in `FileSystem.call`;
here are only the operations that it is run on.
-/

set_option autoImplicit false

namespace NativeBinding.Project

private def refusal : IO.Error → FileError
  | .noFileOrDirectory _ code reason => .refused code.toNat reason
  | .permissionDenied _ code reason => .refused code.toNat reason
  | .alreadyExists _ code reason => .refused code.toNat reason
  | .inappropriateType _ code reason => .refused code.toNat reason
  | .noSuchThing _ code reason => .refused code.toNat reason
  | .invalidArgument _ code reason => .refused code.toNat reason
  | .resourceExhausted _ code reason => .refused code.toNat reason
  | .interrupted _ code reason => .refused code.toNat reason
  | .otherError code reason => .refused code.toNat reason
  | .resourceBusy code reason => .refused code.toNat reason
  | .resourceVanished code reason => .refused code.toNat reason
  | .unsupportedOperation code reason => .refused code.toNat reason
  | .hardwareFault code reason => .refused code.toNat reason
  | .unsatisfiedConstraints code reason => .refused code.toNat reason
  | .illegalOperation code reason => .refused code.toNat reason
  | .protocolError code reason => .refused code.toNat reason
  | .timeExpired code reason => .refused code.toNat reason
  | .unexpectedEof => .refused 0 "unexpected end of file"
  | .userError reason => .refused 0 reason

private def attempt {α : Type} (action : IO α) : IO (Except FileError α) := do
  match ← action.toBaseIO with
  | .ok value => pure (.ok value)
  | .error e => pure (.error (refusal e))

private def isRegular (path : String) : IO Bool := do
  match ← attempt ((← IO.currentDir) / path).metadata with
  | .ok found => pure (found.type == .file)
  | .error _ => pure false

private def readWhole (path : String) : IO (Except FileError String) := do
  match ← attempt (IO.FS.readBinFile path) with
  | .error e => pure (.error e)
  | .ok octets =>
    match Text.Utf8.toString? octets.toList with
    | some text => pure (.ok text)
    | none => pure (.error .notText)

private def listFiles (path : String) : IO (List String) := do
  let entries ← ((← IO.currentDir) / path).readDir
  -- What an entry is itself counts, so a link to a file is not listed.
  let files ← entries.toList.filterM fun e => do
    pure ((← e.path.symlinkMetadata).type == .file)
  pure (files.map (·.fileName))

/-- The files of the system, from the working directory of the program. -/
def systemFiles : FileSystem IO where
  isFile := isRegular
  readText := readWhole
  makeDirectories path := attempt (IO.FS.createDirAll path)
  fileNames path := attempt (listFiles path)
  remove path := attempt (IO.FS.removeFile path)
  writeText path text := attempt (IO.FS.writeFile path text)

private def workingDirectory : IO Directory := do
  let names := (← IO.currentDir).components
  pure ⟨names.filter fun name => !name.isEmpty⟩

end NativeBinding.Project

open NativeBinding.Project in
def main (arguments : List String) : IO UInt32 := do
  let outcome ← systemFiles.call (← workingDirectory) arguments
  IO.print outcome.output
  if let some text := outcome.error then IO.eprintln text
  pure (UInt32.ofNat outcome.exit)
