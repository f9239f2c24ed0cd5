import NativeBinding.Ieee.Text
import NativeBinding.Text.Blank

/-! # File systems

The operations on files that commands need, over any monad, and paths as texts. Commands are written
once against `FileSystem` and run on real files as on a `Tree`.
-/

set_option autoImplicit false

namespace NativeBinding.Project

inductive FileError where
  /-- The system's own number and words. -/
  | refused (code : Nat) (reason : String)
  /-- The content is no UTF-8 text. -/
  | notText
  /-- A path with a NUL in it, which the system is never asked for. -/
  | unnameable
  deriving DecidableEq

namespace FileError

def message : FileError → String
  | refused code reason => reason ++ " (os error " ++ Text.natural code ++ ")"
  | notText => "stream did not contain valid UTF-8"
  | unnameable => "file name contained an unexpected NUL byte"

def notFound : FileError := refused 2 "No such file or directory"

def noDevice : FileError := refused 6 "No such device or address"

def fileExists : FileError := refused 17 "File exists"

def notDirectory : FileError := refused 20 "Not a directory"

def isDirectory : FileError := refused 21 "Is a directory"

def tooManyLinks : FileError := refused 40 "Too many levels of symbolic links"

end FileError

/-- File operations; paths that do not start at the root start at the working directory. Links are
followed, but for those that a directory holds or that are removed: `fileNames` lists the regular
files alone. -/
structure FileSystem (m : Type → Type) where
  isFile : String → m Bool
  readText : String → m (Except FileError String)
  makeDirectories : String → m (Except FileError Unit)
  fileNames : String → m (Except FileError (List String))
  remove : String → m (Except FileError Unit)
  writeText : String → String → m (Except FileError Unit)

/-- A path that starts in a directory, unless it starts at the root. -/
def joinPath (directory path : String) : String :=
  match path.toList.head?, directory.toList.getLast? with
  | some '/', _ => path
  | _, none => path
  | _, some '/' => directory ++ path
  | _, _ => directory ++ "/" ++ path

/-- A directory by the names that lead to it from the root. -/
structure Directory where
  names : List String
  deriving DecidableEq

namespace Directory

def path (d : Directory) : String :=
  d.names.foldl joinPath "/"

/-- A directory and those above it, up to the root. -/
def ancestors (d : Directory) : List Directory :=
  let rec go : List String → List Directory
    | [] => [⟨[]⟩]
    | name :: above => ⟨(name :: above).reverse⟩ :: go above
  go d.names.reverse

end Directory

end NativeBinding.Project
