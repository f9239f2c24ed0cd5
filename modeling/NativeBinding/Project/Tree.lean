import NativeBinding.Project.FileSystem
import NativeBinding.Text.Utf8

/-! # File trees

A file tree as a value: what stands at each place, by the names that lead there from the root. The
operations follow a path name by name and through the links they come by.
-/

set_option autoImplicit false

namespace NativeBinding.Project

inductive Entry where
  | file (octets : List UInt8)
  | directory
  /-- A symbolic link; a target that does not start at the root starts where the link stands. -/
  | link (target : String)
  | socket
  deriving DecidableEq

/-- A tree; an entry is found by the names on its path, and the empty path is the root directory. -/
structure Tree where
  entries : List (List String × Entry) := []
  deriving DecidableEq

namespace Tree

def get? (t : Tree) (path : List String) : Option Entry :=
  if path = [] then some .directory
  else (t.entries.find? fun e => e.1 == path).map (·.2)

def set (t : Tree) (path : List String) (entry : Entry) : Tree :=
  ⟨(path, entry) :: t.entries.filter fun e => e.1 != path⟩

def erase (t : Tree) (path : List String) : Tree :=
  ⟨t.entries.filter fun e => e.1 != path⟩

def ensure (t : Tree) (path : List String) : Tree :=
  match t.get? path with
  | some _ => t
  | none => t.set path .directory

def ensureAll (t : Tree) (path : List String) : Tree :=
  (List.range path.length).foldl (fun t i => t.ensure (path.take (i + 1))) t

def names (path : String) : List String :=
  let rec go (name : List Char) : List Char → List String
    | [] => [String.ofList name.reverse]
    | c :: rest =>
      if c == '/' then String.ofList name.reverse :: go [] rest else go (c :: name) rest
  go [] path.toList

/-- A tree of text files by their paths, with the directories they lie in. -/
def ofFiles (files : List (String × String)) : Tree :=
  files.foldl
    (fun t f =>
      let path := names f.1
      (t.ensureAll path.dropLast).set path (.file (Text.Utf8.ofString f.2)))
    {}

/-- The place that a path starts from when it is used in another one. -/
def origin (place : List String) (path : String) : List String :=
  if path.toList.head? = some '/' then [] else place

/-- Where one name leads from a directory; the root is its own parent. -/
def follow (place : List String) (name : String) : List String :=
  if name = "" ∨ name = "." then place
  else if name = ".." then place.dropLast
  else place ++ [name]

/-- The links that one path may lead through. -/
def mostLinks : Nat := 40

/-- Follows names from a place, up to the first link that must be followed; `further` goes on from
there. Only the last place may be missing, and a link there is followed on demand. -/
def walkWith (t : Tree) (follows : Bool) (left : Nat)
    (further : List String → List String → Except FileError (Nat × List String)) :
    List String → List String → Except FileError (Nat × List String)
  | place, [] =>
    match t.get? place with
    | some (.link target) =>
      if follows then further (origin place.dropLast target) (names target) else .ok (left, place)
    | _ => .ok (left, place)
  | place, name :: rest =>
    match t.get? place with
    | some .directory => t.walkWith follows left further (follow place name) rest
    | some (.link target) => further (origin place.dropLast target) (names target ++ name :: rest)
    | some _ => .error .notDirectory
    | none => .error .notFound

/-- The place that names lead to, and how many more links may be followed from there. -/
def walk (t : Tree) (follows : Bool) :
    Nat → List String → List String → Except FileError (Nat × List String)
  | 0 => t.walkWith follows 0 fun _ _ => .error .tooManyLinks
  | left + 1 => t.walkWith follows (left + 1) (t.walk follows left)

def locate (t : Tree) (working : Directory) (follows : Bool) (path : String) :
    Except FileError (List String) :=
  if path = "" then .error .notFound
  else if '\x00' ∈ path.toList then .error .unnameable
  else (t.walk follows mostLinks (origin working.names path) (names path)).map (·.2)

/-- Whether the rest of a path names the place that it starts from, and does so by a dot. -/
def stays (rest : List String) : Bool :=
  rest.contains "." && rest.all fun name => name == "" || name == "."

/-- What is said when a path comes by a place where no directory is or can be made. Behind a
directory that was just made each place is asked for by itself, and so it is said to exist. -/
def obstacle (cause : FileError) (hasMade : Bool) (rest : List String) : FileError :=
  if rest.all (· == "") then .fileExists
  else if (hasMade ∨ cause = .notFound) ∧ !stays rest then .fileExists
  else cause

/-- Makes the directories on a path that are missing; a link on it must lead to a directory. Those
that are made stay when it comes to an obstacle. -/
def makeAlong (t : Tree) :
    Bool → Nat → List String → List String → Except FileError Unit × Tree
  | _, _, _, [] => (.ok (), t)
  | hasMade, left, place, name :: rest =>
    let next := follow place name
    match t.get? next with
    | some .directory => t.makeAlong hasMade left next rest
    | none =>
      if stays rest then (.error .notFound, t)
      else (t.set next .directory).makeAlong true left next rest
    | some (.link _) =>
      match t.walk true left next [] with
      | .error cause => (.error (obstacle cause hasMade rest), t)
      | .ok (left, last) =>
        match t.get? last with
        | some .directory => t.makeAlong hasMade left last rest
        | none => (.error (obstacle .notFound hasMade rest), t)
        | some _ => (.error (obstacle .notDirectory hasMade rest), t)
    | some _ => (.error (obstacle .notDirectory hasMade rest), t)

def makeDirectories (t : Tree) (working : Directory) (path : String) :
    Except FileError Unit × Tree :=
  let place := origin working.names path
  if '\x00' ∈ path.toList then (.error .unnameable, t)
  else if t.get? place = some .directory then t.makeAlong false mostLinks place (names path)
  else (.error .notFound, t)

def filesIn (t : Tree) (place : List String) : List String :=
  t.entries.filterMap fun e =>
    match t.get? e.1 with
    | some (.file _) => if e.1.dropLast = place then e.1.getLast? else none
    | _ => none

def isFile (t : Tree) (working : Directory) (path : String) : Bool :=
  match t.locate working true path with
  | .error _ => false
  | .ok place =>
    match t.get? place with
    | some (.file _) => true
    | _ => false

def read (t : Tree) (working : Directory) (path : String) : Except FileError String := do
  match t.get? (← t.locate working true path) with
  | some (.file octets) =>
    match Text.Utf8.toString? octets with
    | some text => pure text
    | none => throw .notText
  | some .directory => throw .isDirectory
  | some _ => throw .noDevice
  | none => throw .notFound

def list (t : Tree) (working : Directory) (path : String) : Except FileError (List String) := do
  let place ← t.locate working true path
  match t.get? place with
  | some .directory => pure (t.filesIn place)
  | some _ => throw .notDirectory
  | none => throw .notFound

/-- Puts a text where a path leads, through a link at its end as well. -/
def write (t : Tree) (working : Directory) (path text : String) : Except FileError Tree := do
  let place ← t.locate working true path
  match t.get? place with
  | some .directory => throw .isDirectory
  | some .socket => throw .noDevice
  | _ => pure (t.set place (.file (Text.Utf8.ofString text)))

/-- Removes what is at the end of a path, be it a link. -/
def remove (t : Tree) (working : Directory) (path : String) : Except FileError Tree := do
  let place ← t.locate working false path
  match t.get? place with
  | some .directory => throw .isDirectory
  | some _ => pure (t.erase place)
  | none => throw .notFound

def changing (operation : Tree → Except FileError Tree) :
    StateM Tree (Except FileError Unit) :=
  fun t =>
    match operation t with
    | .ok changed => (.ok (), changed)
    | .error e => (.error e, t)

def fileSystem (working : Directory) : FileSystem (StateM Tree) where
  isFile path := fun t => (t.isFile working path, t)
  readText path := fun t => (t.read working path, t)
  makeDirectories path := fun t => t.makeDirectories working path
  fileNames path := fun t => (t.list working path, t)
  remove path := changing fun t => t.remove working path
  writeText path text := changing fun t => t.write working path text

/-- The path of a place below a directory, from there. -/
def pathBelow? (directory place : List String) : Option String :=
  if directory.isPrefixOf place then some (Text.join "/" (place.drop directory.length)) else none

/-- The files below a directory whose content is new or changed since another tree. -/
def writtenSince (t before : Tree) (directory : List String) : List (String × List UInt8) :=
  t.entries.filterMap fun e =>
    match e.2 with
    | .file octets =>
      if before.get? e.1 = some e.2 then none
      else (pathBelow? directory e.1).map fun path => (path, octets)
    | _ => none

/-- The files of another tree below a directory that are here no more, in path order. -/
def removedSince (t before : Tree) (directory : List String) : List String :=
  (before.entries.filterMap fun e =>
    match e.2, t.get? e.1 with
    | .file _, none => pathBelow? directory e.1
    | _, _ => none).mergeSort fun a b => !decide (b < a)

end Tree

end NativeBinding.Project
