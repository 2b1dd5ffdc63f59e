/-
A small file system that gives the monitor its answers where it is tried out without a
system of its own: which names exist and which of them are directories. A tree is told by
the names that were made in it, a name by the way that its parts go: each part leads one
directory down, and two dots lead one up. Of what lies above the working directory, and
below the root, a tree knows only what was made there.
-/

import RedirectMonitor.Files

namespace RedirectMonitor

/-- Where a way through a file system begins. -/
inductive Anchor where
  | root
  /-- The directory so many levels above the working directory. -/
  | above (levels : Nat)
deriving DecidableEq, Repr

/-- A location in a file system: names that lead down from an anchor. -/
structure Location where
  anchor : Anchor
  names : List (List Char)
deriving DecidableEq, Repr

namespace Location

/-- The location to which a part leads; the root is above itself. -/
def enter (location : Location) (part : List Char) : Location :=
  if part = ['.', '.'] then
    match location with
    | ⟨.above levels, []⟩ => ⟨.above (levels + 1), []⟩
    | ⟨anchor, names⟩ => ⟨anchor, names.dropLast⟩
  else { location with names := location.names ++ [part] }

/-- Every location on the way along parts, the first one included. -/
def wayAlong (location : Location) : List (List Char) → List Location
  | [] => [location]
  | part :: rest => location :: wayAlong (location.enter part) rest

/-- Where the way along a path name begins. -/
def start (path : PathName) : Location :=
  { anchor := if path.root = .relative then .above 0 else .root, names := [] }

end Location

/-- The directories and files that were made in a file system. -/
structure FileTree where
  directories : List Location := []
  files : List Location := []
deriving Repr

namespace FileTree

/-- The tree in which given files and directories were made, with every directory on the way to
them. -/
def ofNames (files directories : List String) : FileTree :=
  let files := files.map PathName.ofString
  let directories := directories.map PathName.ofString
  { directories :=
      directories.flatMap (fun path => (Location.start path).wayAlong path.parts) ++
        files.flatMap fun path => (Location.start path).wayAlong path.parts.dropLast
    files := files.map fun path => path.parts.foldl Location.enter (.start path) }

/-- What a walk along a path name can come to. -/
inductive Place where
  | directory (location : Location)
  | file (location : Location)
deriving DecidableEq, Repr

/-- What is at a location, if anything is. -/
def place? (tree : FileTree) (location : Location) : Option Place :=
  if location ∈ tree.files then some (.file location)
  else if location.names = [] ∨ location ∈ tree.directories then some (.directory location)
  else none

/-- How many bytes a part of a name may have. -/
def partLimit : Nat := 255

/-- How many bytes a whole name may have. -/
def nameLimit : Nat := 4095

/-- The number of bytes of a text. -/
def byteLength (text : List Char) : Nat := (String.ofList text).utf8ByteSize

/-- The place one part further; none where there is nothing of that name. -/
def step (tree : FileTree) (part : List Char) : Place → Option Place
  | .directory location => tree.place? (location.enter part)
  | .file _ => none

def tooLong (path : PathName) : FileFault :=
  { path, number := 36, reason := "File name too long" }

/-- The place that a walk along parts reaches, or none where it ends before. A part that is too
long stops the walk when a directory is asked for it. -/
def walk (tree : FileTree) (path : PathName) :
    Place → List (List Char) → Except FileFault (Option Place)
  | place, [] => .ok (some place)
  | .file _, _ :: _ => .ok none
  | place, part :: rest =>
    if partLimit < byteLength part then .error (tooLong path)
    else match tree.step part place with
      | some place => walk tree path place rest
      | none => .ok none

/-- The place of a path name. There is nothing under a name that holds a zero byte. -/
def find (tree : FileTree) (path : PathName) : Except FileFault (Option Place) :=
  if path.parts.any (·.contains '\x00') then .ok none
  else if nameLimit < byteLength path.toChars then .error (tooLong path)
  else walk tree path (.directory (.start path)) path.parts

/-- The answers that a tree gives. -/
def toFiles (tree : FileTree) : Files :=
  { contains := fun path => (tree.find path).map Option.isSome
    isDirectory := fun path => (tree.find path).map fun
      | some (.file _) | none => false
      | some _ => true }

end FileTree

end RedirectMonitor
