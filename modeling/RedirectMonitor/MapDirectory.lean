/-
The check that comes before any read: the directory of the maps has to be there, and
every map has to be pinned in it. All maps that are not are named together. Where the file
system gives no answer, the check goes no further.
-/

import RedirectMonitor.Files

namespace RedirectMonitor.MapDirectory

/-- Why the maps cannot be used. -/
inductive Unusable where
  | notFound (directory : PathName)
  | notPinned (directory : PathName) (maps : List String)
deriving DecidableEq, Repr

def Unusable.message : Unusable → String
  | notFound directory => "map directory not found: " ++ directory.toString
  | notPinned directory maps =>
    "maps not pinned under " ++ directory.toString ++ ": " ++ ", ".intercalate maps

/-- Why the check does not pass. -/
inductive CheckError where
  | unusable (reason : Unusable)
  | unanswered (fault : FileFault)
deriving DecidableEq, Repr

/-- The file system's answer whether a map is pinned in a directory. -/
def isPinned (files : Files) (directory : PathName) (map : String) : Except FileFault Bool :=
  files.contains (directory.join (.ofString map))

/-- The maps that are not pinned in a directory. -/
def missing (files : Files) (directory : PathName) : List String → Except FileFault (List String)
  | [] => .ok []
  | map :: rest => do
    let pinned ← isPinned files directory map
    let others ← missing files directory rest
    pure (if pinned then others else map :: others)

/-- Nothing, if the directory is there and every map is pinned in it. -/
def check (files : Files) (directory : PathName) (maps : List String) :
    Except CheckError Unit :=
  match files.isDirectory directory with
  | .error fault => .error (.unanswered fault)
  | .ok false => .error (.unusable (.notFound directory))
  | .ok true =>
    match missing files directory maps with
    | .error fault => .error (.unanswered fault)
    | .ok [] => .ok ()
    | .ok maps => .error (.unusable (.notPinned directory maps))

end RedirectMonitor.MapDirectory
