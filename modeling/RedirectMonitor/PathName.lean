/-
Path names. A name is a root and the parts between slashes; empty parts and single dots
are dropped, while `..` is kept because what it means depends on the file system. Exactly
two slashes at the front are a root of their own.
-/

import RedirectMonitor.Text.Blank
import RedirectMonitor.Text.Columns

namespace RedirectMonitor

/-- Where a path name starts. -/
inductive PathRoot where
  | relative
  | slash
  | doubleSlash
deriving DecidableEq, Repr

/-- A path name in normal form. -/
structure PathName where
  root : PathRoot
  parts : List (List Char)
deriving DecidableEq, Repr

namespace PathName

/-- The root of a text, by the number of slashes at its front. -/
def rootOf (text : List Char) : PathRoot :=
  match (text.takeWhile (· == '/')).length with
  | 0 => .relative
  | 2 => .doubleSlash
  | _ => .slash

/-- The path name that a text writes. -/
def ofChars (text : List Char) : PathName :=
  { root := rootOf text
    parts := (Text.split '/' text).filter fun part => part != [] && part != ['.'] }

def ofString (text : String) : PathName := ofChars text.toList

/-- The text in front of the parts. -/
def PathRoot.text : PathRoot → List Char
  | .relative => []
  | .slash => ['/']
  | .doubleSlash => ['/', '/']

/-- The text of a path name; the empty relative name is a dot. -/
def toChars (path : PathName) : List Char :=
  if path.root = .relative ∧ path.parts = [] then ['.']
  else PathRoot.text path.root ++ Text.join ['/'] path.parts

def toString (path : PathName) : String := .ofList path.toChars

/-- One path name below another; an absolute second name stands for itself. -/
def join (directory name : PathName) : PathName :=
  if name.root = .relative then { directory with parts := directory.parts ++ name.parts }
  else name

end PathName

end RedirectMonitor
