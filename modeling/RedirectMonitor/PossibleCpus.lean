/-
How many CPUs a per-CPU map has values for: one more than the greatest number in the
kernel's list of possible CPUs. The list is made of numbers and ranges between commas; of
a range the last number counts. Where the list is missing, has no number, or cannot be
read, the number of CPUs that the system reports takes its place, and where that is
missing or zero, one.
-/

import RedirectMonitor.Notice

namespace RedirectMonitor.PossibleCpus

open RedirectMonitor.Text

/-- What is found where the kernel's list should be. -/
inductive Source where
  /-- Nothing that can be read. -/
  | unreadable
  /-- A file of these bytes. -/
  | file (bytes : List UInt8)

/-- The list has an item that is no number. -/
structure BadItem where
  item : List Char

/-- The last number of an item: what follows its last dash. -/
def itemEnd (item : List Char) : List Char := ((split '-' item).getLast?).getD []

/-- The greatest number of a list, or none where it has no item. -/
def highest (text : List Char) : Except BadItem (Option Int) :=
  let items := ((split ',' text).map trim).filter (· != [])
  items.foldlM (fun greatest item =>
    match readDecimal? (itemEnd item) with
    | some number => .ok (some (max (greatest.getD (-1)) number))
    | none => .error ⟨item⟩) none

/-- The number of CPUs that the system reports, where it is of use. -/
def fallback (reported : Option Int) : Int :=
  match reported with
  | none | some 0 => 1
  | some count => count

/-- The number of CPUs by a list of this text. -/
def countOfText (path : String) (text : List Char) (reported : Option Int) :
    Noted Utf8.IllFormed Int :=
  match highest text with
  | .ok (some greatest) =>
    pure (if 0 ≤ greatest then greatest + 1 else fallback reported)
  | .ok none => pure (fallback reported)
  | .error _ => do
    .note (.badCpuList path text)
    pure (fallback reported)

/-- The number of CPUs by the kernel's list under a path and by what the system reports. -/
def count (path : String) (source : Source) (reported : Option Int) :
    Noted Utf8.IllFormed Int :=
  match source with
  | .unreadable => pure (fallback reported)
  | .file bytes => do
    let text ← .lift (Utf8.decode bytes)
    countOfText path (trim (unifyLineEnds text)) reported

end RedirectMonitor.PossibleCpus
