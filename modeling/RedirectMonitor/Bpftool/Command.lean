/-
The command line of one lookup: the tool, its fixed words, the path of the pinned map and
the four bytes of the key, the least significant first.
-/

import RedirectMonitor.PathName
import RedirectMonitor.Text.Quoted

namespace RedirectMonitor.Bpftool

/-- The program that is run. -/
inductive Program where
  | named (name : String)
  /-- A command line took its name away, so that no system can run it. -/
  | nameless
deriving DecidableEq, Repr

namespace Program

/-- The name of a program; a nameless one is shown as a list without words. -/
def name : Program → String
  | named name => name
  | nameless => "[]"

/-- The name of a program as a quotation; there is nothing to quote where there is no name. -/
def quotation : Program → String
  | named name => String.ofList (Text.quoted (Text.codePoints name.toList))
  | nameless => nameless.name

end Program

/-- How the tool is run: the directory of the pinned maps, the program, and the time limit of a
run in seconds, if there is one. The limit is no part of a command line; it is for those who run
it. -/
structure Tool (limit : Type) where
  directory : PathName
  program : Program := .named "bpftool"
  timeout : Option limit := none

/-- Why a key cannot be written as four bytes. -/
inductive KeyError where
  /-- It is negative or needs more than 64 bits. -/
  | outOfRange
  /-- It needs more than 32 bits. -/
  | tooWide
deriving DecidableEq, Repr

def KeyError.message : KeyError → String
  | outOfRange => "argument out of range"
  | tooWide => "'I' format requires 0 <= number <= 4294967295"

/-- The bytes of a key, the least significant first. -/
def keyBytes (key : Int) : Except KeyError (List Nat) :=
  if key < 0 ∨ (Nat.pow 2 64 : Int) ≤ key then .error .outOfRange
  else if (Nat.pow 2 32 : Int) ≤ key then .error .tooWide
  else
    let key := key.toNat
    .ok [key % 256, key / 256 % 256, key / 65536 % 256, key / 16777216]

/-- The command line that looks up a key of a map. -/
def command {limit : Type} (tool : Tool limit) (map : String) (key : Int) :
    Except KeyError (List String) := do
  let bytes ← keyBytes key
  pure ([tool.program.name, "--json", "map", "lookup", "pinned",
    (tool.directory.join (.ofString map)).toString, "key"] ++
    bytes.map fun byte => String.ofList (Text.digits byte))

end RedirectMonitor.Bpftool
