/-
What the tool prints for a key of a per-CPU map: an object with the bytes of the key and a
list of values. Each value belongs to a CPU and lists the bytes of its counters, processed
before dropped, each with the least significant byte first, as hexadecimal texts.
-/

import RedirectMonitor.Counters
import RedirectMonitor.Text.Columns

namespace RedirectMonitor.Bpftool

open RedirectMonitor.Text

/-- The bytes of a number that is kept in so many of them, the least significant first. -/
def littleEndianBytes : Nat → Nat → List Nat
  | 0, _ => []
  | count + 1, number => number % 256 :: littleEndianBytes count (number / 256)

/-- The bytes of a counter: eight, of the number modulo two to the sixty-fourth. -/
def counterBytes (counter : Int) : List Nat :=
  littleEndianBytes 8 (counter % (Nat.pow 2 64 : Int)).toNat

def pairBytes (pair : Counters) : List Nat :=
  counterBytes pair.processed ++ counterBytes pair.dropped

/-- The text of a byte: two hexadecimal digits behind their prefix. -/
def byteText (byte : Nat) : List Char :=
  ['"', '0', 'x', Nat.digitChar (byte / 16), Nat.digitChar (byte % 16), '"']

/-- Texts between brackets and commas. -/
def listText (texts : List (List Char)) : List Char := '[' :: join [','] texts ++ [']']

def memberText (name : String) (value : List Char) : List Char :=
  '"' :: name.toList ++ ['"', ':'] ++ value

/-- Members between braces and commas. -/
def objectText (members : List (List Char)) : List Char := '\x7b' :: join [','] members ++ ['\x7d']

def bytesText (bytes : List Nat) : List Char := listText (bytes.map byteText)

def valueText (cpu : Nat) (pair : Counters) : List Char :=
  objectText [memberText "cpu" (digits cpu), memberText "value" (bytesText (pairBytes pair))]

/-- What the tool prints for a key of these bytes, with the counters of the CPUs from zero on. -/
def outputText (key : List Nat) (pairs : List Counters) : List Char :=
  objectText [memberText "key" (bytesText key),
    memberText "values" (listText (pairs.zipIdx.map fun (pair, cpu) => valueText cpu pair))]

end RedirectMonitor.Bpftool
