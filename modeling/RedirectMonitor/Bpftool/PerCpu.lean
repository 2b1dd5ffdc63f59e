/-
The values of one key of a per-CPU map as `bpftool --json` prints them: an object with a
list `values` of entries, each with the number of its CPU and the raw bytes of its value
as hexadecimal texts. The first sixteen bytes of a value are two little-endian counters of
64 bits. Decoding never looks at the shape of the document as a whole; it takes what it
needs step by step, and the first step that fails is the error.
-/

import RedirectMonitor.Counters
import RedirectMonitor.Json.Order
import RedirectMonitor.Sorting
import RedirectMonitor.Text.Numeral

namespace RedirectMonitor.Bpftool

open RedirectMonitor.Text

/-- The step at which a document could not be decoded. -/
inductive DecodeError where
  | missingMember (name : String)
  | memberOfArray
  | memberOfText
  | memberOf (kind : Json.Kind)
  /-- The items of a value of this kind were asked for. -/
  | itemsOf (kind : Json.Kind)
  /-- Two entries have CPU numbers without an order. -/
  | unordered (kinds : Json.Unordered)
  /-- A byte is written in something other than a text. -/
  | byteNotText
  /-- A byte is written in a text that is no hexadecimal numeral. -/
  | byteNotNumeral (text : CodePoints)
  | byteOutOfRange
  /-- A value has fewer bytes than two counters. -/
  | tooFewBytes
deriving DecidableEq, Repr

def DecodeError.message : DecodeError → String
  | missingMember name => String.ofList (quoted (Json.key name))
  | memberOfArray => "list indices must be integers or slices, not str"
  | memberOfText => "string indices must be integers, not 'str'"
  | memberOf kind => "'" ++ kind.name ++ "' object is not subscriptable"
  | itemsOf kind => "'" ++ kind.name ++ "' object is not iterable"
  | unordered kinds =>
    "'<' not supported between instances of '" ++ kinds.left.name ++ "' and '" ++
      kinds.right.name ++ "'"
  | byteNotText => "int() can't convert non-string with explicit base"
  | byteNotNumeral text =>
    "invalid literal for int() with base 16: " ++ String.ofList ((quoted text).take 200)
  | byteOutOfRange => "bytes must be in range(0, 256)"
  | tooFewBytes => "unpack requires a buffer of 16 bytes"

def member (name : String) : Json → Except DecodeError Json
  | .object members =>
    match Json.member? (Json.key name) members with
    | some value => .ok value
    | none => .error (.missingMember name)
  | .array _ => .error .memberOfArray
  | .string _ => .error .memberOfText
  | value => .error (.memberOf value.kind)

/-- The items of a value: those of an array, the letters of a text, the keys of an object. -/
def items : Json → Except DecodeError (List Json)
  | .array items => .ok items
  | .string codes => .ok (codes.map fun code => .string [code])
  | .object members => .ok (members.map fun (name, _) => .string name)
  | value => .error (.itemsOf value.kind)

/-- A byte from its hexadecimal text. -/
def byte : Json → Except DecodeError Nat
  | .string codes =>
    match readHexadecimal? (codes.map charOfCode) with
    | some value =>
      if 0 ≤ value ∧ value < 256 then .ok value.toNat else .error .byteOutOfRange
    | none => .error (.byteNotNumeral codes)
  | _ => .error .byteNotText

/-- The number whose bytes these are, the least significant first. -/
def littleEndian : List Nat → Nat
  | [] => 0
  | byte :: rest => byte + 256 * littleEndian rest

def counterWidth : Nat := 8

/-- The counters in the first bytes of a value. -/
def countersOfBytes (bytes : List Nat) : Except DecodeError Counters :=
  if bytes.length < 2 * counterWidth then .error .tooFewBytes
  else .ok {
    processed := littleEndian (bytes.take counterWidth)
    dropped := littleEndian ((bytes.drop counterWidth).take counterWidth) }

def countersOfEntry (entry : Json) : Except DecodeError Counters := do
  let values ← items (← member "value" entry)
  countersOfBytes (← values.mapM byte)

/-- An entry with the number of its CPU. -/
def numberedEntry (entry : Json) : Except DecodeError (Json × Json) := do
  pure (← member "cpu" entry, entry)

/-- Whether one entry belongs before another. -/
def entryLess (left right : Json × Json) : Except DecodeError Bool :=
  match Json.less left.1 right.1 with
  | .ok answer => .ok answer
  | .error kinds => .error (.unordered kinds)

/-- The counters of a document, in the order of the CPU numbers. -/
def decode (document : Json) : Except DecodeError (List Counters) := do
  let entries ← items (← member "values" document)
  let numbered ← entries.mapM numberedEntry
  let ordered ← Sorting.sort entryLess numbered
  ordered.mapM fun (_, entry) => countersOfEntry entry

end RedirectMonitor.Bpftool
