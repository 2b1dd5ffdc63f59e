/-
What one run of the tool comes to. A run that does not start, does not end in time, ends
with a failure status, or prints something that does not decode, is a read failure, which
its caller contains. Four causes are not: a key that cannot be written as four bytes, a run
that the system refuses, an integer with too many digits, and containers nested too deep.
-/

import RedirectMonitor.Bpftool.Command
import RedirectMonitor.Bpftool.PerCpu
import RedirectMonitor.Json.Reader
import RedirectMonitor.Refusal
import RedirectMonitor.Utf8

namespace RedirectMonitor

open RedirectMonitor.Text

namespace Bpftool

/-- What running the tool came to. -/
inductive Run where
  /-- The operating system refused to start it, with an error number and its text. -/
  | notStarted (number : Int) (reason : String)
  /-- It did not end within its time limit. -/
  | timedOut
  /-- It ended with a status, after printing these bytes. -/
  | ended (status : Int) (output errors : List UInt8)
  /-- It was refused: there is no program, a word is ill-formed, or its time limit cannot be
  kept. -/
  | refused (refusal : Refusal)
deriving Repr

/-- Why a command line is refused before any program is started, if it is. -/
def Tool.refusal? {limit : Type} (tool : Tool limit) (words : List String) : Option Refusal :=
  if tool.program = .nameless then
    some ⟨"expected str, bytes or os.PathLike object, not list"⟩
  else if words.any (·.toList.contains '\x00') then some ⟨"embedded null byte"⟩
  else none

/-- What a run within the time limit of the tool comes to, given what it comes to without one. A
limit that cannot be kept is found out only when the program has started. -/
def Tool.limited (tool : Tool Quantity) : Run → Run
  | .notStarted number reason => .notStarted number reason
  | run =>
    match tool.timeout.bind Refusal.ofLimit? with
    | some refusal => .refused refusal
    | none => run

/-- What a run that the system performs comes to, given what the program itself would come to. -/
def Tool.perform (tool : Tool Quantity) (words : List String) (run : Run) : Run :=
  match tool.refusal? words with
  | some refusal => .refused refusal
  | none => tool.limited run

end Bpftool

/-- A read that failed and leaves the sample of its group as it was. -/
inductive ReadFailure where
  | timedOut (map : String) (key : Int)
  | failed (map : String) (key : Int) (detail : List Char)
  | notStarted (program : Bpftool.Program) (number : Int) (reason : String)
  | badJson (error : Json.SyntaxError)
  | malformed (error : Bpftool.DecodeError)
  /-- A subsystem without processes has no answer for the key. -/
  | refused (map : String) (key : Int)
  /-- The number of values is not the number of cores. -/
  | wrongCount (expected : Int) (got : Nat)
deriving DecidableEq, Repr

/-- A key in messages: hexadecimal in upper case. -/
def keyText (key : Int) : String := "0x" ++ String.ofList (upperHexadecimal key)

def integerText (number : Int) : String := .ofList (decimal number)

def ReadFailure.message : ReadFailure → String
  | timedOut map key => "bpftool timed out on " ++ map ++ " key:" ++ keyText key
  | failed map key detail =>
    "bpftool lookup failed on " ++ map ++ " key:" ++ keyText key ++ ": " ++ .ofList detail
  | notStarted program number reason =>
    "cannot run " ++ program.name ++ ": [Errno " ++ integerText number ++ "] " ++ reason ++ ": " ++
      program.quotation
  | badJson error => "bpftool returned invalid JSON: " ++ error.message
  | malformed error => "malformed bpftool output: " ++ error.message
  | refused map key => "lookup failed on " ++ map ++ " key " ++ integerText key
  | wrongCount expected got =>
    "expected " ++ integerText expected ++ " per-CPU values, got " ++ integerText got

/-- A cause that leaves the lookup and is not contained by the read. -/
inductive LookupFault where
  | key (error : Bpftool.KeyError)
  | run (refusal : Refusal)
  | tooManyDigits (count : Nat)
  | tooDeep (container : Json.Kind)
deriving DecidableEq, Repr

def LookupFault.message : LookupFault → String
  | key error => error.message
  | run refusal => refusal.reason
  | tooManyDigits count =>
    "Exceeds the limit (" ++ integerText decimalDigitLimit ++
      " digits) for integer string conversion: value has " ++ integerText count ++
      " digits; use sys.set_int_max_str_digits() to increase the limit"
  | tooDeep container =>
    "maximum recursion depth exceeded while decoding a JSON " ++
      (if container = .array then "array" else "object") ++ " from a unicode string"

/-- Why a lookup has no answer. -/
inductive LookupError where
  | contained (failure : ReadFailure)
  | fault (fault : LookupFault)
deriving DecidableEq, Repr

namespace Bpftool

/-- The counters in what the tool printed. -/
def readOutput (output : List UInt8) : Except LookupError (List Counters) :=
  let text := Utf8.decodeLossy output
  match Json.readDocument text with
  | .error (.flawed flaw left) => .error (.contained (.badJson (Json.locate text flaw left)))
  | .error (.tooManyDigits count) => .error (.fault (.tooManyDigits count))
  | .error (.tooDeep container) => .error (.fault (.tooDeep container))
  | .ok document =>
    match decode document with
    | .ok counters => .ok counters
    | .error error => .error (.contained (.malformed error))

/-- What a run of the tool for a key of a map says about its counters. -/
def interpret {limit : Type} (tool : Tool limit) (map : String) (key : Int) :
    Run → Except LookupError (List Counters)
  | .notStarted number reason => .error (.contained (.notStarted tool.program number reason))
  | .timedOut => .error (.contained (.timedOut map key))
  | .ended status output errors =>
    if status ≠ 0 then
      .error (.contained (.failed map key (trim (Utf8.decodeLossy errors))))
    else readOutput output
  | .refused refusal => .error (.fault (.run refusal))

/-- The counters of a key of a map, `run` telling what a command line comes to. -/
def lookup {limit : Type} (tool : Tool limit) (run : List String → Run) (map : String)
    (key : Int) : Except LookupError (List Counters) :=
  match command tool map key with
  | .error error => .error (.fault (.key error))
  | .ok words => interpret tool map key (run words)

end Bpftool

end RedirectMonitor
