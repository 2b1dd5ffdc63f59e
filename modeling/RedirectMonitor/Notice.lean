/-
What the monitor writes to its log. A notice is the event itself; its severity, the part
of the monitor it comes from and its wording are functions of it. `Noted` is a computation
that may fail and writes notices on the way; notices written before a failure are kept.
-/

import RedirectMonitor.Bpftool.Lookup
import RedirectMonitor.Quantity

namespace RedirectMonitor

open RedirectMonitor.Text

/-- How much a notice matters. -/
inductive Severity where
  | debug
  | info
  | warning
  | error
deriving DecidableEq, Repr

def Severity.name : Severity → String
  | debug => "DEBUG"
  | info => "INFO"
  | warning => "WARNING"
  | error => "ERROR"

/-- The number by which severities compare. -/
def Severity.level : Severity → Nat
  | debug => 10
  | info => 20
  | warning => 30
  | error => 40

/-- An event for the log. -/
inductive Notice where
  /-- A counter is lower than before. -/
  | counterReset (previous current : Counters)
  /-- The list of CPUs cannot be read. -/
  | badCpuList (path : String) (text : List Char)
  /-- A group could not be read. -/
  | readFailed (map : String) (key : Int) (failure : ReadFailure)
  | allocated (cores targets : Int)
  /-- A run has begun. -/
  | polling (interval : Quantity)
  /-- Some groups could not be read in this cycle. -/
  | staleGroups (count : Nat)
  /-- A run has ended. -/
  | stopped (reports : Nat)
  | runFailed
  | fatal (message : String)
deriving DecidableEq, Repr

namespace Notice

def severity : Notice → Severity
  | counterReset .. | allocated .. | staleGroups _ => .debug
  | polling _ | stopped _ => .info
  | badCpuList .. | readFailed .. => .warning
  | runFailed | fatal _ => .error

/-- The part of the monitor that a notice comes from. -/
def origin : Notice → String
  | counterReset .. => "cpumap_top.rates"
  | badCpuList .. | readFailed .. => "cpumap_top.source"
  | allocated .. => "cpumap_top.store"
  | polling _ | staleGroups _ | stopped _ | runFailed => "cpumap_top.poller"
  | fatal _ => "cpumap_top.cli"

def message : Notice → String
  | counterReset previous current =>
    "Counter reset detected (processed " ++ integerText previous.processed ++ " -> " ++
      integerText current.processed ++ ", dropped " ++ integerText previous.dropped ++ " -> " ++
      integerText current.dropped ++ ")"
  | badCpuList path text =>
    "Cannot parse " ++ path ++ ": " ++ .ofList (quoted (codePoints text))
  | readFailed map key failure =>
    "Counter read failed map:" ++ map ++ " key:" ++ keyText key ++ ": " ++ failure.message
  | allocated cores targets =>
    "Allocated snapshots for " ++ integerText cores ++ " cores and " ++ integerText targets ++
      " targets"
  | polling interval => "Polling every " ++ .ofList interval.text ++ " seconds"
  | staleGroups count => integerText count ++ " counter groups kept stale data this cycle"
  | stopped reports => "Polling stopped after " ++ integerText reports ++ " reports"
  | runFailed => "Poll loop failed"
  | fatal message => message

/-- The line of a notice in the log, after its time. -/
def line (notice : Notice) : String :=
  notice.origin ++ " - " ++ notice.severity.name ++ " - " ++ notice.message

end Notice

/-- The outcome of a computation with the notices it wrote. -/
structure Noted (ε α : Type) where
  notices : List Notice
  outcome : Except ε α

namespace Noted

variable {ε α β : Type}

instance : Monad (Noted ε) where
  pure value := ⟨[], .ok value⟩
  bind first next :=
    match first.outcome with
    | .error error => ⟨first.notices, .error error⟩
    | .ok value =>
      let second := next value
      ⟨first.notices ++ second.notices, second.outcome⟩

/-- Writes one notice. -/
def note (notice : Notice) : Noted ε Unit := ⟨[notice], .ok ()⟩

/-- A computation without notices. -/
def lift (outcome : Except ε α) : Noted ε α := ⟨[], outcome⟩

end Noted

end RedirectMonitor
