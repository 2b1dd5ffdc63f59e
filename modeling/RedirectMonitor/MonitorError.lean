/-
The errors of the monitor itself, each with its wording and the status with which the
program ends because of it, and the faults beside them that leave a run as they are.
-/

import RedirectMonitor.MapDirectory
import RedirectMonitor.Rate
import RedirectMonitor.Settings
import RedirectMonitor.Utf8

namespace RedirectMonitor

/-- The statuses with which the program ends. -/
inductive ExitStatus where
  | success
  | failure
  | badOption
  | badMaps
  | noMemory
deriving DecidableEq, Repr

def ExitStatus.code : ExitStatus → Nat
  | success => 0
  | failure => 1
  | badOption => 2
  | badMaps => 4
  | noMemory => 5

/-- The monotonic clock cannot be read, for a reason that the system gives. -/
structure ClockFault where
  reason : String
deriving DecidableEq, Repr

/-- The errors of the monitor itself. -/
inductive MonitorError where
  | unread (failure : ReadFailure)
  | clock (fault : ClockFault)
  | settings (error : SettingsError)
  | maps (reason : MapDirectory.Unusable)
  | memory (cores targets : Int)
deriving DecidableEq, Repr

namespace MonitorError

def message : MonitorError → String
  | unread failure => failure.message
  | clock fault => "monotonic clock unavailable: " ++ fault.reason
  | settings error => error.message
  | maps reason => reason.message
  | memory cores targets =>
    "cannot allocate snapshots (cores:" ++ integerText cores ++ " targets:" ++
      integerText targets ++ ")"

/-- The status with which the program ends because of an error. -/
def status : MonitorError → ExitStatus
  | unread _ | clock _ => .failure
  | settings _ => .badOption
  | maps _ => .badMaps
  | memory .. => .noMemory

end MonitorError

/-- What can end a run or the program before its time. Only the first kind is expected by those
who started it. -/
inductive Fault where
  | error (error : MonitorError)
  | lookup (fault : LookupFault)
  | rate (error : RateError)
  | cpuList (error : Utf8.IllFormed)
  /-- The file system gives no answer about the maps. -/
  | file (fault : FileFault)
  | interval (value : Quantity)
  /-- The wait between two reports is refused. -/
  | wait (refusal : Refusal)
  /-- A number was given as the mark that ends the switches. -/
  | noNumber
  /-- The directory of the maps was given as that mark. -/
  | noDirectory
deriving DecidableEq, Repr

def Fault.message : Fault → String
  | .error cause => cause.message
  | .lookup cause => cause.message
  | .rate cause => cause.message
  | .cpuList cause => cause.message
  | .file cause => cause.message
  | .interval value => "interval must be positive, got " ++ .ofList value.text
  | .wait refusal => refusal.reason
  | .noNumber => "'<=' not supported between instances of 'list' and 'int'"
  | .noDirectory => "expected str, bytes or os.PathLike object, not list"

end RedirectMonitor
