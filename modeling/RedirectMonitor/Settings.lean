/-
The settings of the monitor and what is asked of them: the interval between reports, the
number of redirect targets and the time limit of a read have to be positive. The first
setting that is at most zero is refused; what is no number is not at most zero.
-/

import RedirectMonitor.PathName
import RedirectMonitor.Quantity

namespace RedirectMonitor

/-- Where the counter maps are pinned unless told otherwise. -/
def defaultMapDirectory : String := "/sys/fs/bpf/xdp_redirect_cpu"

/-- How many redirect targets are tracked unless told otherwise. -/
def defaultTargets : Int := 12

/-- What the monitor is told to do. A directory or a program is missing only where the command
line gave the mark that ends the switches in its place. -/
structure Settings where
  directory : Option PathName := some (.ofString defaultMapDirectory)
  interval : Quantity := .whole 2
  targets : Quantity := .whole defaultTargets
  program : Option String := some "bpftool"
  readTimeout : Option Quantity := none
  liveView : Bool := false
  debug : Bool := false
deriving DecidableEq, Repr

/-- A setting that is not positive. -/
inductive SettingsError where
  | interval (value : Quantity)
  | targets (value : Quantity)
  | readTimeout (value : Quantity)
deriving DecidableEq, Repr

/-- The wording of a settings error. -/
def SettingsError.message : SettingsError → String
  | interval value => "--sec must be a positive integer, got " ++ .ofList value.text
  | targets value => "--targets must be positive, got " ++ .ofList value.text
  | readTimeout value => "--read-timeout must be positive, got " ++ .ofList value.text

namespace Settings

/-- The interval has to be positive. -/
def checkInterval (settings : Settings) : Except SettingsError Unit :=
  if settings.interval.isNonpositive then .error (.interval settings.interval) else .ok ()

/-- The number of targets has to be positive. -/
def checkTargets (settings : Settings) : Except SettingsError Unit :=
  if settings.targets.isNonpositive then .error (.targets settings.targets) else .ok ()

/-- The time limit, where there is one, has to be positive. -/
def checkReadTimeout (settings : Settings) : Except SettingsError Unit :=
  match settings.readTimeout with
  | none => .ok ()
  | some value => if value.isNonpositive then .error (.readTimeout value) else .ok ()

/-- The settings themselves, unless one of them is refused. -/
def check (settings : Settings) : Except SettingsError Settings := do
  settings.checkInterval
  settings.checkTargets
  settings.checkReadTimeout
  pure settings

end Settings

end RedirectMonitor
