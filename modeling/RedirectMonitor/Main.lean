/-
The program at the command line. It starts no process itself: whoever starts it runs the
tool for the tracked groups, in the order in which they are read, and writes what each run
printed as one line to the standard input. An empty line stands for a run that failed, and
the end of the input for an interrupt.
-/

import RedirectMonitor.LiveView
import RedirectMonitor.Monitor

namespace RedirectMonitor.Program

open RedirectMonitor.PollLoop

/-! ### What the program finds around it -/

/-- What was read last: a line of the input, unless it has ended, and the clock. -/
structure Answer where
  line : Option String := none
  nanoseconds : Nat := 0

/-- What a line says about a run of the tool. -/
def runOfLine (line : Option String) : Bpftool.Run :=
  let text := Text.trim (line.getD "").toList
  if text = [] then .ended 255 [] (Utf8.encode "no answer".toList)
  else .ended 0 (Utf8.encode text) []

/-- Where the kernel lists the possible CPUs. -/
def cpuListPath : String := "/sys/devices/system/cpu/possible"

/-- Whether something of a name can be opened, or is there without being open to the program. -/
def isThere (name : String) : IO Bool := do
  match ← (IO.FS.Handle.mk name .read).toBaseIO with
  | .ok _ => pure true
  | .error (.noFileOrDirectory ..) | .error (.inappropriateType ..) => pure false
  | .error _ => pure true

/-- The names that exist among those of a directory and its maps. -/
def findFiles (directory : PathName) : IO Files := do
  let isDirectory ← isThere (directory.toString ++ "/.")
  let maps ← counterMapNames.filterM fun map => isThere (directory.join (.ofString map)).toString
  pure
    { contains := fun path => .ok (maps.any fun map => path = directory.join (.ofString map))
      isDirectory := fun path => .ok (isDirectory && path = directory) }

/-- The kernel's list of possible CPUs. -/
def findCpuList : IO PossibleCpus.Source := do
  match ← (IO.FS.readBinFile cpuListPath).toBaseIO with
  | .ok bytes => pure (.file bytes.toList)
  | .error _ => pure .unreadable

/-- The environment of a program that looks for its maps in a directory. -/
def findEnvironment (directory : PathName) : IO (Environment Answer) := do
  pure
    { handler := .foreign 0
      files := ← findFiles directory
      cpuList := ← findCpuList
      cpuListPath
      reportedCpus := none
      run := fun tool words answer => (tool.perform words (runOfLine answer.line), answer)
      clock := fun answer => (.ok answer.nanoseconds, answer)
      waitRefusal? := Refusal.ofWait?
      signal := fun _ _ answer => ({ cancels := answer.line.isNone }, answer) }

/-! ### What the program writes -/

/-- The time of a line in the log: milliseconds of the monotonic clock. -/
def timeText : IO String := do pure (.ofList (Text.digits (← IO.monoMsNow)))

/-- Notices of a severity at least go to the error output. -/
def writeNotices (least : Severity) (notices : List Notice) : IO Unit := do
  let time ← timeText
  (← IO.getStderr).putStr (.ofList (Monitor.logText time (Monitor.logged least notices)))

/-- A text goes to the standard output at once. -/
def write (text : List Char) : IO Unit := do
  let output ← IO.getStdout
  output.putStr (.ofList text)
  output.flush

/-- What a live view shows: the line about its report, and the cells of its table. -/
def viewText (view : LiveView Answer) : List Char :=
  Text.join ['\n'] (view.summary :: view.table.map (Text.join ['\t'])) ++ ['\n', '\n']

/-- What the events of a step show, as reports or as a live view. -/
def showEvents (settings : Settings) (view : LiveView Answer) (events : List Event) :
    IO (LiveView Answer) := do
  writeNotices (Monitor.logLevel settings) (Monitor.noticesOf events)
  let view := events.foldl LiveView.receive view
  if settings.liveView then
    let shown := view.update
    if !view.queue.isEmpty then write (viewText shown)
    pure shown
  else
    let text := Monitor.outputOf events
    if !text.isEmpty then write text
    pure view

/-! ### Polling -/

def milliseconds : Quantity → Nat
  | .whole seconds => seconds.toNat * 1000
  | .real seconds => (seconds.truncate?.getD 0).toNat * 1000

/-- What comes from outside before a step from a phase. -/
def await (interval : Quantity) (phase : Phase) (answer : Answer) : IO Answer := do
  match phase.moment? with
  | some .lookup =>
    let line ← (← IO.getStdin).getLine
    pure { line := if line.isEmpty then none else some line, nanoseconds := ← IO.monoNanosNow }
  | some .wait =>
    if answer.line.isSome then IO.sleep (milliseconds interval).toUInt32
    pure answer
  | some .render | none => pure answer

/-- The run of the caller, step by step, up to the fault that ends it. -/
partial def follow (settings : Settings) (surroundings : Surroundings Answer)
    (view : LiveView Answer) : IO (Option Fault) := do
  match view.activity.call with
  | none => pure none
  | some (.over fault) => pure fault
  | some phase =>
    let state ← await settings.interval phase view.activity.state
    let progress := { view.activity with state }.advance surroundings .caller
    follow settings surroundings
      (← showEvents settings { view with activity := progress.activity } progress.events)

/-! ### The program -/

/-- A call ends as an outcome says. -/
def conclude (outcome : Monitor.Outcome Answer) : IO UInt32 := do
  write outcome.output
  (← IO.getStderr).putStr (.ofList (outcome.errorOutput (← timeText)))
  match outcome.ending with
  | .returned status => pure (status.toNat % 256).toUInt32
  | .left status => pure status.toUInt32
  | .raised fault => throw (.userError fault.message)
  | .unfinished => pure 0

/-- The process before anything was answered. -/
def atStart : Monitor.Process Answer := { state := {}, handler := .foreign 0 }

/-- The outcome of a program that ends because of a fault or without one. -/
def outcomeOf (settings : Settings) (fault : Option Fault) : Monitor.Outcome Answer :=
  { Monitor.contain { atStart with ending := Monitor.endingOf (some (.over fault)) } with
    logLevel := some (Monitor.logLevel settings) }

/-- Reports are written, or shown in a live view, until an interrupt. -/
def poll (settings : Settings) (environment : Environment Answer)
    (tool : Bpftool.Tool Quantity) (store : Store) : IO (Option Fault) := do
  match PollLoop.create store settings.interval with
  | .error fault => pure (some fault)
  | .ok loop =>
    let view := LiveView.ofLoop loop {}
    follow settings (Monitor.surroundings environment tool)
      { view with activity := { view.activity with call := some .launched } }

def runWith (settings : Settings) : IO (Option Fault) := do
  match Monitor.tool settings with
  | .error fault => pure (some fault)
  | .ok tool =>
    let environment ← findEnvironment tool.directory
    let prepared := Monitor.prepare environment settings tool
    writeNotices (Monitor.logLevel settings) prepared.notices
    match prepared.outcome with
    | .error fault => pure (some fault)
    | .ok store => poll settings environment tool store

end RedirectMonitor.Program

/-- The program: monitors the counter maps until it is interrupted. -/
def main (words : List String) : IO UInt32 := do
  match RedirectMonitor.CommandLine.read (words.map String.toList) with
  | .error stop => RedirectMonitor.Program.conclude (RedirectMonitor.Monitor.stopped stop RedirectMonitor.Program.atStart)
  | .ok settings =>
    let fault ← RedirectMonitor.Program.runWith settings
    RedirectMonitor.Program.conclude (RedirectMonitor.Program.outcomeOf settings fault)
