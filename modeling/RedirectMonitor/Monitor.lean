/-
The program from its command line to its status. The settings are read first; then the
maps are checked, the CPUs are counted and the snapshots are made; then reports are
written until an interrupt asks for the end, or the live view takes over. An error of the
monitor is logged and becomes the status, any other fault leaves the program as it is. To
poll, the program installs an interrupt handler of its own, and when the poll has ended it
installs the one that it found.
-/

import RedirectMonitor.Activity.Surroundings
import RedirectMonitor.CommandLine.Usage
import RedirectMonitor.PossibleCpus
import RedirectMonitor.Report.Lines

namespace RedirectMonitor

/-- What an interrupt meets. -/
inductive InterruptHandler where
  /-- The program's own, which asks its loop to end. -/
  | own
  /-- One of those that others have installed. -/
  | foreign (number : Nat)
deriving DecidableEq, Repr

/-- All that the program meets outside of itself: what it looks at before it polls, and what it
reads and hears while it does. -/
structure Environment (σ : Type) where
  /-- What an interrupt meets before the program is called. -/
  handler : InterruptHandler
  files : Files
  /-- The kernel's list of possible CPUs, and where it is. -/
  cpuList : PossibleCpus.Source
  cpuListPath : String
  reportedCpus : Option Int
  /-- There is memory for the snapshots. -/
  memory : Bool := true
  /-- What a command line comes to that is run for a tool, whose time limit it is to keep. -/
  run : Bpftool.Tool Quantity → List String → σ → Bpftool.Run × σ
  clock : σ → Except ClockFault Int × σ
  /-- Why a wait of an interval is refused, if it is. -/
  waitRefusal? : Quantity → Option Refusal := fun _ => none
  /-- Interrupts, among others, while the program polls. -/
  signal : Moment → Bool → σ → Signal × σ
  /-- The status that the live view ends with, if it ends with one. -/
  liveViewStatus : Option Int := none

namespace Monitor

/-- How a call of the program ends. -/
inductive Ending where
  | returned (status : Int)
  /-- It leaves with a status while it reads the command line. -/
  | left (status : Nat)
  | raised (fault : Fault)
  /-- It has not ended within the steps that it was given. -/
  | unfinished
deriving DecidableEq, Repr

/-- What a call of the program finds and changes: the state of the world, and what an interrupt
meets. -/
structure Process (σ : Type) where
  state : σ
  handler : InterruptHandler

/-- What a call of the program leaves behind. -/
structure Outcome (σ : Type) extends Process σ where
  ending : Ending
  /-- What went to the standard output. -/
  output : List Char := []
  /-- What went to the error output before there was a log. -/
  complaint : List Char := []
  /-- The least severity that is logged, once there is a log. -/
  logLevel : Option Severity := none
  notices : List Notice := []
  /-- What the runs showed, the notices among it. -/
  events : List PollLoop.Event := []
  /-- The store and the interval that the live view was given, if it was opened. -/
  liveView : Option (Store × Quantity) := none

/-! ### The log -/

/-- The least severity that is logged. -/
def logLevel (settings : Settings) : Severity := if settings.debug then .debug else .warning

/-- The notices of a severity at least. -/
def logged (least : Severity) (notices : List Notice) : List Notice :=
  notices.filter fun notice => least.level ≤ notice.severity.level

/-- The lines of notices in the log, each behind its time. -/
def logText (time : String) (notices : List Notice) : List Char :=
  notices.flatMap fun notice => (time ++ " - " ++ notice.line ++ "\n").toList

/-- What a call wrote to the error output. -/
def Outcome.errorOutput {σ : Type} (outcome : Outcome σ) (time : String) : List Char :=
  outcome.complaint ++ match outcome.logLevel with
    | none => []
    | some least => logText time (logged least outcome.notices)

/-! ### The parts of a call -/

variable {σ : Type}

def tool (settings : Settings) : Except Fault (Bpftool.Tool Quantity) :=
  match settings.directory with
  | none => .error .noDirectory
  | some directory =>
    .ok {
      directory
      program := settings.program.elim .nameless .named
      timeout := settings.readTimeout }

/-- How many targets a quantity means. -/
def targetCount : Quantity → Int
  | .whole count => count
  | .real value => value.truncate?.getD 0

def checkMaps (environment : Environment σ) (directory : PathName) : Except Fault Unit :=
  match MapDirectory.check environment.files directory counterMapNames with
  | .ok () => .ok ()
  | .error (.unusable reason) => .error (.error (.maps reason))
  | .error (.unanswered fault) => .error (.file fault)

def countCpus (environment : Environment σ) : Noted Fault Int :=
  let count :=
    PossibleCpus.count environment.cpuListPath environment.cpuList environment.reportedCpus
  ⟨count.notices, count.outcome.mapError .cpuList⟩

def makeStore (environment : Environment σ) (cores targets : Int) : Noted Fault Store :=
  let store := Store.create environment.memory cores targets
  ⟨store.notices, store.outcome.mapError .error⟩

/-- The maps are checked, the CPUs counted and the snapshots made. -/
def prepare (environment : Environment σ) (settings : Settings) (tool : Bpftool.Tool Quantity) :
    Noted Fault Store := do
  .lift (checkMaps environment tool.directory)
  let cores ← countCpus environment
  makeStore environment cores (targetCount settings.targets)

/-- What a run of the loop hears while a handler is installed: an interrupt that meets another one
than the program's own does not ask the loop to end. -/
def heardBy (environment : Environment σ) :
    InterruptHandler → Moment → Bool → σ → Signal × σ
  | .own, moment, cancelled, state => environment.signal moment cancelled state
  | .foreign _, moment, cancelled, state =>
    let (signal, state) := environment.signal moment cancelled state
    ({ signal with cancels := false }, state)

/-- What a run of the loop reads and hears while a handler is installed. -/
def surroundingsUnder (environment : Environment σ) (handler : InterruptHandler)
    (tool : Bpftool.Tool Quantity) : Surroundings σ :=
  { world :=
      (World.ofTool tool (environment.run tool) environment.clock).refusing
        environment.waitRefusal?
    signal := fun _ => heardBy environment handler }

/-- What a run of the loop reads and hears under the program's own handler. -/
def surroundings (environment : Environment σ) (tool : Bpftool.Tool Quantity) : Surroundings σ :=
  surroundingsUnder environment .own tool

/-- The notices among the events of a run. -/
def noticesOf (events : List PollLoop.Event) : List Notice :=
  events.filterMap fun
    | .noted notice => some notice
    | _ => none

/-- What the reports among the events of a run put on the standard output. -/
def outputOf (events : List PollLoop.Event) : List Char :=
  events.flatMap fun
    | .reported view => Report.streamText (Report.blockCalls view.rows)
    | _ => []

/-- How a call ends whose run is in a phase. -/
def endingOf : Option PollLoop.Phase → Ending
  | some (.over none) => .returned ExitStatus.success.code
  | some (.over (some fault)) => .raised fault
  | _ => .unfinished

/-- A handler is installed; the one in its place before is given back. -/
def Process.install (process : Process σ) (handler : InterruptHandler) :
    InterruptHandler × Process σ :=
  (process.handler, { process with handler })

/-- What a part of a call leaves behind when a last act follows on its end, however it ends. -/
def Outcome.whenEnded (outcome : Outcome σ) (act : Process σ → Process σ) : Outcome σ :=
  if outcome.ending = .unfinished then outcome
  else { outcome with toProcess := act outcome.toProcess }

/-- The loop polls in the foreground. -/
def follow (environment : Environment σ) (tool : Bpftool.Tool Quantity) (steps : Nat)
    (loop : PollLoop) (process : Process σ) : Outcome σ :=
  let activity : Activity σ := { loop, state := process.state, call := some .launched }
  let progress :=
    activity.proceed (surroundingsUnder environment process.handler tool) .caller steps
  { process with
    state := progress.activity.state
    ending := endingOf progress.activity.call
    output := outputOf progress.events
    notices := noticesOf progress.events
    events := progress.events }

/-- The loop polls under the program's own handler, and the one before is installed again however
the poll ends. -/
def poll (environment : Environment σ) (tool : Bpftool.Tool Quantity) (steps : Nat)
    (loop : PollLoop) (process : Process σ) : Outcome σ :=
  let (previous, process) := process.install .own
  (follow environment tool steps loop process).whenEnded fun process =>
    (process.install previous).2

/-- The process in which the program is called. -/
def process (environment : Environment σ) (state : σ) : Process σ :=
  { state, handler := environment.handler }

/-- The program with its settings, up to the fault or the status with which it ends. -/
def run (environment : Environment σ) (settings : Settings) (steps : Nat) (state : σ) :
    Outcome σ :=
  let process := process environment state
  match tool settings with
  | .error fault => { process with ending := .raised fault }
  | .ok tool =>
    let prepared := prepare environment settings tool
    match prepared.outcome with
    | .error fault => { process with ending := .raised fault, notices := prepared.notices }
    | .ok store =>
      if settings.liveView then
        { process with
          ending := .returned (environment.liveViewStatus.getD 0)
          notices := prepared.notices
          liveView := some (store, settings.interval) }
      else
        match PollLoop.create store settings.interval with
        | .error fault => { process with ending := .raised fault, notices := prepared.notices }
        | .ok loop =>
          let outcome := poll environment tool steps loop process
          { outcome with notices := prepared.notices ++ outcome.notices }

/-- An error of the monitor is logged and becomes the status. -/
def contain (outcome : Outcome σ) : Outcome σ :=
  match outcome.ending with
  | .raised (.error error) =>
    { outcome with
      ending := .returned error.status.code
      notices := outcome.notices ++ [.fatal error.message] }
  | _ => outcome

/-- What is complained about a setting that is refused. -/
def refusal (error : SettingsError) : String := "ERR: " ++ error.message ++ "\n"

/-- A call that ends while its command line is read. -/
def stopped (stop : CommandLine.Stop) (process : Process σ) : Outcome σ :=
  match stop with
  | .help =>
    { process with
      ending := .left ExitStatus.success.code
      output := CommandLine.help.toList }
  | .misuse misuse =>
    { process with
      ending := .left ExitStatus.badOption.code
      complaint := misuse.report.toList }
  | .refused error =>
    { process with
      ending := .returned (MonitorError.settings error).status.code
      complaint := (refusal error).toList }
  | .noNumber => { process with ending := .raised .noNumber }

/-- A call of the program with the words of its command line, for at most so many steps of its
loop. -/
def main (environment : Environment σ) (words : List Switch.Word) (steps : Nat) (state : σ) :
    Outcome σ :=
  match CommandLine.read words with
  | .error stop => stopped stop (process environment state)
  | .ok settings =>
    { contain (run environment settings steps state) with logLevel := some (logLevel settings) }

end Monitor

end RedirectMonitor
