/-
The loop that turns readings into reports, as a machine of small steps. A run collects once
for a first baseline; every cycle then swaps the snapshots, collects, renders a report and
waits. The cancel flag is looked at when a run is launched, when a collection is complete
and when a wait is over, so that a run ends after the collection or the report at hand.
However a run ends, it clears the flag behind it.
-/

import RedirectMonitor.Report
import RedirectMonitor.Store

namespace RedirectMonitor

/-- The seconds between two reports unless told otherwise. -/
def defaultInterval : Quantity := .real (.ofDecimal false 2 0)

/-- A poll loop: what it fills, how often, and what is known of its runs. -/
structure PollLoop where
  store : Store
  interval : Quantity
  /-- An end of the current run, or of the next one, was asked for. -/
  cancelled : Bool := false
  running : Bool := false
  /-- How many reports were rendered so far, over all runs. -/
  cycles : Nat := 0
  /-- The error that ended the last run in the background. -/
  error : Option MonitorError := none
  /-- The number of the background thread that the loop refers to. -/
  thread : Option Nat := none
deriving DecidableEq, Repr

namespace PollLoop

/-! ### Before a run -/

/-- An interval has to be positive. -/
def checkInterval (value : Quantity) : Except Fault Quantity :=
  if value.isNonpositive then .error (.interval value) else .ok value

/-- A loop over a store that has not run yet. -/
def create (store : Store) (interval : Quantity) : Except Fault PollLoop := do
  let interval ← checkInterval interval
  pure { store, interval }

/-- The loop with the interval that a start asks for, if it asks for one. -/
def withInterval (loop : PollLoop) : Option Quantity → Except Fault PollLoop
  | none => .ok loop
  | some value => do
    let interval ← checkInterval value
    pure { loop with interval }

def cancel (loop : PollLoop) : PollLoop := { loop with cancelled := true }

def clearFlag (loop : PollLoop) : PollLoop := { loop with cancelled := false }

/-! ### The phases of a run -/

/-- Why a run collects. -/
inductive Purpose where
  /-- For a first baseline. -/
  | priming
  /-- For a report. -/
  | cycle
deriving DecidableEq, Repr

/-- How far a run has come. -/
inductive Phase where
  /-- It has not looked at the cancel flag yet. -/
  | launched
  /-- It directs readings into a side; some groups are left, and some have failed. -/
  | collecting (purpose : Purpose) (side : Side) (left : List Group) (failed : Nat)
  | rendered
  | waiting
  /-- It is about to end, because of a fault or without one. -/
  | leaving (fault : Option Fault)
  | over (fault : Option Fault)
deriving DecidableEq, Repr

/-- A report as it is rendered: which snapshot was the newest, both snapshots, and the rows. -/
structure View where
  newest : Side
  current : Snapshot
  previous : Snapshot
  rows : List Row
deriving DecidableEq, Repr

/-- What a run shows to the outside. -/
inductive Event where
  | noted (notice : Notice)
  | looked (address : Address)
  | reported (view : View)
  /-- A wait of an interval is asked for. -/
  | rests (interval : Quantity)
deriving DecidableEq, Repr

/-- Where a step leads to: the phase, the loop and the state of the world after it, and what it
shows. -/
structure Step (σ : Type) where
  phase : Phase
  loop : PollLoop
  state : σ
  events : List Event := []

variable {σ : Type}

/-! ### Steps -/

/-- A collection for a purpose begins. -/
def beginCollection (purpose : Purpose) (loop : PollLoop) (state : σ) (events : List Event) :
    Step σ :=
  { phase := .collecting purpose loop.store.newest loop.store.groups 0, loop, state, events }

/-- The next cycle begins with a swap. -/
def beginCycle (loop : PollLoop) (state : σ) : Step σ :=
  beginCollection .cycle { loop with store := loop.store.swap } state []

/-- A run that finds the flag set consumes it and is over; else it is under way. -/
def launch (loop : PollLoop) (state : σ) : Step σ :=
  if loop.cancelled then { phase := .over none, loop := loop.clearFlag, state }
  else
    beginCollection .priming { loop with running := true } state [.noted (.polling loop.interval)]

def readNext (world : World σ) (purpose : Purpose) (side : Side) (group : Group)
    (left : List Group) (failed : Nat) (loop : PollLoop) (state : σ) : Step σ :=
  let read := loop.store.readGroup world side group state
  { phase := match read.fault with
      | some fault => .leaving (some fault)
      | none => .collecting purpose side left (failed + read.failed)
    loop := { loop with store := read.store }
    state := read.state
    events := .looked group.address :: read.notices.map .noted }

/-- A report is rendered from the two snapshots. -/
def render (loop : PollLoop) (state : σ) : Step σ :=
  let store := loop.store
  let report := Report.rows store.current store.previous
  let notices := report.notices.map Event.noted
  match report.outcome with
  | .error fault => { phase := .leaving (some (.rate fault)), loop, state, events := notices }
  | .ok rows =>
    let view : View := ⟨store.newest, store.current, store.previous, rows⟩
    { phase := .rendered
      loop := { loop with cycles := loop.cycles + 1 }
      state
      events := notices ++ [.reported view] }

/-- A collection is complete: after the first one a cycle begins, after another one its report is
rendered, unless the flag is set. -/
def completeCollection (purpose : Purpose) (failed : Nat) (loop : PollLoop) (state : σ) : Step σ :=
  match purpose with
  | .priming =>
    if loop.cancelled then { phase := .leaving none, loop, state } else beginCycle loop state
  | .cycle =>
    let stale := if failed = 0 then [] else [Event.noted (.staleGroups failed)]
    if loop.cancelled then { phase := .leaving none, loop, state, events := stale }
    else
      let report := render loop state
      { report with events := stale ++ report.events }

/-- The run clears the flag and stops. -/
def leave (fault : Option Fault) (loop : PollLoop) (state : σ) : Step σ :=
  { phase := .over fault
    loop := { loop with cancelled := false, running := false }
    state
    events := [.noted (.stopped loop.cycles)] }

/-- A wait is at hand. A run that was asked to end does not wait, and else the next cycle begins
after the wait, unless the system refuses it. -/
def wait (world : World σ) (loop : PollLoop) (state : σ) : Step σ :=
  if loop.cancelled then { phase := .leaving none, loop, state }
  else
    match world.waitRefusal? loop.interval with
    | some refusal => { phase := .leaving (some (.wait refusal)), loop, state }
    | none => beginCycle loop state

/-- The step from a phase; a run that is over stays as it is. -/
def step (world : World σ) (phase : Phase) (loop : PollLoop) (state : σ) : Step σ :=
  match phase with
  | .launched => launch loop state
  | .collecting purpose side (group :: left) failed =>
    readNext world purpose side group left failed loop state
  | .collecting purpose _ [] failed => completeCollection purpose failed loop state
  | .rendered => { phase := .waiting, loop, state, events := [.rests loop.interval] }
  | .waiting => wait world loop state
  | .leaving fault => leave fault loop state
  | .over fault => { phase := .over fault, loop, state }

end PollLoop

end RedirectMonitor
