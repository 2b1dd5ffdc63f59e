/-
A poll loop with everyone who works on it: the caller, whose start returns when its run is
over, and the background threads. Their steps may alternate in any order. A background
thread keeps the monitor's own errors for the loop; any other fault ends it in silence. The
loop refers to the thread that was started last, until a stop has seen it end.
-/

import RedirectMonitor.PollLoop

namespace RedirectMonitor

/-- A background thread that has not ended. -/
structure PollThread where
  number : Nat
  phase : PollLoop.Phase
deriving DecidableEq, Repr

/-- A loop, the state of the world, and the runs that work on the loop. -/
structure Activity (σ : Type) where
  loop : PollLoop
  state : σ
  /-- The run of the caller, while it has not returned. -/
  call : Option PollLoop.Phase := none
  threads : List PollThread := []
  /-- How many background threads were started so far. -/
  started : Nat := 0

namespace Activity

open RedirectMonitor.PollLoop

variable {σ : Type}

/-- Those who can have a run. -/
inductive Actor where
  | caller
  | thread (number : Nat)
deriving DecidableEq, Repr

/-! ### The caller's requests -/

/-- Whether the thread of a number has not ended. -/
def isAlive (activity : Activity σ) (number : Nat) : Bool :=
  activity.threads.any fun thread => thread.number == number

/-- Whether the thread that the loop refers to has not ended. -/
def isRunning (activity : Activity σ) : Bool :=
  match activity.loop.thread with
  | none => false
  | some number => activity.isAlive number

/-- The caller starts a run of its own, with another interval if it asks for one. -/
def start (activity : Activity σ) (interval : Option Quantity) : Except Fault (Activity σ) := do
  let loop ← activity.loop.withInterval interval
  pure { activity with loop, call := some .launched }

/-- A new thread is started, unless the loop refers to one that has not ended. -/
def startBackground (activity : Activity σ) : Activity σ :=
  if activity.isRunning then activity
  else
    { activity with
      loop := { activity.loop with error := none, thread := some activity.started }
      threads := activity.threads ++ [⟨activity.started, .launched⟩]
      started := activity.started + 1 }

def cancel (activity : Activity σ) : Activity σ := { activity with loop := activity.loop.cancel }

/-- A stop returns, its request made before. Where the thread has not ended its patience has, and
all stays as it is; else the loop lets go of the thread and the flag is cleared. -/
def finishStop (activity : Activity σ) : Activity σ :=
  if activity.isRunning then activity
  else { activity with loop := { activity.loop with thread := none, cancelled := false } }

/-! ### Steps of the runs -/

def phase? (activity : Activity σ) : Actor → Option Phase
  | .caller => activity.call
  | .thread number =>
    (activity.threads.find? fun thread => thread.number == number).map PollThread.phase

def setPhase (activity : Activity σ) (actor : Actor) (phase : Phase) : Activity σ :=
  match actor with
  | .caller => { activity with call := some phase }
  | .thread number =>
    { activity with
      threads := activity.threads.map fun thread =>
        if thread.number == number then { thread with phase } else thread }

/-- A thread whose run is over ends, and keeps an error of the monitor for the loop. -/
def endThread (activity : Activity σ) (number : Nat) (fault : Option Fault) :
    Activity σ × List Event :=
  let threads := activity.threads.filter fun thread => thread.number != number
  match fault with
  | some (.error error) =>
    ({ activity with threads, loop := { activity.loop with error := some error } },
      [.noted .runFailed])
  | _ => ({ activity with threads }, [])

def endCall (activity : Activity σ) : Activity σ := { activity with call := none }

/-- One step of an actor; nothing happens where it has no run. -/
def step (world : World σ) (actor : Actor) (activity : Activity σ) : Activity σ × List Event :=
  match activity.phase? actor with
  | none => (activity, [])
  | some (.over fault) =>
    match actor with
    | .caller => (activity.endCall, [])
    | .thread number => activity.endThread number fault
  | some phase =>
    let next := PollLoop.step world phase activity.loop activity.state
    ({ activity with loop := next.loop, state := next.state }.setPhase actor next.phase,
      next.events)

end Activity

end RedirectMonitor
