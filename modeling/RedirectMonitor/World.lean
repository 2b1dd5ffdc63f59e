/-
What the monitor reads from and waits in: the counting subsystem and the clock, both of
which may change with every question, and a system that refuses some waits. One reading of
a counter group looks the group up, compares the number of its values with the number of
cores, and only then takes the time. A reading comes to values and a time, to a failure
that its caller contains, or to a fault.
-/

import RedirectMonitor.Group
import RedirectMonitor.MonitorError

namespace RedirectMonitor

/-- The counting subsystem and the clock over states of type `σ`, and the waits. -/
structure World (σ : Type) where
  lookup : String → Int → σ → Except LookupError (List Counters) × σ
  clock : σ → Except ClockFault Int × σ
  /-- Why a wait of an interval is refused, if it is. -/
  waitRefusal? : Quantity → Option Refusal := fun _ => none

/-- What a reading of a counter group comes to. -/
inductive Reading where
  | taken (time : Int) (values : List Counters)
  | unread (failure : ReadFailure)
  | broken (fault : Fault)
deriving DecidableEq, Repr

/-- A sample after a reading was directed into it: overwritten by values, else as it was. -/
def Sample.receive (sample : Sample) : Reading → Sample
  | .taken time values => sample.record time values
  | .unread _ | .broken _ => sample

namespace World

variable {σ : Type}

/-- The values stamped with the time. -/
def stamp (world : World σ) (values : List Counters) (state : σ) : Reading × σ :=
  match world.clock state with
  | (.ok time, state) => (.taken time values, state)
  | (.error fault, state) => (.broken (.error (.clock fault)), state)

/-- One reading under a key of a map, with one value expected from each of so many cores. -/
def read (world : World σ) (cores : Int) (map : String) (key : Int) (state : σ) : Reading × σ :=
  match world.lookup map key state with
  | (.error (.contained failure), state) => (.unread failure, state)
  | (.error (.fault fault), state) => (.broken (.lookup fault), state)
  | (.ok values, state) =>
    if (values.length : Int) ≠ cores then (.unread (.wrongCount cores values.length), state)
    else world.stamp values state

/-- The world whose counters come from runs of the tool. -/
def ofTool {limit : Type} (tool : Bpftool.Tool limit)
    (run : List String → σ → Bpftool.Run × σ) (clock : σ → Except ClockFault Int × σ) :
    World σ where
  lookup map key state :=
    match Bpftool.command tool map key with
    | .error error => (.error (.fault (.key error)), state)
    | .ok words =>
      let (outcome, state) := run words state
      (Bpftool.interpret tool map key outcome, state)
  clock := clock

/-- The world with a system that refuses some waits. -/
def refusing (world : World σ) (waitRefusal? : Quantity → Option Refusal) : World σ :=
  { world with waitRefusal? }

@[simp]
theorem lookup_refusing (world : World σ) (waitRefusal? : Quantity → Option Refusal) :
    (world.refusing waitRefusal?).lookup = world.lookup := rfl

end World

end RedirectMonitor
