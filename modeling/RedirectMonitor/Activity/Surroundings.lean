/-
Runs in their surroundings. Beside the world that is read from, surroundings can speak up at
three moments of a run: while a lookup is under way, when a report is out, and when a wait
has begun. They can ask for the end of the run, or keep it from going on for now.
-/

import RedirectMonitor.Activity

namespace RedirectMonitor

/-- The moments at which surroundings can speak up. -/
inductive Moment where
  | lookup
  | render
  | wait
deriving DecidableEq, Repr

namespace PollLoop.Phase

/-- The moment that comes before the step from a phase, if there is one. -/
def moment? : Phase → Option Moment
  | .collecting _ _ (_ :: _) _ => some .lookup
  | .rendered => some .render
  | .waiting => some .wait
  | .launched | .collecting _ _ [] _ | .leaving _ | .over _ => none

end PollLoop.Phase

/-- What surroundings have to say. -/
structure Signal where
  /-- The run is asked to end. -/
  cancels : Bool := false
  /-- The run cannot go on for now. -/
  hangs : Bool := false
deriving DecidableEq, Repr

/-- A world that speaks up at the moments of a run, knowing whose run it is and whether it was
asked to end. -/
structure Surroundings (σ : Type) where
  world : World σ
  signal : Activity.Actor → Moment → Bool → σ → Signal × σ

namespace Activity

open RedirectMonitor.PollLoop

variable {σ : Type}

/-- An activity that goes on or hangs, and what it has shown. -/
structure Progress (σ : Type) where
  activity : Activity σ
  events : List Event := []
  hangs : Bool := false

/-- What the surroundings say at a moment of an actor's run takes effect. -/
def hear (surroundings : Surroundings σ) (actor : Actor) (moment : Moment) (activity : Activity σ) :
    Progress σ :=
  let (signal, state) := surroundings.signal actor moment activity.loop.cancelled activity.state
  let activity := { activity with state }
  { activity := if signal.cancels then activity.cancel else activity
    hangs := signal.hangs }

/-- The surroundings are heard and then the actor makes its step, unless it hangs. -/
def advance (surroundings : Surroundings σ) (actor : Actor) (activity : Activity σ) : Progress σ :=
  let heard := match (activity.phase? actor).bind Phase.moment? with
    | none => { activity := activity }
    | some moment => activity.hear surroundings actor moment
  if heard.hangs then heard
  else
    let (activity, events) := heard.activity.step surroundings.world actor
    { activity, events }

/-- Up to so many steps of an actor, until its run is over or hangs. -/
def proceed (surroundings : Surroundings σ) (actor : Actor) : Nat → Activity σ → Progress σ
  | 0, activity => { activity := activity }
  | steps + 1, activity =>
    match activity.phase? actor with
    | none | some (.over _) => { activity := activity }
    | some _ =>
      let first := activity.advance surroundings actor
      if first.hangs then first
      else
        let rest := first.activity.proceed surroundings actor steps
        { rest with events := first.events ++ rest.events }

/-- Up to so many steps of a background thread, which ends if its run is over then. -/
def proceedThread (surroundings : Surroundings σ) (steps : Nat) (number : Nat)
    (activity : Activity σ) : Activity σ × List Event :=
  let progress := activity.proceed surroundings (.thread number) steps
  match progress.activity.phase? (.thread number) with
  | some (.over fault) =>
    let (activity, events) := progress.activity.endThread number fault
    (activity, progress.events ++ events)
  | _ => (progress.activity, progress.events)

/-- Every background thread, in the order of their starts, goes on as far as it can within so many
steps. -/
def settle (surroundings : Surroundings σ) (steps : Nat) (activity : Activity σ) :
    Activity σ × List Event :=
  activity.threads.foldl (fun (activity, events) thread =>
    let (activity, more) := activity.proceedThread surroundings steps thread.number
    (activity, events ++ more)) (activity, [])

/-- The caller starts a run and waits for its end, for at most so many steps; the fault that ended
it, if one did, is what the start returns with. -/
def startAndWait (surroundings : Surroundings σ) (steps : Nat) (interval : Option Quantity)
    (activity : Activity σ) : (Activity σ × List Event) × Option Fault :=
  match activity.start interval with
  | .error fault => ((activity, []), some fault)
  | .ok activity =>
    let progress := activity.proceed surroundings .caller steps
    let fault := match progress.activity.call with
      | some (.over fault) => fault
      | _ => none
    ((progress.activity.endCall, progress.events), fault)

end Activity

end RedirectMonitor
