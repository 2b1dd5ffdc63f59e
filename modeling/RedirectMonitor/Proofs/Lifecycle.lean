/-
This file keeps account of a loop over its whole life, which is made of starts and of requests to
end, one after the other. A start may be rejected for its interval, may find that its end was
already asked for, or may run until it is asked to end or a fault leaves it.

The content is that every start leaves the loop as the next one needs it. However its run ended,
the loop is stopped and its flag is clear, so that a request to end counts for one start only; a
start that is rejected changes nothing; and the loop has counted the reports that were rendered.
-/

import Mathlib.Logic.Function.Iterate
import RedirectMonitor.Proofs.Turns

namespace RedirectMonitor

namespace PollLoop

/-! ### What a run keeps -/

/-- Before it begins and when it is over a run does not count as running, and when it is over the
flag is clear. -/
def Phase.Orderly (loop : PollLoop) : Phase → Prop
  | .launched => loop.running = false
  | .over _ => loop.running = false ∧ loop.cancelled = false
  | .collecting .. | .rendered | .waiting | .leaving _ => True

variable {loop loop' : PollLoop} {phase phase' : Phase} {made shown : Nat}

theorem Passes.orderly (passes : Passes loop phase phase' loop' made shown)
    (orderly : phase.Orderly loop) : phase'.Orderly loop' := by
  cases passes with
  | refused => exact ⟨orderly, rfl⟩
  | reads groups onward => rcases onward with ⟨failed', rfl⟩ | ⟨fault, rfl⟩ <;> exact trivial
  | leaves fault => exact ⟨rfl, rfl⟩
  | primes | stops | cycles | renders | fails | rests => exact trivial

/-- Between two steps the flag may change, which has no say before the run is over. -/
theorem Phase.Waits.orderly (waits : phase.Waits phase') (notOver : ∀ fault, phase ≠ .over fault)
    (flag : Bool) (orderly : phase.Orderly loop) :
    phase'.Orderly { loop with cancelled := flag } := by
  cases waits with
  | broken fault => exact trivial
  | same =>
    cases phase with
    | «over» fault => exact absurd rfl (notOver fault)
    | launched => exact orderly
    | collecting | rendered | waiting | leaving => exact trivial

theorem Passes.cycles_eq (passes : Passes loop phase phase' loop' made shown) :
    loop'.cycles = loop.cycles + shown := by
  cases passes <;> rfl

/-- A new loop takes every interval that is not zero or less. -/
theorem create_eq_ok_iff {store : Store} {interval : Quantity} {loop : PollLoop} :
    create store interval = .ok loop ↔
      interval.isNonpositive = false ∧ { store, interval } = loop := by
  unfold create checkInterval
  cases interval.isNonpositive with
  | true => exact ⟨fun created => (by cases created), fun both => by cases both.1⟩
  | false => exact ⟨fun created => ⟨rfl, Except.ok.inj created⟩, fun both => congrArg _ both.2⟩

end PollLoop

namespace Activity

open RedirectMonitor.PollLoop

variable {σ : Type} {world : World σ}

/-- The account of a run in good order, with as many cycles counted as reports rendered. -/
structure Counted (phase : Phase) (loop : PollLoop) (lookups reports : Nat) : Prop where
  orderly : phase.Orderly loop
  cycles : loop.cycles = reports

variable (world) in
/-- However a start is played, its run stays in good order and counts its reports. -/
theorem counted_play (turns : List (Turn σ)) {activity : Activity σ} {events : List Event}
    (start : activity.Accounts Counted events) :
    (play world turns activity).1.Accounts Counted
      (events ++ (play world turns activity).2) := by
  refine accounts_play (fun passes counted => ?_) (fun notOver waits _ counted => ?_) turns start
  · exact ⟨passes.orderly counted.orderly, by rw [passes.cycles_eq, counted.cycles]⟩
  · exact ⟨waits.orderly notOver _ counted.orderly, counted.cycles⟩

/-! ### Starts that were asked to end before -/

/-- A run that finds its flag set is over with its first step, and nothing else happens to it. -/
structure Refused (store : Store) (activity : Activity σ) (events : List Event) : Prop where
  phase : (activity.call = some .launched ∧ activity.loop.cancelled = true) ∨
    activity.call = some (.over none)
  store : activity.loop.store = store
  silent : events = []

variable (world) in
theorem refused_play (turns : List (Turn σ)) {store : Store} {activity : Activity σ}
    {events : List Event} (start : activity.Refused store events) :
    (play world turns activity).1.Refused store (events ++ (play world turns activity).2) := by
  refine play_induction turns (fun activity events underWay refused turn _ => ?_) start
  obtain ⟨phase, call, notOver⟩ := (isUnderWay_iff activity).mp underWay
  obtain ⟨⟨launched, pending⟩ | isOver, rfl, rfl⟩ := refused
  · cases turn with
    | step =>
      rw [turn_step world launched (fun fault => by simp)]
      have refuses : PollLoop.step world .launched activity.loop activity.state =
          { phase := .over none, loop := activity.loop.clearFlag, state := activity.state } :=
        if_pos pending
      rw [refuses]
      exact ⟨.inr rfl, rfl, rfl⟩
    | cancel => exact ⟨.inl ⟨launched, rfl⟩, rfl, rfl⟩
    | drift state => exact ⟨.inl ⟨launched, pending⟩, rfl, rfl⟩
    | breaks fault =>
      have same : activity.turn world (.breaks fault) = (activity, []) := by
        show (activity.interrupt fault, []) = (activity, [])
        unfold interrupt
        rw [launched]
      rw [same]
      exact ⟨.inl ⟨launched, pending⟩, rfl, rfl⟩
  · rw [isOver] at call
    exact absurd (Option.some.inj call).symm (notOver none)

/-! ### Histories -/

/-- What one thread asks of a loop: the end of a run, or a start, with the turns of its run. -/
inductive Deed (σ : Type) where
  | cancel
  | start (interval : Option Quantity) (turns : List (Turn σ))

/-- What a request comes to: the activity after it, what it shows, and the fault that it raises, if
it does. A start returns when its run is over. -/
inductive Serves (world : World σ) (activity : Activity σ) :
    Deed σ → Activity σ → List Event → Option Fault → Prop
  | cancelled : Serves world activity .cancel activity.cancel [] none
  | rejected {interval : Option Quantity} {turns : List (Turn σ)} {fault : Fault}
      (refused : activity.start interval = .error fault) :
      Serves world activity (.start interval turns) activity [] (some fault)
  | returned {interval : Option Quantity} {turns : List (Turn σ)} {begun : Activity σ}
      {fault : Option Fault} (started : activity.start interval = .ok begun)
      (isOver : (play world turns begun).1.call = some (.over fault)) :
      Serves world activity (.start interval turns) (play world turns begun).1.endCall
        (play world turns begun).2 fault

/-- A start that waits for the end of its run in surroundings is served, if it sees the end. -/
theorem serves_startAndWait (surroundings : Surroundings σ) (steps : Nat)
    {activity begun : Activity σ} {interval : Option Quantity} {fault : Option Fault}
    (started : activity.start interval = .ok begun)
    (isOver : (begun.proceed surroundings .caller steps).activity.call = some (.over fault)) :
    let ((after, shown), result) := activity.startAndWait surroundings steps interval
    ∃ turns, Serves surroundings.world activity (.start interval turns) after shown result := by
  obtain ⟨turns, played⟩ := turns_of_proceed surroundings steps begun
  have returned : Serves surroundings.world activity (.start interval turns)
      (begun.proceed surroundings .caller steps).activity.endCall
      (begun.proceed surroundings .caller steps).events fault := by
    have ends : (play surroundings.world turns begun).1.call = some (.over fault) := by
      rw [played]
      exact isOver
    have served := Serves.returned started ends
    rwa [played] at served
  simp only [startAndWait, started, isOver]
  exact ⟨turns, returned⟩

/-- Requests one after the other, each served before the next, with all that they showed. -/
inductive History (world : World σ) (first : Activity σ) : Activity σ → List Event → Prop
  | none : History world first first []
  | more {activity next : Activity σ} {events shown : List Event} {deed : Deed σ}
      {fault : Option Fault} (earlier : History world first activity events)
      (served : Serves world activity deed next shown fault) :
      History world first next (events ++ shown)

/-- The account of a loop between two requests: it is stopped and has counted its reports. -/
structure Settled (activity : Activity σ) (events : List Event) : Prop where
  stopped : activity.loop.running = false
  cycles : activity.loop.cycles = reports events

/-- A loop over a store that was just created is settled. -/
theorem settled_of_create {store : Store} {interval : Quantity} {loop : PollLoop}
    (created : PollLoop.create store interval = .ok loop) (state : σ) :
    Settled ({ loop, state } : Activity σ) [] := by
  obtain ⟨-, rfl⟩ := create_eq_ok_iff.mp created
  exact ⟨rfl, rfl⟩

/-- A start that is accepted begins its run in good order. -/
theorem Settled.begins {activity begun : Activity σ} {events : List Event}
    {interval : Option Quantity} (settled : activity.Settled events)
    (started : activity.start interval = .ok begun) : begun.Accounts Counted events := by
  obtain ⟨interval', rfl⟩ := begun_of_start started
  exact ⟨.launched, rfl, settled.stopped, settled.cycles⟩

/-- A start that returned has left the loop stopped and its flag clear. -/
theorem settled_of_returned {activity begun : Activity σ} {events : List Event}
    {interval : Option Quantity} {turns : List (Turn σ)} {fault : Option Fault}
    (settled : activity.Settled events) (started : activity.start interval = .ok begun)
    (isOver : (play world turns begun).1.call = some (.over fault)) :
    (play world turns begun).1.endCall.Settled (events ++ (play world turns begun).2) ∧
      (play world turns begun).1.endCall.loop.cancelled = false := by
  obtain ⟨phase, call, orderly, cycles⟩ := counted_play world turns (settled.begins started)
  obtain rfl := Option.some.inj (call.symm.trans isOver)
  exact ⟨⟨orderly.1, cycles⟩, orderly.2⟩

theorem Settled.serves {activity next : Activity σ} {events shown : List Event} {deed : Deed σ}
    {fault : Option Fault} (settled : activity.Settled events)
    (served : Serves world activity deed next shown fault) : next.Settled (events ++ shown) := by
  cases served with
  | cancelled | rejected =>
    rw [List.append_nil]
    exact ⟨settled.stopped, settled.cycles⟩
  | returned started isOver => exact (settled_of_returned settled started isOver).1

theorem History.settled {first activity : Activity σ} {events : List Event}
    (history : History world first activity events) (settled : first.Settled []) :
    activity.Settled events := by
  induction history with
  | none => exact settled
  | more _ served inductionHypothesis => exact inductionHypothesis.serves served

/-- A start whose end was asked for before consumes the request: it shows nothing, leaves the store
as it is and raises nothing. -/
theorem refused_of_returned {activity begun : Activity σ} {interval : Option Quantity}
    {turns : List (Turn σ)} {fault : Option Fault} (pending : activity.loop.cancelled = true)
    (started : activity.start interval = .ok begun)
    (isOver : (play world turns begun).1.call = some (.over fault)) :
    (play world turns begun).2 = [] ∧
      (play world turns begun).1.loop.store = activity.loop.store ∧ fault = none := by
  obtain ⟨interval', rfl⟩ := begun_of_start started
  have start : Refused activity.loop.store { activity with
      loop := { activity.loop with interval := interval' }, call := some .launched } [] :=
    ⟨.inl ⟨rfl, pending⟩, rfl, rfl⟩
  have refused := refused_play world turns start
  rw [List.nil_append] at refused
  refine ⟨refused.silent, refused.store, ?_⟩
  rcases refused.phase with ⟨launched, -⟩ | consumed
  · rw [isOver] at launched
    cases launched
  · exact Phase.over.inj (Option.some.inj (isOver.symm.trans consumed))

/-- A start that finds the flag clear begins with a collection for a first baseline. -/
theorem primes_of_free {activity begun : Activity σ} {interval : Option Quantity}
    (free : activity.loop.cancelled = false) (started : activity.start interval = .ok begun) :
    (begun.turn world .step).1.call =
      some (.collecting .priming activity.loop.store.newest activity.loop.store.groups 0) := by
  obtain ⟨interval', rfl⟩ := begun_of_start started
  rw [turn_step world rfl (fun fault => by simp)]
  simp [PollLoop.step, launch, free, beginCollection]

/-- To ask for an end more than once is to ask for it once. -/
theorem cancel_iterate (activity : Activity σ) (count : Nat) :
    cancel^[count + 1] activity = activity.cancel := by
  induction count with
  | zero => rfl
  | succ count inductionHypothesis =>
    rw [Function.iterate_succ_apply', inductionHypothesis]
    rfl

/-- Whatever was asked of a loop since it was created, it is stopped, and at each moment, also while
a start has not returned, it has counted its reports. A start that is rejected for its interval
changes nothing. Any other one leaves the flag clear: if its end was asked for before, however
often, it does nothing but consume the request, and the next start begins as a first one does. -/
theorem lifecycle_accounts (world : World σ) {store : Store} {initial : Quantity}
    {loop : PollLoop} (created : PollLoop.create store initial = .ok loop) (state : σ)
    {activity : Activity σ} {events : List Event}
    (history : History world { loop, state } activity events) :
    activity.loop.running = false ∧ activity.loop.cycles = reports events ∧
    (∀ count, cancel^[count + 1] activity = activity.cancel) ∧
    (∀ interval turns begun, activity.start interval = .ok begun →
      let now := play world turns begun
      now.1.loop.cycles = reports (events ++ now.2)) ∧
    ∀ interval turns next shown result,
      Serves world activity (.start interval turns) next shown result →
      next.loop.running = false ∧
      (∀ value, interval = some value → value.isNonpositive = true →
        next = activity ∧ shown = [] ∧ result = some (.interval value)) ∧
      ((∀ value, interval = some value → value.isNonpositive = false) →
        next.loop.cancelled = false ∧
        (activity.loop.cancelled = true →
          shown = [] ∧ next.loop.store = activity.loop.store ∧ result = none) ∧
        ∀ interval' begun, next.start interval' = .ok begun →
          (begun.turn world .step).1.call =
            some (.collecting .priming next.loop.store.newest next.loop.store.groups 0)) := by
  have settled := history.settled (settled_of_create created state)
  have counts (interval : Option Quantity) (turns : List (Turn σ)) (begun : Activity σ)
      (started : activity.start interval = .ok begun) :
      (play world turns begun).1.loop.cycles =
        reports (events ++ (play world turns begun).2) := by
    obtain ⟨phase, -, counted⟩ := counted_play world turns (settled.begins started)
    exact counted.cycles
  refine ⟨settled.stopped, settled.cycles, cancel_iterate activity, counts, ?_⟩
  intro interval turns next shown result served
  refine ⟨(settled.serves served).stopped, fun value asked nonpositive => ?_, fun positive => ?_⟩
  · subst asked
    have refused : activity.start (some value) = .error (.interval value) := by
      rw [start_some, if_pos nonpositive]
    cases served with
    | rejected refused' =>
      obtain rfl := Except.error.inj (refused'.symm.trans refused)
      exact ⟨rfl, rfl, rfl⟩
    | returned started isOver => cases started.symm.trans refused
  · cases served with
    | rejected refused =>
      cases interval with
      | none => cases refused
      | some value =>
        rw [start_some, positive value rfl] at refused
        cases refused
    | returned started isOver =>
      have clear := (settled_of_returned settled started isOver).2
      exact ⟨clear, fun pending => refused_of_returned pending started isOver,
        fun interval' begun started' => primes_of_free clear started'⟩

/-- A loop over one core and one target that has not run, in a world where nothing can be read. -/
def unused : Activity Script :=
  { loop := { store := .blank 1 1, interval := .whole 1 }, state := { lines := [] } }

/-- The same loop after two requests to end and a start that consumed them. -/
def reopened : Activity Script :=
  (play .scripted [.step] { unused.cancel.cancel with call := some .launched }).1.endCall

/-- The turns of a run that is asked to end while it waits after its first report. -/
def oneReport : List (Turn Script) :=
  List.replicate 12 .step ++ .cancel :: List.replicate 2 .step

/-- The next run of the loop. -/
def rerun : Activity Script × List Event :=
  play .scripted oneReport { reopened with call := some .launched }

theorem lifecycle_accounts_rerun :
    unused.cancel.cancel.loop.cancelled = true ∧ reopened.loop.cancelled = false ∧
      History .scripted unused rerun.1.endCall rerun.2 ∧ reports rerun.2 = 1 ∧
      rerun.1.endCall.loop.running = false ∧ rerun.1.endCall.loop.cycles = 1 := by
  have created : PollLoop.create (.blank 1 1) (.whole 1) = .ok unused.loop := rfl
  have asked : History .scripted unused unused.cancel.cancel [] :=
    .more (.more .none .cancelled) .cancelled
  have started : unused.cancel.cancel.start none =
      .ok { unused.cancel.cancel with call := some .launched } := rfl
  have consumed : Serves .scripted unused.cancel.cancel (.start none [.step]) reopened [] none :=
    .returned started (by decide +kernel)
  have restarted : reopened.start none = .ok { reopened with call := some .launched } := rfl
  have returned : Serves .scripted reopened (.start none oneReport) rerun.1.endCall rerun.2
      none := .returned restarted (by decide +kernel)
  have reopens : History .scripted unused reopened [] := .more asked consumed
  have history : History .scripted unused rerun.1.endCall rerun.2 := by
    rw [← List.nil_append rerun.2]
    exact .more reopens returned
  have rendered : reports rerun.2 = 1 := by decide +kernel
  obtain ⟨-, -, -, -, starts⟩ := lifecycle_accounts .scripted created unused.state asked
  obtain ⟨-, -, accepted⟩ := starts none [.step] reopened [] none consumed
  obtain ⟨clear, -⟩ := accepted fun value none => by cases none
  obtain ⟨stopped, cycles, -⟩ := lifecycle_accounts .scripted created unused.state history
  exact ⟨rfl, clear, history, rendered, stopped, cycles.trans rendered⟩

end Activity

end RedirectMonitor
