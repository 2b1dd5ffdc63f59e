/-
This file says what becomes of a stop that is called while a run is at work. A stop asks for an end
by the cancel flag, which it shares with everyone who works on the loop, and it clears the flag when
it returns, unless the loop still refers to a thread that is alive.

The content is that the flag carries the request only as long as nobody else clears it. Up to then
the run makes the lookups that its collection has left and renders nothing; from there on, nothing
distinguishes it from a run that was never asked to end. Three can clear the flag in between: a run
that is launched and takes the request for its own, a run that leaves, and a stop that sees no
thread alive. For a run of the caller the last one is the very stop that made the request, which
therefore leaves everything as it was.
-/

import RedirectMonitor.Proofs.Interleaving

namespace RedirectMonitor

namespace PollLoop

variable {loop loop' : PollLoop} {phase phase' : Phase} {made shown : Nat}

/-- Whether a run is at a collection or at the render of a report. -/
def Phase.isAtWork : Phase → Bool
  | .collecting .. | .rendered => true
  | .launched | .waiting | .leaving _ | .over _ => false

theorem Phase.goesOn_of_isAtWork (atWork : phase.isAtWork = true) : phase.goesOn = true := by
  cases phase with
  | collecting | rendered => rfl
  | launched | waiting | leaving | «over» => cases atWork

theorem Passes.cancelled_of_clears (passes : Passes loop phase phase' loop' made shown)
    (pending : loop.cancelled = true) (clears : phase.clears = true) :
    loop'.cancelled = false := by
  cases passes with
  | refused | leaves => rfl
  | primes free =>
    rw [pending] at free
    cases free
  | stops flagged complete => rcases complete with rfl | ⟨_, _, _, rfl⟩ <;> cases clears
  | cycles free complete => rcases complete with rfl | ⟨_, _, rfl⟩ <;> cases clears
  | fails free complete => rcases complete with rfl | ⟨_, _, rfl⟩ <;> cases clears
  | reads | renders | rests => cases clears

end PollLoop

namespace Activity

open RedirectMonitor.PollLoop

variable {σ : Type} (world : World σ) {activity : Activity σ} {actor : Actor} {phase : Phase}

/-- What may clear a flag that is set does so. -/
theorem cancelled_occur_of_clears {occurrence : Occurrence σ}
    (pending : activity.loop.cancelled = true)
    (clears : activity.clearsFlag occurrence = true) :
    (activity.occur world occurrence).1.loop.cancelled = false := by
  cases occurrence with
  | step actor =>
    obtain ⟨phase, run, clears⟩ : ∃ phase, activity.phase? actor = some phase ∧
        phase.clears = true := (Option.any_eq_true _ _).mp clears
    have notOver : ∀ fault, phase ≠ .over fault := by
      rintro fault rfl
      cases clears
    have passes := passes_step world activity.loop activity.state notOver
    show (activity.step world actor).1.loop.cancelled = false
    rw [step_of_notOver world run notOver, setPhase_loop]
    exact passes.cancelled_of_clears pending clears
  | stopReturns =>
    have gone : activity.isRunning = false := by simpa [clearsFlag] using clears
    show activity.finishStop.loop.cancelled = false
    rw [finishStop, gone]
    rfl
  | breaks | drift | start | startBackground | cancel => cases clears

theorem groups_attend (actor : Actor) (occurrences : List (Occurrence σ)) (activity : Activity σ) :
    (attend world actor occurrences activity).1.loop.store.groups =
      activity.loop.store.groups := by
  induction occurrences generalizing activity with
  | nil => rfl
  | cons occurrence rest inductionHypothesis =>
    cases run : activity.phase? actor with
    | none => rw [attend_of_none world run]
    | some phase =>
      rw [attend_cons world run]
      exact (inductionHypothesis _).trans (groups_occur world activity occurrence)

/-- A run whose request to end was cleared beside it goes on from report to report. -/
theorem reports_of_cleared {cause : Occurrence σ} (run : activity.phase? actor = some phase)
    (goesOn : phase.goesOn = true) (pending : activity.loop.cancelled = true)
    (beside : cause.isStepOf actor = false) (clears : activity.clearsFlag cause = true)
    (later : List (Occurrence σ))
    (unasked : ∀ occurrence ∈ later, occurrence.isCancel = false) (count : Nat)
    (enough : phase.toReport activity.loop.store.groups.length +
        count * (activity.loop.store.groups.length + 3) ≤
      later.countP (Occurrence.isStepOf actor)) :
    count < reports (attend world actor later (activity.occur world cause).1).2 ∨
      Broken world actor later (activity.occur world cause).1 := by
  obtain ⟨phase', run', waits⟩ := waits_occur world run beside
  cases waits with
  | broken fault => exact .inr (.of_phase world run' later)
  | same =>
    rw [← groups_occur world activity cause] at enough
    exact reports_of_steps world later count run' goesOn
      (cancelled_occur_of_clears world pending clears) unasked enough

/-- As long as nobody else clears the flag, a stop is kept: the run that it meets makes the lookups
that its collection has left, renders nothing, and ends. Where someone else clears the flag while
the run is at work, the stop is lost: unless it is asked again or a fault ends it, the run goes on
from report to report. A stop that meets no thread alive returns at once, and but for the thread
that the loop referred to everything is as it was. -/
theorem stop_kept_unless_cleared (run : activity.phase? actor = some phase) :
    (∀ later, clearedBeside world actor later activity.cancel = false →
      let ended := attend world actor later activity.cancel
      lookups ended.2 ≤ phase.left ∧ reports ended.2 = 0 ∧
        (phase.ahead < later.countP (Occurrence.isStepOf actor) →
          ended.1.phase? actor = none)) ∧
    (∀ before cause later count phase',
      clearedBeside world actor before activity.cancel = false →
      let met := (attend world actor before activity.cancel).1
      let groups := activity.loop.store.groups.length
      met.phase? actor = some phase' → phase'.isAtWork = true →
      cause.isStepOf actor = false → met.clearsFlag cause = true →
      (∀ occurrence ∈ later, occurrence.isCancel = false) →
      phase'.toReport groups + count * (groups + 3) ≤
        later.countP (Occurrence.isStepOf actor) →
      count < reports (attend world actor later (met.occur world cause).1).2 ∨
        Broken world actor later (met.occur world cause).1) ∧
    (activity.loop.cancelled = false → activity.isRunning = false →
      activity.cancel.finishStop =
        { activity with loop := { activity.loop with thread := none } }) := by
  have run' : activity.cancel.phase? actor = some phase := by cases actor <;> exact run
  refine ⟨fun later kept => ?_, fun before cause later count phase' kept => ?_, fun free gone => ?_⟩
  · obtain ⟨within, silent, last⟩ := winds_up world later run' (fun _ => rfl) kept
    refine ⟨within, silent, fun enough => ?_⟩
    cases still : (attend world actor later activity.cancel).1.phase? actor with
    | none => rfl
    | some phase' =>
      have ahead := (last phase' still).1
      omega
  · intro met groups at' atWork beside clears unasked enough
    obtain ⟨-, -, last⟩ := winds_up world before run' (fun _ => rfl) kept
    have goesOn := Phase.goesOn_of_isAtWork atWork
    have same : met.loop.store.groups = activity.loop.store.groups := groups_attend world _ _ _
    refine reports_of_cleared world at' goesOn ((last phase' at').2 goesOn) beside clears later
      unasked count ?_
    rw [same]
    exact enough
  · have gone' : activity.cancel.isRunning = false := gone
    rw [finishStop, gone']
    show ({ activity with loop := _ } : Activity σ) = _
    rw [← free]
    rfl

/-- A thread that was started has two lookups of its first collection left. -/
def halfPrimed : Activity Nat :=
  after steady (.startBackground :: List.replicate 3 (.step (.thread 0))) idle

/-- The same moment of a run of the caller. -/
def halfPrimedCall : Activity Nat := after steady (List.replicate 3 (.step .caller)) freshRun

theorem stop_lost_to_launch :
    let met := (attend steady (.thread 0) [.stopReturns, .start none] halfPrimed.cancel).1
    let cleared := (met.occur steady (.step .caller)).1
    0 < reports (attend steady (.thread 0) (List.replicate 8 (.step (.thread 0))) cleared).2 ∧
      halfPrimedCall.cancel.finishStop.loop = halfPrimedCall.loop ∧
      reports (attend steady .caller (List.replicate 8 (.step .caller))
        halfPrimedCall.cancel.finishStop).2 = 1 := by
  intro met cleared
  have run : halfPrimed.phase? (.thread 0) =
      some (.collecting .priming .first [.enqueue 0, .kthread] 0) := by
    decide +kernel
  have call : halfPrimedCall.phase? .caller =
      some (.collecting .priming .first [.enqueue 0, .kthread] 0) := by
    decide +kernel
  have goesOn := (stop_kept_unless_cleared steady run).2.1 [.stopReturns, .start none]
    (.step .caller) (List.replicate 8 (.step (.thread 0))) 0
    (.collecting .priming .first [.enqueue 0, .kthread] 0) (by decide +kernel) (by decide +kernel)
    rfl rfl (by decide +kernel) (by decide) (by decide +kernel)
  have same := (stop_kept_unless_cleared steady call).2.2 (by decide +kernel) (by decide +kernel)
  refine ⟨goesOn.resolve_right (by decide +kernel), ?_, by decide +kernel⟩
  rw [same]
  decide +kernel

end Activity

end RedirectMonitor
