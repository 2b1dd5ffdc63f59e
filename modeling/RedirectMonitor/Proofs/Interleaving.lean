/-
This file follows one run among all that happens to its loop, as far as the run goes.

The content is that a run meets the others at the cancel flag alone. As long as nobody else clears
the flag, a run that was asked to end makes the lookups that its collection has left and renders
nothing. A run that is not asked to end goes from report to report, each of them a fixed number of
its steps after the one before, whoever else works on the loop.
-/

import Mathlib.Data.List.Infix
import RedirectMonitor.Proofs.Occurrences

namespace RedirectMonitor

namespace PollLoop

variable {loop loop' : PollLoop} {phase phase' : Phase} {made shown : Nat}

/-! ### Steps to the end and to the next report -/

/-- Whether a run goes on from a phase as long as nobody asks it to end. -/
def Phase.goesOn : Phase → Bool
  | .launched | .collecting .. | .rendered | .waiting => true
  | .leaving _ | .over _ => false

/-- A run that was asked to end comes a step closer to its end, and so does one that leaves. -/
theorem Passes.winds_up (passes : Passes loop phase phase' loop' made shown)
    (pending : phase.goesOn = true → loop.cancelled = true) :
    made + phase'.left ≤ phase.left ∧ shown = 0 ∧ phase'.ahead < phase.ahead ∧
      (phase'.goesOn = true → phase.goesOn = true ∧ loop'.cancelled = true) := by
  cases passes with
  | refused | leaves => simp [Phase.left, Phase.ahead, Phase.goesOn]
  | reads groups onward =>
    rcases onward with ⟨failed', rfl⟩ | ⟨fault, rfl⟩
    · refine ⟨?_, rfl, by simp [Phase.ahead], fun _ => ⟨rfl, pending rfl⟩⟩
      simp only [Phase.left, List.length_cons]
      omega
    · simp [Phase.left, Phase.ahead, Phase.goesOn]
  | stops flagged complete =>
    rcases complete with rfl | ⟨purpose, side, failed, rfl⟩ <;>
      simp [Phase.left, Phase.ahead, Phase.goesOn]
  | rests => exact ⟨Nat.le_refl _, rfl, Nat.lt_succ_self _, fun _ => ⟨rfl, pending rfl⟩⟩
  | primes free | renders free =>
    rw [pending rfl] at free
    cases free
  | cycles free complete | fails free complete =>
    rcases complete with rfl | ⟨side, failed, rfl⟩ <;>
    · rw [pending rfl] at free
      cases free

/-- Nor is the end put off by what happens between two steps. -/
theorem Phase.Waits.winds_up (waits : phase.Waits phase') :
    phase'.left ≤ phase.left ∧ phase'.ahead ≤ phase.ahead ∧
      (phase'.goesOn = true → phase.goesOn = true) := by
  cases waits with
  | same => exact ⟨Nat.le_refl _, Nat.le_refl _, id⟩
  | broken fault => exact ⟨Nat.zero_le _, by simp [Phase.ahead], fun _ => rfl⟩

/-- Whether a fault is about to end a run. -/
def Phase.isBroken : Phase → Bool
  | .leaving (some _) => true
  | .launched | .collecting .. | .rendered | .waiting | .leaving none | .over _ => false

/-- How many steps a run over so many groups makes up to its next report. -/
def Phase.toReport (groups : Nat) : Phase → Nat
  | .launched => 2 * groups + 3
  | .collecting .priming _ left _ => left.length + groups + 2
  | .collecting .cycle _ left _ => left.length + 1
  | .rendered => groups + 3
  | .waiting => groups + 2
  | .leaving _ | .over _ => 0

theorem Phase.toReport_pos (goesOn : phase.goesOn = true) (groups : Nat) :
    0 < phase.toReport groups := by
  cases phase with
  | collecting purpose => cases purpose <;> exact Nat.succ_pos _
  | launched | rendered | waiting => exact Nat.succ_pos _
  | leaving | «over» => cases goesOn

/-- A run that nobody asked to end comes a step closer to its next report, or a fault ends it. -/
theorem Passes.toReport (passes : Passes loop phase phase' loop' made shown)
    (free : loop.cancelled = false) (goesOn : phase.goesOn = true) :
    (∃ fault, phase' = .leaving (some fault)) ∨
      phase'.goesOn = true ∧
        phase'.toReport loop.store.groups.length + 1 =
          phase.toReport loop.store.groups.length + shown * (loop.store.groups.length + 3) := by
  cases passes with
  | refused pending | stops pending =>
    rw [free] at pending
    cases pending
  | primes =>
    refine .inr ⟨rfl, ?_⟩
    simp only [Phase.toReport]
    omega
  | @reads purpose side group left failed _ store groups onward =>
    rcases onward with ⟨failed', rfl⟩ | ⟨fault, rfl⟩
    · refine .inr ⟨rfl, ?_⟩
      cases purpose <;> simp only [Phase.toReport, List.length_cons] <;> omega
    · exact .inl ⟨fault, rfl⟩
  | cycles _ complete =>
    refine .inr ⟨rfl, ?_⟩
    rcases complete with rfl | ⟨side, failed, rfl⟩
    · simp only [Phase.toReport]
      omega
    · simp only [Phase.toReport, List.length_nil]
      omega
  | renders =>
    refine .inr ⟨rfl, ?_⟩
    simp only [Phase.toReport, List.length_nil]
    omega
  | @fails _ fault => exact .inl ⟨fault, rfl⟩
  | rests => exact .inr ⟨rfl, by simp only [Phase.toReport]; omega⟩
  | leaves => cases goesOn

end PollLoop

namespace Activity

open RedirectMonitor.PollLoop

variable {σ : Type} (world : World σ) {activity : Activity σ} {actor : Actor} {phase : Phase}

/-! ### One run among all -/

/-- The run of an actor among all that happens, as far as it goes: the activity when the run has
ended, or after the last occurrence, and what the run has shown. -/
def attend (world : World σ) (actor : Actor) :
    List (Occurrence σ) → Activity σ → Activity σ × List Event
  | [], activity => (activity, [])
  | occurrence :: rest, activity =>
    if (activity.phase? actor).isSome then
      let (next, events) := activity.occur world occurrence
      let (last, more) := attend world actor rest next
      (last, if occurrence.isStepOf actor then events ++ more else more)
    else (activity, [])

/-- Whether anyone else may clear the flag while the run of an actor goes on. -/
def clearedBeside (world : World σ) (actor : Actor) : List (Occurrence σ) → Activity σ → Bool
  | [], _ => false
  | occurrence :: rest, activity =>
    (activity.phase? actor).any Phase.goesOn &&
      (!occurrence.isStepOf actor && activity.clearsFlag occurrence ||
        clearedBeside world actor rest (activity.occur world occurrence).1)

/-- At some moment among all that happens a fault ends the run of an actor. -/
def Broken (world : World σ) (actor : Actor) (occurrences : List (Occurrence σ))
    (activity : Activity σ) : Prop :=
  ∃ before ∈ occurrences.inits,
    ((attend world actor before activity).1.phase? actor).any Phase.isBroken = true

instance (world : World σ) (actor : Actor) (occurrences : List (Occurrence σ))
    (activity : Activity σ) : Decidable (Broken world actor occurrences activity) :=
  inferInstanceAs (Decidable (∃ before ∈ occurrences.inits, _ = true))

theorem attend_of_none (absent : activity.phase? actor = none)
    (occurrences : List (Occurrence σ)) :
    attend world actor occurrences activity = (activity, []) := by
  cases occurrences with
  | nil => rfl
  | cons occurrence rest => rw [attend, absent]; rfl

theorem attend_cons (run : activity.phase? actor = some phase) (occurrence : Occurrence σ)
    (rest : List (Occurrence σ)) :
    attend world actor (occurrence :: rest) activity =
      let next := activity.occur world occurrence
      let last := attend world actor rest next.1
      (last.1, if occurrence.isStepOf actor then next.2 ++ last.2 else last.2) := by
  rw [attend, run]
  rfl

theorem Broken.of_phase {fault : Fault}
    (left : activity.phase? actor = some (.leaving (some fault)))
    (occurrences : List (Occurrence σ)) : Broken world actor occurrences activity :=
  ⟨[], (List.mem_inits _ _).mpr List.nil_prefix, by rw [attend, left]; rfl⟩

theorem Broken.cons {occurrence : Occurrence σ} {rest : List (Occurrence σ)}
    (run : activity.phase? actor = some phase)
    (broken : Broken world actor rest (activity.occur world occurrence).1) :
    Broken world actor (occurrence :: rest) activity := by
  obtain ⟨before, first, left⟩ := broken
  refine ⟨occurrence :: before, ?_, by rw [attend_cons world run]; exact left⟩
  rw [List.mem_inits] at first ⊢
  exact List.cons_prefix_cons.mpr ⟨rfl, first⟩

theorem clearedBeside_of_stays (run : activity.phase? actor = some phase)
    (stays : phase.goesOn = false) (occurrences : List (Occurrence σ)) :
    clearedBeside world actor occurrences activity = false := by
  cases occurrences with
  | nil => rfl
  | cons occurrence rest => simp [clearedBeside, run, stays]

theorem clearedBeside_cons (run : activity.phase? actor = some phase)
    (goesOn : phase.goesOn = true) {occurrence : Occurrence σ} {rest : List (Occurrence σ)}
    (kept : clearedBeside world actor (occurrence :: rest) activity = false) :
    (occurrence.isStepOf actor = false → activity.clearsFlag occurrence = false) ∧
      clearedBeside world actor rest (activity.occur world occurrence).1 = false := by
  simpa [clearedBeside, run, goesOn] using kept

/-! ### A run that was asked to end -/

/-- As long as nobody else clears the flag, a run that was asked to end makes no lookup but those
that its collection has left, renders nothing, and comes to its end. -/
theorem winds_up (occurrences : List (Occurrence σ)) (run : activity.phase? actor = some phase)
    (pending : phase.goesOn = true → activity.loop.cancelled = true)
    (kept : clearedBeside world actor occurrences activity = false) :
    let ended := attend world actor occurrences activity
    lookups ended.2 ≤ phase.left ∧ reports ended.2 = 0 ∧
      ∀ phase', ended.1.phase? actor = some phase' →
        phase'.ahead + occurrences.countP (Occurrence.isStepOf actor) ≤ phase.ahead ∧
        (phase'.goesOn = true → ended.1.loop.cancelled = true) := by
  induction occurrences generalizing activity phase with
  | nil =>
    refine ⟨Nat.zero_le _, rfl, fun phase' run' => ?_⟩
    obtain rfl := Option.some.inj (run.symm.trans run')
    exact ⟨Nat.le_refl _, pending⟩
  | cons occurrence rest inductionHypothesis =>
    have keptAfter {phase' : Phase} (onward : phase'.goesOn = true → phase.goesOn = true)
        (run' : (activity.occur world occurrence).1.phase? actor = some phase') :
        clearedBeside world actor rest (activity.occur world occurrence).1 = false := by
      cases stays : phase'.goesOn with
      | false => exact clearedBeside_of_stays world run' stays rest
      | true => exact (clearedBeside_cons world run (onward stays) kept).2
    rw [attend_cons world run, List.countP_cons]
    rcases occur_cases world occurrence run with
      ⟨own, phase', run', passes⟩ | ⟨own, -, absent, made, shown⟩ | ⟨beside, phase', run', waits⟩
    · obtain ⟨fewer, silent, closer, onward⟩ := passes.winds_up pending
      obtain ⟨within, silent', last⟩ := inductionHypothesis run'
        (fun goesOn => (onward goesOn).2) (keptAfter (fun goesOn => (onward goesOn).1) run')
      simp only [own, if_true, lookups_append, reports_append]
      refine ⟨by omega, by omega, fun phase'' run'' => ?_⟩
      obtain ⟨ahead, flagged⟩ := last phase'' run''
      exact ⟨by omega, flagged⟩
    · simp only [own, if_true, attend_of_none world absent, List.append_nil]
      refine ⟨by omega, shown, fun phase'' run'' => ?_⟩
      rw [absent] at run''
      cases run''
    · obtain ⟨fewer, closer, onward⟩ := waits.winds_up
      have pending' : phase'.goesOn = true →
          (activity.occur world occurrence).1.loop.cancelled = true := by
        intro goesOn
        obtain ⟨keeps, -⟩ := clearedBeside_cons world run (onward goesOn) kept
        exact cancelled_occur world (pending (onward goesOn)) (keeps beside)
      obtain ⟨within, silent, last⟩ := inductionHypothesis run' pending' (keptAfter onward run')
      simp only [beside, Bool.false_eq_true, if_false]
      refine ⟨Nat.le_trans within fewer, silent, fun phase'' run'' => ?_⟩
      obtain ⟨ahead, flagged⟩ := last phase'' run''
      exact ⟨by omega, flagged⟩

/-! ### A run that nobody asks to end -/

/-- A run that nobody asks to end renders one report after the other, each of them a fixed number of
its steps after the one before, unless a fault leaves it. -/
theorem reports_of_steps (occurrences : List (Occurrence σ)) (count : Nat)
    (run : activity.phase? actor = some phase) (goesOn : phase.goesOn = true)
    (free : activity.loop.cancelled = false)
    (unasked : ∀ occurrence ∈ occurrences, occurrence.isCancel = false)
    (enough : phase.toReport activity.loop.store.groups.length +
        count * (activity.loop.store.groups.length + 3) ≤
      occurrences.countP (Occurrence.isStepOf actor)) :
    count < reports (attend world actor occurrences activity).2 ∨
      Broken world actor occurrences activity := by
  induction occurrences generalizing activity phase count with
  | nil =>
    rw [List.countP_nil] at enough
    have positive := Phase.toReport_pos goesOn activity.loop.store.groups.length
    omega
  | cons occurrence rest inductionHypothesis =>
    obtain ⟨now, later⟩ := List.forall_mem_cons.mp unasked
    have free' := cancelled_occur_eq_false world free now
    have groups := groups_occur world activity occurrence
    have onward {phase' : Phase} (count' : Nat) (goesOn' : phase'.goesOn = true)
        (run' : (activity.occur world occurrence).1.phase? actor = some phase')
        (enough' : phase'.toReport activity.loop.store.groups.length +
            count' * (activity.loop.store.groups.length + 3) ≤
          rest.countP (Occurrence.isStepOf actor)) :
        count' < reports (attend world actor rest (activity.occur world occurrence).1).2 ∨
          Broken world actor (occurrence :: rest) activity := by
      rw [← groups] at enough'
      exact (inductionHypothesis count' run' goesOn' free' later enough').imp_right
        (Broken.cons world run)
    rw [attend_cons world run]
    rw [List.countP_cons] at enough
    rcases occur_cases world occurrence run with
      ⟨own, phase', run', passes⟩ | ⟨-, ⟨fault, rfl⟩, -⟩ | ⟨beside, phase', run', waits⟩
    · rw [if_pos own] at enough
      simp only [own, if_true, reports_append]
      rcases passes.toReport free goesOn with ⟨fault, rfl⟩ | ⟨goesOn', closer⟩
      · exact .inr (.cons world run (.of_phase world run' rest))
      · by_cases already : count < reports (activity.occur world occurrence).2
        · exact .inl (Nat.lt_of_lt_of_le already (Nat.le_add_right _ _))
        · obtain ⟨count', rfl⟩ := Nat.exists_eq_add_of_le (Nat.not_lt.mp already)
          rw [Nat.add_mul] at enough
          exact (onward count' goesOn' run' (by omega)).imp_left
            (Nat.add_lt_add_left · _)
    · cases goesOn
    · simp only [beside, Bool.false_eq_true, if_false] at enough ⊢
      cases waits with
      | same => exact onward count goesOn run' enough
      | broken fault => exact .inr (.cons world run (.of_phase world run' rest))

end Activity

end RedirectMonitor
