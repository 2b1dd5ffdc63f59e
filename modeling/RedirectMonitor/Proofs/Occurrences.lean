/-
This file lists what can happen to a loop and to all who work on it. The caller and the background
threads make the steps of their runs in any order; between these, runs are started, an end is asked
for, stops return, the world changes, and faults leave the collection or the report at hand of a
run.

The content is two inversions. To the loop an occurrence does what a step of one run does, or it
changes none of what is collected and counted; and only a request sets the cancel flag. To the run
of one actor only its own steps do anything, but for a fault that breaks it. All that surroundings
make of the background threads is made of these occurrences.
-/

import RedirectMonitor.Proofs.Cancellation

namespace RedirectMonitor

namespace PollLoop

variable {loop loop' : PollLoop} {phase phase' : Phase} {made shown : Nat}

/-! ### The flag and the steps of a run -/

/-- Whether the step from a phase may clear the flag: a launch consumes it, and a run that leaves
clears it behind it. -/
def Phase.clears : Phase → Bool
  | .launched | .leaving _ => true
  | .collecting .. | .rendered | .waiting | .over _ => false

theorem Passes.cancelled_of_keeps (passes : Passes loop phase phase' loop' made shown)
    (pending : loop.cancelled = true) (keeps : phase.clears = false) : loop'.cancelled = true := by
  cases passes with
  | refused | leaves => cases keeps
  | reads | stops | rests | fails => exact pending
  | primes free | cycles free | renders free => exact pending

/-- No step sets the flag. -/
theorem Passes.cancelled_eq_false (passes : Passes loop phase phase' loop' made shown)
    (free : loop.cancelled = false) : loop'.cancelled = false := by
  cases passes with
  | refused | leaves => rfl
  | primes | reads | stops | cycles | renders | fails | rests => exact free

/-- No step of a run changes the error that the loop keeps. -/
theorem Passes.error (passes : Passes loop phase phase' loop' made shown) :
    loop'.error = loop.error := by
  cases passes <;> rfl

end PollLoop

/-- A place in a list that is one longer is the last one, or a place in the list itself. -/
theorem append_singleton_eq_append_cons_iff {α : Type} {list before rest : List α}
    {last element : α} :
    list ++ [last] = before ++ element :: rest ↔
      (rest = [] ∧ list = before ∧ last = element) ∨
        ∃ rest', rest = rest' ++ [last] ∧ list = before ++ element :: rest' := by
  constructor
  · intro same
    rcases List.eq_nil_or_concat rest with rfl | ⟨rest, other, rfl⟩
    · obtain ⟨rfl, ends⟩ := List.append_inj' same rfl
      exact .inl ⟨rfl, rfl, (List.cons.inj ends).1⟩
    · rw [List.concat_eq_append, ← List.cons_append, ← List.append_assoc] at same
      obtain ⟨rfl, ends⟩ := List.append_inj' same rfl
      obtain ⟨rfl, -⟩ := List.cons.inj ends
      exact .inr ⟨rest, List.concat_eq_append, rfl⟩
  · rintro (⟨rfl, rfl, rfl⟩ | ⟨rest', rfl, rfl⟩)
    · rfl
    · simp

namespace Activity

open RedirectMonitor.PollLoop

variable {σ : Type}

/-! ### The runs of an activity -/

theorem number_of_find? {threads : List PollThread} {number : Nat} {thread : PollThread}
    (found : threads.find? (fun thread => thread.number == number) = some thread) :
    thread.number = number := by
  have same : (thread.number == number) = true :=
    List.find?_some (p := fun thread : PollThread => thread.number == number) found
  exact beq_iff_eq.mp same

/-- Another phase for one thread leaves the numbers of all threads. -/
theorem find?_map_phase (threads : List PollThread) (number other : Nat) (next : Phase) :
    (threads.map fun thread =>
        if thread.number == number then { thread with phase := next } else thread).find?
          (fun thread : PollThread => thread.number == other) =
      (threads.find? fun thread => thread.number == other).map fun thread =>
        if thread.number == number then { thread with phase := next } else thread := by
  rw [List.find?_map]
  congr 2
  funext thread
  simp only [Function.comp]
  split <;> rfl

theorem phase?_setPhase_self {activity : Activity σ} {actor : Actor} {phase : Phase}
    (run : activity.phase? actor = some phase) (next : Phase) :
    (activity.setPhase actor next).phase? actor = some next := by
  cases actor with
  | caller => rfl
  | thread number =>
    obtain ⟨thread, found, -⟩ := Option.map_eq_some_iff.mp run
    simp only [setPhase, phase?, find?_map_phase, found, Option.map_some,
      number_of_find? found, beq_self_eq_true, if_true]

/-- The runs of all others keep their phases. -/
theorem phase?_setPhase_of_ne (activity : Activity σ) {actor other : Actor}
    (different : other ≠ actor) (next : Phase) :
    (activity.setPhase actor next).phase? other = activity.phase? other := by
  cases actor with
  | caller =>
    cases other with
    | caller => exact absurd rfl different
    | thread number => rfl
  | thread number =>
    cases other with
    | caller => rfl
    | thread number' =>
      have apart : number' ≠ number := fun same => different (by rw [same])
      simp only [setPhase, phase?, find?_map_phase, Option.map_map]
      refine Option.map_congr fun thread found => ?_
      simp [number_of_find? found, apart]

theorem isAlive_eq (activity : Activity σ) (number : Nat) :
    activity.isAlive number = (activity.phase? (.thread number)).isSome := by
  rw [isAlive, phase?, Option.isSome_map, List.isSome_find?]

theorem phase?_startBackground {activity : Activity σ} {actor : Actor} {phase : Phase}
    (run : activity.phase? actor = some phase) :
    activity.startBackground.phase? actor = some phase := by
  unfold startBackground
  split
  · exact run
  · cases actor with
    | caller => exact run
    | thread number =>
      obtain ⟨thread, found, same⟩ := Option.map_eq_some_iff.mp run
      simp [phase?, List.find?_append, found, same]

theorem phase?_withLoop (activity : Activity σ) (loop : PollLoop) (state : σ) (actor : Actor) :
    { activity with loop, state }.phase? actor = activity.phase? actor := by
  cases actor <;> rfl

/-- The thread of a number is gone when it ends, and the loop may have got an error. -/
theorem endThread_eq (activity : Activity σ) (number : Nat) (fault : Option Fault) :
    ∃ error events, activity.endThread number fault =
        ({ activity with
            threads := activity.threads.filter fun thread => thread.number != number
            loop := { activity.loop with error } }, events) ∧
      lookups events = 0 ∧ reports events = 0 := by
  unfold endThread
  split <;> exact ⟨_, _, rfl, rfl, rfl⟩

/-! ### Steps in company -/

variable (world : World σ) {activity : Activity σ} {actor : Actor} {phase : Phase}

theorem step_of_none (absent : activity.phase? actor = none) :
    activity.step world actor = (activity, []) := by
  rw [step, absent]

/-- A run that is not over makes the step that the loop makes. -/
theorem step_of_notOver (run : activity.phase? actor = some phase)
    (notOver : ∀ fault, phase ≠ .over fault) :
    activity.step world actor =
      let next := PollLoop.step world phase activity.loop activity.state
      ({ activity with loop := next.loop, state := next.state }.setPhase actor next.phase,
        next.events) := by
  unfold step
  rw [run]
  cases phase with
  | «over» fault => exact absurd rfl (notOver fault)
  | launched | collecting | rendered | waiting | leaving => rfl

/-- All that a step of an actor can be: it has no run, its run is over, or its run goes on. -/
inductive StepCase (world : World σ) (activity : Activity σ) : Actor → Prop
  | absent {actor : Actor} (none : activity.phase? actor = none)
      (same : activity.step world actor = (activity, [])) : StepCase world activity actor
  | returns {fault : Option Fault} (run : activity.phase? .caller = some (.over fault))
      (same : activity.step world .caller = (activity.endCall, [])) :
      StepCase world activity .caller
  | ends {number : Nat} {fault : Option Fault} {error : Option MonitorError} {events : List Event}
      (run : activity.phase? (.thread number) = some (.over fault))
      (same : activity.step world (.thread number) =
        ({ activity with
            threads := activity.threads.filter fun thread => thread.number != number
            loop := { activity.loop with error } }, events)) :
      StepCase world activity (.thread number)
  | goesOn {actor : Actor} {phase : Phase} {made shown : Nat}
      (run : activity.phase? actor = some phase)
      (passes : Passes activity.loop phase
        (PollLoop.step world phase activity.loop activity.state).phase
        (PollLoop.step world phase activity.loop activity.state).loop made shown)
      (same : activity.step world actor =
        let next := PollLoop.step world phase activity.loop activity.state
        ({ activity with loop := next.loop, state := next.state }.setPhase actor next.phase,
          next.events)) :
      StepCase world activity actor

theorem stepCase (activity : Activity σ) (actor : Actor) : StepCase world activity actor := by
  cases run : activity.phase? actor with
  | none => exact .absent run (step_of_none world run)
  | some phase =>
    by_cases isOver : ∃ fault, phase = .over fault
    · obtain ⟨fault, rfl⟩ := isOver
      cases actor with
      | caller => exact .returns run (by simp only [step, run])
      | thread number =>
        obtain ⟨error, events, ended, -⟩ := endThread_eq activity number fault
        have same : activity.step world (.thread number) = activity.endThread number fault := by
          simp only [step, run]
        exact .ends run (same.trans ended)
    · have notOver : ∀ fault, phase ≠ .over fault := fun fault same => isOver ⟨fault, same⟩
      exact .goesOn run (passes_step world activity.loop activity.state notOver)
        (step_of_notOver world run notOver)

/-- A run that is over ends with the next step of its actor. The runs of all others are as they
were, and so is the loop, but for an error that it may have got. -/
theorem step_of_over {fault : Option Fault} (run : activity.phase? actor = some (.over fault)) :
    let next := activity.step world actor
    next.1.phase? actor = none ∧
      (∀ other, other ≠ actor → next.1.phase? other = activity.phase? other) ∧
      (∃ error, next.1.loop = { activity.loop with error }) ∧
      lookups next.2 = 0 ∧ reports next.2 = 0 := by
  intro next
  cases actor with
  | caller =>
    have same : next = (activity.endCall, []) := by
      simp only [next, step, run]
    rw [same]
    refine ⟨rfl, fun other different => ?_, ⟨_, rfl⟩, rfl, rfl⟩
    cases other with
    | caller => exact absurd rfl different
    | thread number => rfl
  | thread number =>
    have same : next = activity.endThread number fault := by
      simp only [next, step, run]
    obtain ⟨error, events, ended, silent⟩ := endThread_eq activity number fault
    rw [same, ended]
    refine ⟨?_, fun other different => ?_, ⟨error, rfl⟩, silent⟩
    · simp [phase?, List.find?_filter]
    · cases other with
      | caller => rfl
      | thread number' =>
        have apart : number' ≠ number := fun same => different (by rw [same])
        simp only [phase?, List.find?_filter]
        congr 2
        funext thread
        by_cases own : thread.number = number' <;> simp [own, apart]

/-! ### What can happen -/

/-- What can happen to a loop and to all who work on it. -/
inductive Occurrence (σ : Type) where
  /-- Someone makes a step of a run. -/
  | step (actor : Actor)
  /-- A fault leaves the collection at hand of someone's run, or the rendering of its report. -/
  | breaks (actor : Actor) (fault : Fault)
  /-- The state of the world changes. -/
  | drift (state : σ)
  /-- The caller starts a run, unless its last one has not returned. -/
  | start (interval : Option Quantity)
  | startBackground
  /-- Someone asks for an end, which is also how a stop begins. -/
  | cancel
  /-- A stop that has asked for an end returns. -/
  | stopReturns

namespace Occurrence

def isStepOf (actor : Actor) : Occurrence σ → Bool
  | .step other => other = actor
  | .breaks .. | .drift _ | .start _ | .startBackground | .cancel | .stopReturns => false

theorem eq_step {actor : Actor} {occurrence : Occurrence σ}
    (own : occurrence.isStepOf actor = true) : occurrence = .step actor := by
  cases occurrence with
  | step other => rw [of_decide_eq_true own]
  | breaks | drift | start | startBackground | cancel | stopReturns => cases own

def isStart : Occurrence σ → Bool
  | .start _ => true
  | .step _ | .breaks .. | .drift _ | .startBackground | .cancel | .stopReturns => false

def isCancel : Occurrence σ → Bool
  | .cancel => true
  | .step _ | .breaks .. | .drift _ | .start _ | .startBackground | .stopReturns => false

end Occurrence

/-- A fault ends the collection or the rendering of a run. -/
def breakRun (actor : Actor) (fault : Fault) (activity : Activity σ) : Activity σ :=
  match activity.phase? actor with
  | some (.collecting ..) => activity.setPhase actor (.leaving (some fault))
  | _ => activity

/-- The caller starts a run; nothing happens where the interval is rejected, or where the last run
of the caller has not returned. -/
def startCall (interval : Option Quantity) (activity : Activity σ) : Activity σ :=
  match activity.call, activity.start interval with
  | none, .ok begun => begun
  | _, _ => activity

/-- What an occurrence makes of an activity, and what it shows. -/
def occur (world : World σ) (activity : Activity σ) : Occurrence σ → Activity σ × List Event
  | .step actor => activity.step world actor
  | .breaks actor fault => (activity.breakRun actor fault, [])
  | .drift state => ({ activity with state }, [])
  | .start interval => (activity.startCall interval, [])
  | .startBackground => (activity.startBackground, [])
  | .cancel => (activity.cancel, [])
  | .stopReturns => (activity.finishStop, [])

/-- An activity after all that happened to it. -/
def after (world : World σ) (occurrences : List (Occurrence σ)) (activity : Activity σ) :
    Activity σ :=
  occurrences.foldl (fun activity occurrence => (activity.occur world occurrence).1) activity

/-- Whether an occurrence may clear the flag. -/
def clearsFlag (activity : Activity σ) : Occurrence σ → Bool
  | .step actor => (activity.phase? actor).any Phase.clears
  | .stopReturns => !activity.isRunning
  | .breaks .. | .drift _ | .start _ | .startBackground | .cancel => false

theorem setPhase_loop (activity : Activity σ) (actor : Actor) (next : Phase) :
    (activity.setPhase actor next).loop = activity.loop := by
  cases actor <;> rfl

theorem breakRun_loop (activity : Activity σ) (actor : Actor) (fault : Fault) :
    (activity.breakRun actor fault).loop = activity.loop := by
  unfold breakRun
  split
  · exact setPhase_loop _ _ _
  · rfl

theorem startCall_eq (activity : Activity σ) (interval : Option Quantity) :
    activity.startCall interval = activity ∨
      activity.call = none ∧ ∃ interval', activity.startCall interval = { activity with
        loop := { activity.loop with interval := interval' }, call := some .launched } := by
  unfold startCall
  split
  · rename_i begun idle started
    exact .inr ⟨idle, begun_of_start started⟩
  · exact .inl rfl

/-- What a step does to the loop: one of the steps listed, or no more than a new error. -/
theorem loop_of_step (world : World σ) (activity : Activity σ) (actor : Actor) :
    (∃ error, (activity.step world actor).1.loop = { activity.loop with error }) ∨
      ∃ phase phase' made shown, activity.phase? actor = some phase ∧
        Passes activity.loop phase phase' (activity.step world actor).1.loop made shown := by
  cases stepCase world activity actor with
  | absent none same => exact .inl ⟨activity.loop.error, by rw [same]⟩
  | returns run same => exact .inl ⟨activity.loop.error, by rw [same]; rfl⟩
  | ends run same => exact .inl ⟨_, by rw [same]⟩
  | goesOn run passes same =>
    rw [same, setPhase_loop]
    exact .inr ⟨_, _, _, _, run, passes⟩

/-- What an occurrence does to the loop: one of the steps listed, or a change of nothing but the
interval, the error, the thread and the flag, which only a request sets and only what may clear it
clears. -/
theorem loop_of_occur (occurrence : Occurrence σ) :
    (∃ actor phase phase' made shown, occurrence = .step actor ∧
      activity.phase? actor = some phase ∧
      Passes activity.loop phase phase' (activity.occur world occurrence).1.loop made shown) ∨
    ∃ interval error thread flag, (activity.occur world occurrence).1.loop =
        { activity.loop with interval, error, thread, cancelled := flag } ∧
      (occurrence.isCancel = false → activity.loop.cancelled = false → flag = false) ∧
      (activity.clearsFlag occurrence = false → activity.loop.cancelled = true → flag = true) := by
  cases occurrence with
  | step actor =>
    rcases loop_of_step world activity actor with ⟨error, same⟩ | ⟨phase, phase', made, shown, step⟩
    · exact .inr ⟨_, error, _, _, same, fun _ free => free, fun _ pending => pending⟩
    · exact .inl ⟨actor, phase, phase', made, shown, rfl, step⟩
  | breaks actor fault =>
    exact .inr ⟨_, _, _, _, breakRun_loop activity actor fault, fun _ free => free,
      fun _ pending => pending⟩
  | start interval =>
    rcases activity.startCall_eq interval with same | ⟨-, interval', same⟩
    · exact .inr ⟨_, _, _, _, congrArg loop same, fun _ free => free, fun _ pending => pending⟩
    · exact .inr ⟨interval', _, _, _, congrArg loop same, fun _ free => free,
        fun _ pending => pending⟩
  | startBackground =>
    refine .inr ?_
    show ∃ interval error thread flag, activity.startBackground.loop = _ ∧ _
    unfold startBackground
    split <;> exact ⟨_, _, _, _, rfl, fun _ free => free, fun _ pending => pending⟩
  | stopReturns =>
    refine .inr ?_
    show ∃ interval error thread flag, activity.finishStop.loop = _ ∧ _
    unfold finishStop
    split
    · exact ⟨_, _, _, _, rfl, fun _ free => free, fun _ pending => pending⟩
    · rename_i gone
      refine ⟨_, _, _, false, rfl, fun _ _ => rfl, fun keeps => ?_⟩
      simp [clearsFlag, gone] at keeps
  | drift state => exact .inr ⟨_, _, _, _, rfl, fun _ free => free, fun _ pending => pending⟩
  | cancel => exact .inr ⟨_, _, _, true, rfl, fun unasked => (by cases unasked), fun _ _ => rfl⟩

/-- Nothing that happens changes what is tracked. -/
theorem groups_occur (activity : Activity σ) (occurrence : Occurrence σ) :
    (activity.occur world occurrence).1.loop.store.groups = activity.loop.store.groups := by
  rcases loop_of_occur world occurrence with ⟨_, _, _, _, _, -, -, passes⟩ | ⟨_, _, _, _, same, -⟩
  · exact passes.groups
  · rw [same]

theorem groups_after (occurrences : List (Occurrence σ)) (activity : Activity σ) :
    (after world occurrences activity).loop.store.groups = activity.loop.store.groups := by
  induction occurrences generalizing activity with
  | nil => rfl
  | cons occurrence rest inductionHypothesis =>
    exact (inductionHypothesis _).trans (groups_occur world activity occurrence)

/-- The flag stays set but for what may clear it. -/
theorem cancelled_occur {occurrence : Occurrence σ} (pending : activity.loop.cancelled = true)
    (keeps : activity.clearsFlag occurrence = false) :
    (activity.occur world occurrence).1.loop.cancelled = true := by
  rcases loop_of_occur world occurrence with
    ⟨actor, phase, _, _, _, rfl, run, passes⟩ | ⟨_, _, _, flag, same, -, stays⟩
  · rw [clearsFlag, run] at keeps
    exact passes.cancelled_of_keeps pending keeps
  · rw [same]
    exact stays keeps pending

/-- The flag stays clear unless someone asks for an end. -/
theorem cancelled_occur_eq_false {occurrence : Occurrence σ}
    (free : activity.loop.cancelled = false) (unasked : occurrence.isCancel = false) :
    (activity.occur world occurrence).1.loop.cancelled = false := by
  rcases loop_of_occur world occurrence with
    ⟨_, _, _, _, _, -, -, passes⟩ | ⟨_, _, _, flag, same, stays, -⟩
  · exact passes.cancelled_eq_false free
  · rw [same]
    exact stays unasked free

/-! ### One run among all -/

/-- What happens beside a run leaves its phase as it is, but for a fault that breaks it. -/
theorem waits_occur {occurrence : Occurrence σ} (run : activity.phase? actor = some phase)
    (beside : occurrence.isStepOf actor = false) :
    ∃ phase', (activity.occur world occurrence).1.phase? actor = some phase' ∧
      phase.Waits phase' := by
  cases occurrence with
  | step other =>
    have different : actor ≠ other := fun same => by simp [Occurrence.isStepOf, same] at beside
    refine ⟨phase, ?_, .same phase⟩
    show (activity.step world other).1.phase? actor = some phase
    cases other' : activity.phase? other with
    | none => rw [step_of_none world other', run]
    | some phase' =>
      by_cases isOver : ∃ fault, phase' = .over fault
      · obtain ⟨fault, rfl⟩ := isOver
        rw [(step_of_over world other').2.1 actor different, run]
      · rw [step_of_notOver world other' fun fault same => isOver ⟨fault, same⟩,
          phase?_setPhase_of_ne _ different, phase?_withLoop, run]
  | breaks other fault =>
    show ∃ phase', (activity.breakRun other fault).phase? actor = some phase' ∧ _
    by_cases own : actor = other
    · subst own
      unfold breakRun
      rw [run]
      cases phase with
      | collecting purpose side left failed =>
        exact ⟨_, phase?_setPhase_self run _, .broken fault⟩
      | launched | rendered | waiting | leaving | «over» => exact ⟨_, run, .same _⟩
    · unfold breakRun
      split
      · exact ⟨phase, by rw [phase?_setPhase_of_ne _ own, run], .same phase⟩
      · exact ⟨phase, run, .same phase⟩
  | start interval =>
    refine ⟨phase, ?_, .same phase⟩
    show (activity.startCall interval).phase? actor = some phase
    rcases activity.startCall_eq interval with same | ⟨idle, interval', same⟩
    · rw [same, run]
    · cases actor with
      | caller => exact absurd (idle.symm.trans run) (by simp)
      | thread number =>
        rw [same]
        exact run
  | startBackground => exact ⟨phase, phase?_startBackground run, .same phase⟩
  | stopReturns =>
    refine ⟨phase, ?_, .same phase⟩
    show activity.finishStop.phase? actor = some phase
    unfold finishStop
    split <;> cases actor <;> exact run
  | drift state => exact ⟨phase, by cases actor <;> exact run, .same phase⟩
  | cancel => exact ⟨phase, by cases actor <;> exact run, .same phase⟩

/-- What happens to one run: a step from the list, its end, or what happens beside it. -/
theorem occur_cases (occurrence : Occurrence σ) (run : activity.phase? actor = some phase) :
    let next := activity.occur world occurrence
    (occurrence.isStepOf actor = true ∧ ∃ phase', next.1.phase? actor = some phase' ∧
      Passes activity.loop phase phase' next.1.loop (lookups next.2) (reports next.2)) ∨
    (occurrence.isStepOf actor = true ∧ (∃ fault, phase = .over fault) ∧
      next.1.phase? actor = none ∧ lookups next.2 = 0 ∧ reports next.2 = 0) ∨
    (occurrence.isStepOf actor = false ∧ ∃ phase', next.1.phase? actor = some phase' ∧
      phase.Waits phase') := by
  intro next
  cases own : occurrence.isStepOf actor with
  | false => exact .inr (.inr ⟨rfl, waits_occur world run own⟩)
  | true =>
    obtain rfl := Occurrence.eq_step own
    by_cases isOver : ∃ fault, phase = .over fault
    · obtain ⟨fault, rfl⟩ := isOver
      obtain ⟨ended, -, -, silent⟩ := step_of_over world run
      exact .inr (.inl ⟨rfl, ⟨fault, rfl⟩, ended, silent⟩)
    · have notOver : ∀ fault, phase ≠ .over fault := fun fault same => isOver ⟨fault, same⟩
      have same : next = _ := step_of_notOver world run notOver
      refine .inl ⟨rfl, (PollLoop.step world phase activity.loop activity.state).phase, ?_⟩
      rw [same]
      refine ⟨phase?_setPhase_self ((phase?_withLoop _ _ _ _).trans run) _, ?_⟩
      rw [setPhase_loop]
      exact passes_step world activity.loop activity.state notOver

/-! ### Surroundings make occurrences -/

/-- One activity comes from another by what can happen while the caller starts no run. -/
def Reaches (world : World σ) (activity last : Activity σ) : Prop :=
  ∃ occurrences, (∀ occurrence ∈ occurrences, occurrence.isStart = false) ∧
    after world occurrences activity = last

namespace Reaches

variable {world} {activity' last : Activity σ}

theorem refl (activity : Activity σ) : Reaches world activity activity := ⟨[], by simp, rfl⟩

theorem trans (first : Reaches world activity activity') (second : Reaches world activity' last) :
    Reaches world activity last := by
  obtain ⟨occurrences, background, rfl⟩ := first
  obtain ⟨more, background', rfl⟩ := second
  exact ⟨occurrences ++ more, List.forall_mem_append.mpr ⟨background, background'⟩,
    List.foldl_append⟩

theorem of_occur (activity : Activity σ) (occurrence : Occurrence σ)
    (background : occurrence.isStart = false) :
    Reaches world activity (activity.occur world occurrence).1 :=
  ⟨[occurrence], List.forall_mem_singleton.mpr background, rfl⟩

end Reaches

theorem reaches_hear (surroundings : Surroundings σ) (actor : Actor) (moment : Moment)
    (activity : Activity σ) :
    Reaches surroundings.world activity (activity.hear surroundings actor moment).activity := by
  rcases said : surroundings.signal actor moment activity.loop.cancelled activity.state with
    ⟨signal, state⟩
  have drifts : Reaches surroundings.world activity { activity with state } :=
    .of_occur activity (.drift state) rfl
  simp only [hear, said]
  split
  · exact drifts.trans (.of_occur _ .cancel rfl)
  · exact drifts

theorem reaches_advance (surroundings : Surroundings σ) (actor : Actor) (activity : Activity σ) :
    Reaches surroundings.world activity (activity.advance surroundings actor).activity := by
  obtain ⟨heard, advances, reached⟩ : ∃ heard : Progress σ,
      activity.advance surroundings actor = (if heard.hangs then heard else
        { activity := (heard.activity.step surroundings.world actor).1
          events := (heard.activity.step surroundings.world actor).2 }) ∧
      Reaches surroundings.world activity heard.activity := by
    refine ⟨_, rfl, ?_⟩
    cases (activity.phase? actor).bind Phase.moment? with
    | none => exact .refl activity
    | some moment => exact reaches_hear surroundings actor moment activity
  rw [advances]
  split
  · exact reached
  · exact reached.trans (.of_occur heard.activity (.step actor) rfl)

theorem reaches_proceed (surroundings : Surroundings σ) (actor : Actor) (steps : Nat)
    (activity : Activity σ) :
    Reaches surroundings.world activity (activity.proceed surroundings actor steps).activity := by
  induction steps generalizing activity with
  | zero => exact .refl activity
  | succ steps inductionHypothesis =>
    have first := reaches_advance surroundings actor activity
    unfold proceed
    split
    · exact .refl activity
    · exact .refl activity
    · dsimp only
      split
      · exact first
      · exact first.trans (inductionHypothesis _)

theorem reaches_proceedThread (surroundings : Surroundings σ) (steps number : Nat)
    (activity : Activity σ) :
    Reaches surroundings.world activity
      (activity.proceedThread surroundings steps number).1 := by
  have reached := reaches_proceed surroundings (.thread number) steps activity
  unfold proceedThread
  dsimp only
  split
  · rename_i fault run
    have ends : ((activity.proceed surroundings (.thread number) steps).activity.occur
          surroundings.world (.step (.thread number))).1 =
        ((activity.proceed surroundings (.thread number) steps).activity.endThread number
          fault).1 := by
      simp only [occur, step, run]
    rw [← ends]
    exact reached.trans (.of_occur _ (.step (.thread number)) rfl)
  · exact reached

/-- However the background threads go on in surroundings, it is by what can happen. -/
theorem reaches_settle (surroundings : Surroundings σ) (steps : Nat) (activity : Activity σ) :
    Reaches surroundings.world activity (activity.settle surroundings steps).1 := by
  have goesOn (threads : List PollThread) (start : Activity σ × List Event) :
      Reaches surroundings.world start.1
        (threads.foldl (fun progress thread =>
          ((progress.1.proceedThread surroundings steps thread.number).1,
            progress.2 ++ (progress.1.proceedThread surroundings steps thread.number).2))
          start).1 := by
    induction threads generalizing start with
    | nil => exact .refl _
    | cons thread rest inductionHypothesis =>
      have first := reaches_proceedThread surroundings steps thread.number start.1
      exact first.trans (inductionHypothesis
        ((start.1.proceedThread surroundings steps thread.number).1,
          start.2 ++ (start.1.proceedThread surroundings steps thread.number).2))
  exact goesOn activity.threads (activity, [])

end Activity

end RedirectMonitor
