/-
This file says how a background thread can end and what of it the loop keeps. A run that no fault
breaks from outside is left by a request to end, by a fault of a reading, by rows that cannot be
computed, or by a wait that is refused.

The content is an account of a thread from its start on. While it is alive the loop keeps no error;
when it has ended the loop keeps the fault that its run was left with, if that is an error of the
monitor's own; and a run is left without a fault only if an end was asked for. Nothing that happens
beside the thread has a say in this, since the loop refers to a thread as long as it is alive and
starts no other one.
-/

import RedirectMonitor.Proofs.Background

namespace RedirectMonitor

/-- The error that the loop keeps of a fault, if it is one of the monitor's own. -/
def Fault.error? : Fault → Option MonitorError
  | .error cause => some cause
  | .lookup _ | .rate _ | .cpuList _ | .file _ | .interval _ | .wait _ | .noNumber
  | .noDirectory => none

namespace PollLoop

variable {σ : Type}

/-! ### How a run is left -/

/-- What a run is left with from a phase on, once it is known. -/
def Phase.leaves? : Phase → Option (Option Fault)
  | .leaving fault | .over fault => some fault
  | .launched | .collecting .. | .rendered | .waiting => none

/-- The step from a phase fails with a fault: of the reading that it makes, of the rows that it
computes, or of the wait that it asks for. -/
inductive Fails (world : World σ) (loop : PollLoop) (state : σ) : Phase → Fault → Prop
  | reading {purpose : Purpose} {side : Side} {group : Group} {left : List Group} {failed : Nat}
      {fault : Fault} (broken : (world.read loop.store.cores group.address.map group.address.key
        state).1 = .broken fault) :
      Fails world loop state (.collecting purpose side (group :: left) failed) fault
  | rows {side : Side} {failed : Nat} {cause : RateError} (free : loop.cancelled = false)
      (unknown : (Report.rows loop.store.current loop.store.previous).outcome = .error cause) :
      Fails world loop state (.collecting .cycle side [] failed) (.rate cause)
  | wait {refusal : Refusal} (free : loop.cancelled = false)
      (refused : world.waitRefusal? loop.interval = some refusal) :
      Fails world loop state .waiting (.wait refusal)

theorem fault_readGroup (world : World σ) (side : Side) (group : Group) (store : Store) (state : σ)
    (fault : Fault) :
    (store.readGroup world side group state).fault = some fault ↔
      (world.read store.cores group.address.map group.address.key state).1 = .broken fault := by
  simp only [Store.readGroup]
  cases (world.read store.cores group.address.map group.address.key state).1 <;> simp

section Fails

variable {world : World σ} {loop : PollLoop} {state : σ} {fault : Fault}

theorem fails_reading_iff {purpose : Purpose} {side : Side} {group : Group} {left : List Group}
    {failed : Nat} :
    Fails world loop state (.collecting purpose side (group :: left) failed) fault ↔
      (world.read loop.store.cores group.address.map group.address.key state).1 =
        .broken fault := by
  refine ⟨fun fails => ?_, .reading⟩
  cases fails with
  | reading broken => exact broken

theorem fails_rows_iff {side : Side} {failed : Nat} :
    Fails world loop state (.collecting .cycle side [] failed) fault ↔
      loop.cancelled = false ∧ ∃ cause, fault = .rate cause ∧
        (Report.rows loop.store.current loop.store.previous).outcome = .error cause := by
  constructor
  · intro fails
    cases fails with
    | rows free unknown => exact ⟨free, _, rfl, unknown⟩
  · rintro ⟨free, cause, rfl, unknown⟩
    exact .rows free unknown

theorem fails_wait_iff :
    Fails world loop state .waiting fault ↔
      loop.cancelled = false ∧ ∃ refusal, fault = .wait refusal ∧
        world.waitRefusal? loop.interval = some refusal := by
  constructor
  · intro fails
    cases fails with
    | wait free refused => exact ⟨free, _, rfl, refused⟩
  · rintro ⟨free, refusal, rfl, refused⟩
    exact .wait free refused

/-- A run that was not about to end is left with a fault just where its step fails with it. -/
theorem leaves?_step_iff (world : World σ) {phase : Phase} (loop : PollLoop) (state : σ)
    (unknown : phase.leaves? = none) (fault : Fault) :
    (step world phase loop state).phase.leaves? = some (some fault) ↔
      Fails world loop state phase fault := by
  cases phase with
  | leaving | «over» => cases unknown
  | launched =>
    refine ⟨fun left => ?_, fun fails => by cases fails⟩
    simp only [step, launch] at left
    split at left <;> cases left
  | rendered => exact ⟨fun left => (by cases left), fun fails => by cases fails⟩
  | waiting =>
    rw [fails_wait_iff]
    simp only [step, wait]
    cases pending : loop.cancelled with
    | true => simp [Phase.leaves?]
    | false =>
      cases world.waitRefusal? loop.interval with
      | some refusal => simp [Phase.leaves?, eq_comm]
      | none => simp [Phase.leaves?, beginCycle, beginCollection]
  | collecting purpose side left failed =>
    cases left with
    | cons group left =>
      rw [fails_reading_iff, ← fault_readGroup world side]
      show (readNext world purpose side group left failed loop state).phase.leaves? = _ ↔ _
      unfold readNext
      dsimp only
      cases (loop.store.readGroup world side group state).fault with
      | some other => simp [Phase.leaves?]
      | none => simp [Phase.leaves?]
    | nil =>
      cases purpose with
      | priming =>
        refine ⟨fun left => ?_, fun fails => by cases fails⟩
        simp only [step, completeCollection] at left
        split at left <;> cases left
      | cycle =>
        rw [fails_rows_iff]
        simp only [step, completeCollection]
        cases pending : loop.cancelled with
        | true => simp [Phase.leaves?]
        | false =>
          simp only [Bool.false_eq_true, if_false, true_and, render]
          cases Report.rows loop.store.current loop.store.previous with
          | mk notices outcome =>
            cases outcome with
            | error cause => simp [Phase.leaves?, eq_comm]
            | ok rows => simp [Phase.leaves?]

end Fails

variable {loop loop' : PollLoop} {phase phase' : Phase} {made shown : Nat}

/-- A run that was not about to end is left without a fault only where an end was asked for. -/
theorem Passes.cancelled_of_leaves (passes : Passes loop phase phase' loop' made shown)
    (unknown : phase.leaves? = none) (left : phase'.leaves? = some none) :
    loop.cancelled = true := by
  cases passes with
  | refused pending | stops pending => exact pending
  | reads groups onward => rcases onward with ⟨failed', rfl⟩ | ⟨fault, rfl⟩ <;> cases left
  | primes | cycles | renders | fails | rests => cases left
  | leaves => cases unknown

/-- A run that is about to end stays so. -/
theorem Passes.leaves?_eq (passes : Passes loop phase phase' loop' made shown)
    (known : phase.leaves? ≠ none) : phase'.leaves? = phase.leaves? := by
  cases passes with
  | leaves => rfl
  | stops pending complete =>
    rcases complete with rfl | ⟨purpose, side, failed, rfl⟩ <;> exact absurd rfl known
  | cycles free complete | fails free complete =>
    rcases complete with rfl | ⟨side, failed, rfl⟩ <;> exact absurd rfl known
  | refused | primes | reads | renders | rests => exact absurd rfl known

end PollLoop

namespace Activity

open RedirectMonitor.PollLoop

variable {σ : Type} {world : World σ} {activity : Activity σ} {number : Nat}

/-! ### The thread that the loop refers to -/

/-- The loop refers to whatever thread is alive. -/
def RefersToAlive (activity : Activity σ) : Prop :=
  ∀ thread ∈ activity.threads, activity.loop.thread = some thread.number

theorem RefersToAlive.threads_eq_nil (refers : activity.RefersToAlive)
    (idle : activity.isRunning = false) : activity.threads = [] := by
  refine List.eq_nil_iff_forall_not_mem.mpr fun thread alive => ?_
  have running : activity.isRunning = true := by
    simp only [isRunning, refers thread alive, isAlive, List.any_eq_true]
    exact ⟨thread, alive, beq_self_eq_true _⟩
  rw [idle] at running
  cases running

theorem RefersToAlive.setPhase (refers : activity.RefersToAlive) (actor : Actor) (phase : Phase) :
    (activity.setPhase actor phase).RefersToAlive := by
  cases actor with
  | caller => exact refers
  | thread number =>
    intro thread alive
    obtain ⟨before, alive', same⟩ := List.mem_map.mp alive
    have refers' : activity.loop.thread = some before.number := refers before alive'
    subst same
    show activity.loop.thread = _
    split <;> exact refers'

theorem RefersToAlive.step (refers : activity.RefersToAlive) (world : World σ) (actor : Actor) :
    (activity.step world actor).1.RefersToAlive := by
  cases stepCase world activity actor with
  | absent none same =>
    rw [same]
    exact refers
  | returns run same =>
    rw [same]
    exact refers
  | ends run same =>
    rw [same]
    exact fun thread alive => refers thread (List.mem_of_mem_filter alive)
  | goesOn run passes same =>
    rw [same]
    refine RefersToAlive.setPhase (fun thread alive => ?_) actor _
    exact passes.thread.trans (refers thread alive)

theorem RefersToAlive.occur (refers : activity.RefersToAlive) (world : World σ)
    (occurrence : Occurrence σ) : (activity.occur world occurrence).1.RefersToAlive := by
  cases occurrence with
  | step actor => exact refers.step world actor
  | breaks actor fault =>
    show (activity.breakRun actor fault).RefersToAlive
    unfold breakRun
    split
    · exact refers.setPhase actor _
    · exact refers
  | start interval =>
    show (activity.startCall interval).RefersToAlive
    rcases activity.startCall_eq interval with same | ⟨-, interval', same⟩
    · rw [same]
      exact refers
    · rw [same]
      exact refers
  | startBackground =>
    show activity.startBackground.RefersToAlive
    unfold startBackground
    split
    · exact refers
    · rename_i gone
      have none := refers.threads_eq_nil (Bool.eq_false_iff.mpr gone)
      intro thread alive
      rw [none] at alive
      rw [List.mem_singleton.mp alive]
  | stopReturns =>
    show activity.finishStop.RefersToAlive
    unfold finishStop
    split
    · exact refers
    · rename_i gone
      have none := refers.threads_eq_nil (Bool.eq_false_iff.mpr gone)
      intro thread alive
      rw [none] at alive
      cases alive
  | drift state => exact refers
  | cancel => exact refers

theorem RefersToAlive.after (refers : activity.RefersToAlive) (world : World σ)
    (occurrences : List (Occurrence σ)) :
    (Activity.after world occurrences activity).RefersToAlive := by
  induction occurrences generalizing activity with
  | nil => exact refers
  | cons occurrence rest inductionHypothesis =>
    exact inductionHypothesis (refers.occur world occurrence)

/-- Where no thread was started none is alive. -/
theorem refersToAlive_of_fresh (loop : PollLoop) (state : σ) :
    ({ loop, state } : Activity σ).RefersToAlive :=
  fun _ alive => absurd alive List.not_mem_nil

/-! ### What happens beside a thread -/

/-- Whether an occurrence is a fault that breaks a run from outside. -/
def Occurrence.isBreak : Occurrence σ → Bool
  | .breaks .. => true
  | .step _ | .drift _ | .start _ | .startBackground | .cancel | .stopReturns => false

theorem started_setPhase (activity : Activity σ) (actor : Actor) (phase : Phase) :
    (activity.setPhase actor phase).started = activity.started := by
  cases actor <;> rfl

/-- Only a start in the background counts a new thread. -/
theorem started_le_occur (world : World σ) (activity : Activity σ) (occurrence : Occurrence σ) :
    activity.started ≤ (activity.occur world occurrence).1.started := by
  cases occurrence with
  | step actor =>
    show activity.started ≤ (activity.step world actor).1.started
    cases stepCase world activity actor with
    | absent none same => rw [same]
    | returns run same => exact (congrArg (fun next => next.1.started) same).ge
    | ends run same => rw [same]
    | goesOn run passes same => rw [same, started_setPhase]
  | breaks actor fault =>
    show activity.started ≤ (activity.breakRun actor fault).started
    unfold breakRun
    split
    · rw [started_setPhase]
    · exact Nat.le_refl _
  | start interval =>
    show activity.started ≤ (activity.startCall interval).started
    rcases activity.startCall_eq interval with same | ⟨-, interval', same⟩ <;>
      exact (congrArg started same).ge
  | startBackground =>
    show activity.started ≤ activity.startBackground.started
    unfold startBackground
    split
    · exact Nat.le_refl _
    · exact Nat.le_succ _
  | stopReturns =>
    show activity.started ≤ activity.finishStop.started
    unfold finishStop
    split <;> exact Nat.le_refl _
  | drift state => exact Nat.le_refl _
  | cancel => exact Nat.le_refl _

theorem started_le_after (world : World σ) (occurrences : List (Occurrence σ))
    (activity : Activity σ) :
    activity.started ≤ (after world occurrences activity).started := by
  induction occurrences generalizing activity with
  | nil => exact Nat.le_refl _
  | cons occurrence rest inductionHypothesis =>
    exact (started_le_occur world activity occurrence).trans (inductionHypothesis _)

/-- What happens beside the only thread, but for a fault from outside and a new thread, leaves the
threads and the error that the loop keeps. -/
theorem occur_beside (only : ∀ thread ∈ activity.threads, thread.number = number)
    {occurrence : Occurrence σ} (unbroken : occurrence.isBreak = false)
    (beside : occurrence.isStepOf (.thread number) = false)
    (noneNew : (activity.occur world occurrence).1.started = activity.started) :
    (activity.occur world occurrence).1.threads = activity.threads ∧
      (activity.occur world occurrence).1.loop.error = activity.loop.error := by
  cases occurrence with
  | breaks actor fault => cases unbroken
  | step actor =>
    show (activity.step world actor).1.threads = _ ∧ (activity.step world actor).1.loop.error = _
    have own {other : Nat} {phase : Phase}
        (run : activity.phase? (.thread other) = some phase) : other = number := by
      obtain ⟨thread, found, -⟩ := Option.map_eq_some_iff.mp run
      rw [← number_of_find? found]
      exact only thread (List.mem_of_find?_eq_some found)
    cases stepCase world activity actor with
    | absent none same =>
      rw [same]
      exact ⟨rfl, rfl⟩
    | returns run same =>
      rw [same]
      exact ⟨rfl, rfl⟩
    | ends run same => simp [Occurrence.isStepOf, own run] at beside
    | goesOn run passes same =>
      cases actor with
      | thread other => simp [Occurrence.isStepOf, own run] at beside
      | caller =>
        rw [same]
        exact ⟨rfl, passes.error⟩
  | start interval =>
    show (activity.startCall interval).threads = _ ∧ (activity.startCall interval).loop.error = _
    rcases activity.startCall_eq interval with same | ⟨-, interval', same⟩ <;>
    · rw [same]
      exact ⟨rfl, rfl⟩
  | startBackground =>
    change activity.startBackground.started = _ at noneNew
    show activity.startBackground.threads = _ ∧ activity.startBackground.loop.error = _
    unfold startBackground at noneNew ⊢
    split
    · exact ⟨rfl, rfl⟩
    · rename_i gone
      rw [if_neg gone] at noneNew
      exact absurd noneNew (Nat.succ_ne_self _)
  | stopReturns =>
    show activity.finishStop.threads = _ ∧ activity.finishStop.loop.error = _
    unfold finishStop
    split <;> exact ⟨rfl, rfl⟩
  | drift state => exact ⟨rfl, rfl⟩
  | cancel => exact ⟨rfl, rfl⟩

/-! ### The account of a thread -/

/-- Among all that happened there is a step of the thread from an activity of a kind. -/
def StepsFrom (world : World σ) (number : Nat) (begun : Activity σ) (later : List (Occurrence σ))
    (kind : Activity σ → Prop) : Prop :=
  ∃ before rest, later = before ++ .step (.thread number) :: rest ∧ kind (after world before begun)

theorem stepsFrom_concat {begun : Activity σ} {later : List (Occurrence σ)}
    {occurrence : Occurrence σ} {kind : Activity σ → Prop} :
    StepsFrom world number begun (later ++ [occurrence]) kind ↔
      StepsFrom world number begun later kind ∨
        occurrence = .step (.thread number) ∧ kind (after world later begun) := by
  constructor
  · rintro ⟨before, rest, same, holds⟩
    rcases append_singleton_eq_append_cons_iff.mp same with ⟨-, rfl, rfl⟩ | ⟨rest, -, rfl⟩
    · exact .inr ⟨rfl, holds⟩
    · exact .inl ⟨before, rest, rfl, holds⟩
  · rintro (⟨before, rest, rfl, holds⟩ | ⟨rfl, holds⟩)
    · exact ⟨before, rest ++ [occurrence], by simp, holds⟩
    · exact ⟨later, [], rfl, holds⟩

/-- The next step of a thread fails with a fault. -/
def ThreadFails (world : World σ) (number : Nat) (fault : Fault) (activity : Activity σ) : Prop :=
  ∃ phase, activity.phase? (.thread number) = some phase ∧
    Fails world activity.loop activity.state phase fault

/-- Someone asked for an end before a thread was started, or has since. -/
def Asked (begun : Activity σ) (later : List (Occurrence σ)) : Prop :=
  begun.loop.cancelled = true ∨ ∃ occurrence ∈ later, occurrence.isCancel = true

/-- How a thread stands that is the only one there can be: alive, in a phase, or gone, left with a
fault or without one. -/
inductive Stands (number : Nat) (activity : Activity σ) : Option (Option Fault) → Prop
  | alive {phase : Phase} (threads : activity.threads = [⟨number, phase⟩])
      (error : activity.loop.error = none) : Stands number activity phase.leaves?
  | gone {fault : Option Fault} (threads : activity.threads = [])
      (error : activity.loop.error = fault.bind Fault.error?) : Stands number activity (some fault)

theorem Stands.only {left : Option (Option Fault)} (stands : Stands number activity left) :
    ∀ thread ∈ activity.threads, thread.number = number := by
  cases stands with
  | alive threads => simp [threads]
  | gone threads => simp [threads]

theorem endThread_error (activity : Activity σ) (number : Nat) (fault : Option Fault) :
    (activity.endThread number fault).1.loop.error =
      (fault.bind Fault.error?).or activity.loop.error := by
  cases fault with
  | none => rfl
  | some fault => cases fault <;> rfl

/-- With its step a thread stands as before, or is left with the fault that the step fails with, or
without one where an end was asked for. -/
theorem Stands.step {left : Option (Option Fault)} (stands : Stands number activity left)
    (world : World σ) :
    ∃ left', Stands number (activity.step world (.thread number)).1 left' ∧
      (∀ fault, left' = some (some fault) ↔
        left = some (some fault) ∨ ThreadFails world number fault activity) ∧
      (left' = some none → left = some none ∨ activity.loop.cancelled = true) := by
  cases stands with
  | @gone fault threads error =>
    have run : activity.phase? (.thread number) = none := by simp [phase?, threads]
    rw [step_of_none world run]
    exact ⟨some fault, .gone threads error, by simp [ThreadFails, run], .inl⟩
  | @alive phase threads error =>
    have run : activity.phase? (.thread number) = some phase := phase?_of_threads threads
    have failsIff (fault : Fault) : ThreadFails world number fault activity ↔
        Fails world activity.loop activity.state phase fault := by
      simp [ThreadFails, run]
    simp only [failsIff]
    by_cases isOver : ∃ fault, phase = .over fault
    · obtain ⟨fault, rfl⟩ := isOver
      have same : activity.step world (.thread number) = activity.endThread number fault := by
        simp only [Activity.step, run]
      rw [same]
      refine ⟨some fault, ?_, fun other => ?_, .inl⟩
      · obtain ⟨error', events, ended, -⟩ := endThread_eq activity number fault
        have kept := endThread_error activity number fault
        rw [error, Option.or_none] at kept
        refine .gone ?_ kept
        rw [ended]
        simp [threads]
      · exact ⟨.inl, fun either => either.resolve_right fun fails => by cases fails⟩
    · have notOver : ∀ fault, phase ≠ .over fault := fun fault same => isOver ⟨fault, same⟩
      have passes := passes_step world activity.loop activity.state notOver
      rw [step_of_notOver world run notOver]
      refine ⟨(PollLoop.step world phase activity.loop activity.state).phase.leaves?,
        .alive (by simp [setPhase, threads]) (passes.error.trans error), fun fault => ?_,
        fun left => ?_⟩
      · cases known : phase.leaves? with
        | none => simp [leaves?_step_iff world activity.loop activity.state known]
        | some fault' =>
          rw [passes.leaves?_eq (by simp [known]), known]
          refine ⟨.inl, fun either => either.resolve_right fun fails => ?_⟩
          cases fails <;> cases known
      · cases known : phase.leaves? with
        | none => exact .inr (passes.cancelled_of_leaves known left)
        | some fault' =>
          rw [passes.leaves?_eq (by simp [known]), known] at left
          exact .inl left

/-- The account of a thread after all that happened since its start: how its run is left, if that is
known, and why. -/
structure ThreadAccount (world : World σ) (number : Nat) (begun : Activity σ)
    (later : List (Occurrence σ)) (activity : Activity σ) (left : Option (Option Fault)) :
    Prop where
  stands : Stands number activity left
  fails : ∀ fault, left = some (some fault) ↔
    StepsFrom world number begun later (ThreadFails world number fault)
  asked : left = some none → Asked begun later
  flagged : activity.loop.cancelled = true → Asked begun later

variable {begun : Activity σ} {later : List (Occurrence σ)} {left : Option (Option Fault)}

theorem Asked.concat (asked : Asked begun later) (occurrence : Occurrence σ) :
    Asked begun (later ++ [occurrence]) :=
  asked.imp_right fun ⟨request, member, isCancel⟩ =>
    ⟨request, List.mem_append_left _ member, isCancel⟩

/-- A flag that is set was asked for. -/
theorem ThreadAccount.flagged_concat
    (account : ThreadAccount world number begun later (after world later begun) left)
    (occurrence : Occurrence σ)
    (flag : ((after world later begun).occur world occurrence).1.loop.cancelled = true) :
    Asked begun (later ++ [occurrence]) := by
  cases request : occurrence.isCancel with
  | true => exact .inr ⟨occurrence, by simp, request⟩
  | false =>
    cases free : (after world later begun).loop.cancelled with
    | true => exact (account.flagged free).concat occurrence
    | false =>
      rw [cancelled_occur_eq_false world free request] at flag
      cases flag

/-- A step of the thread keeps its account. -/
theorem ThreadAccount.step
    (account : ThreadAccount world number begun later (after world later begun) left) :
    ∃ left', ThreadAccount world number begun (later ++ [.step (.thread number)])
      ((after world later begun).occur world (.step (.thread number))).1 left' := by
  obtain ⟨left', stands, fails, ends⟩ := account.stands.step world
  refine ⟨left', stands, fun fault => ?_, fun unfailed => ?_, account.flagged_concat _⟩
  · rw [fails, account.fails, stepsFrom_concat, and_iff_right rfl]
  · rcases ends unfailed with before | pending
    · exact (account.asked before).concat _
    · exact (account.flagged pending).concat _

/-- What happens beside the thread keeps its account. -/
theorem ThreadAccount.beside
    (account : ThreadAccount world number begun later (after world later begun) left)
    {occurrence : Occurrence σ} (unbroken : occurrence.isBreak = false)
    (other : occurrence.isStepOf (.thread number) = false)
    (noneNew : ((after world later begun).occur world occurrence).1.started =
      (after world later begun).started) :
    ThreadAccount world number begun (later ++ [occurrence])
      ((after world later begun).occur world occurrence).1 left := by
  obtain ⟨threads, error⟩ := occur_beside account.stands.only unbroken other noneNew
  refine ⟨?_, fun fault => ?_, fun left => (account.asked left).concat _,
    account.flagged_concat occurrence⟩
  · cases account.stands with
    | alive threads' error' => exact .alive (threads.trans threads') (error.trans error')
    | gone threads' error' => exact .gone (threads.trans threads') (error.trans error')
  · rw [account.fails, stepsFrom_concat]
    refine ⟨.inl, fun either => either.resolve_right ?_⟩
    rintro ⟨rfl, -⟩
    simp [Occurrence.isStepOf] at other

/-- As long as no other thread was started, a thread has its account, whatever happens but for a
fault that breaks a run from outside. -/
theorem threadAccount_after (world : World σ) {start : Activity σ} (refers : start.RefersToAlive)
    (idle : start.isRunning = false) (later : List (Occurrence σ))
    (unbroken : ∀ occurrence ∈ later, occurrence.isBreak = false)
    (noneNew : (after world later start.startBackground).started = start.started + 1) :
    ∃ left, ThreadAccount world start.started start.startBackground later
      (after world later start.startBackground) left := by
  have begins : start.startBackground = { start with
      loop := { start.loop with error := none, thread := some start.started }
      threads := [⟨start.started, .launched⟩]
      started := start.started + 1 } := by
    simp only [startBackground, idle, refers.threads_eq_nil idle, Bool.false_eq_true, if_false,
      List.nil_append]
  induction later using List.reverseRecOn with
  | nil =>
    refine ⟨none, ?_, fun fault => ?_, fun left => (by cases left), fun flag => .inl flag⟩
    · show Stands start.started start.startBackground (Phase.launched).leaves?
      rw [begins]
      exact .alive rfl rfl
    · simp [StepsFrom]
  | append_singleton earlier occurrence inductionHypothesis =>
    set begun := start.startBackground with fresh
    obtain ⟨unbroken, now⟩ := List.forall_mem_append.mp unbroken
    have now := now occurrence (List.mem_singleton_self occurrence)
    have last : after world (earlier ++ [occurrence]) begun =
        ((after world earlier begun).occur world occurrence).1 := List.foldl_concat ..
    rw [last] at noneNew ⊢
    have counted : begun.started = start.started + 1 := by rw [begins]
    have more := started_le_after world earlier begun
    have still := started_le_occur world (after world earlier begun) occurrence
    obtain ⟨left, account⟩ := inductionHypothesis unbroken (by omega)
    cases own : occurrence.isStepOf (.thread start.started) with
    | false => exact ⟨left, account.beside now own (by omega)⟩
    | true =>
      obtain rfl := Occurrence.eq_step own
      exact account.step

end Activity

end RedirectMonitor
