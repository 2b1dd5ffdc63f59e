/-
This file follows the background threads of a loop that its caller starts, asks to end and stops,
without a run of its own. A stop asks for an end and then waits; it returns when the thread has
ended, or when its patience has.

The content is that no two threads ever work on the loop: a new one is started only when the loop
refers to none that is alive. So nobody but the thread's own run, when it ends, and a stop that has
seen the thread end clear the flag. A request that a stop leaves behind is therefore met by the run
that it was made to, and a stop that has seen the end leaves the loop as a new one needs it.
-/

import RedirectMonitor.Proofs.Interleaving

namespace RedirectMonitor

namespace PollLoop

variable {loop loop' : PollLoop} {phase phase' : Phase} {made shown : Nat}

/-- Whether the loop counts as running in a phase of its only run. -/
def Phase.isPolling : Phase → Bool
  | .collecting .. | .rendered | .waiting | .leaving _ => true
  | .launched | .over _ => false

theorem Passes.polling (passes : Passes loop phase phase' loop' made shown)
    (running : loop.running = phase.isPolling) : loop'.running = phase'.isPolling := by
  cases passes with
  | reads groups onward => rcases onward with ⟨failed', rfl⟩ | ⟨fault, rfl⟩ <;> exact running
  | stops pending complete => rcases complete with rfl | ⟨_, _, _, rfl⟩ <;> exact running
  | cycles free complete => rcases complete with rfl | ⟨_, _, rfl⟩ <;> exact running
  | fails free complete => rcases complete with rfl | ⟨_, _, rfl⟩ <;> exact running
  | refused | renders | rests => exact running
  | primes | leaves => rfl

/-- A run does not change to which thread the loop refers. -/
theorem Passes.thread (passes : Passes loop phase phase' loop' made shown) :
    loop'.thread = loop.thread := by
  cases passes <;> rfl

end PollLoop

namespace Activity

open RedirectMonitor.PollLoop

variable {σ : Type} {activity : Activity σ}

/-! ### One thread at most -/

/-- The caller has no run, no thread is alive but the one that the loop refers to, and the loop
counts as running just while the run of this thread is under way. -/
structure InBackground (activity : Activity σ) : Prop where
  idle : activity.call = none
  threads : (activity.threads = [] ∧ activity.loop.running = false) ∨
    ∃ number phase, activity.threads = [⟨number, phase⟩] ∧
      activity.loop.thread = some number ∧ activity.loop.running = phase.isPolling

theorem phase?_of_threads {number : Nat} {phase : Phase}
    (threads : activity.threads = [⟨number, phase⟩]) :
    activity.phase? (.thread number) = some phase := by
  simp [phase?, threads]

namespace InBackground

/-- Nobody has a run but the thread that is alive. -/
theorem threads_of_run (inBackground : activity.InBackground) {actor : Actor} {phase : Phase}
    (run : activity.phase? actor = some phase) :
    ∃ number, actor = .thread number ∧ activity.threads = [⟨number, phase⟩] ∧
      activity.loop.thread = some number ∧ activity.loop.running = phase.isPolling := by
  cases actor with
  | caller => exact absurd (inBackground.idle.symm.trans run) (by simp)
  | thread number =>
    rcases inBackground.threads with ⟨none, -⟩ | ⟨number', phase', threads, refers, running⟩
    · simp [phase?, none] at run
    · obtain ⟨rfl, rfl⟩ : number' = number ∧ phase' = phase := by
        simpa [phase?, threads] using run
      exact ⟨number', rfl, threads, refers, running⟩

/-- The loop refers to a thread that is alive just where there is one. -/
theorem isRunning_eq_false_iff (inBackground : activity.InBackground) :
    activity.isRunning = false ↔ activity.threads = [] := by
  rcases inBackground.threads with ⟨none, -⟩ | ⟨number, phase, threads, refers, -⟩
  · simp only [isRunning, isAlive, none, List.any_nil, iff_true]
    split <;> rfl
  · simp [isRunning, isAlive, refers, threads]

/-- The run of the thread that is alive makes its steps, and when it is over the thread ends. -/
theorem step (inBackground : activity.InBackground) (world : World σ) (actor : Actor) :
    (activity.step world actor).1.InBackground := by
  cases stepCase world activity actor with
  | absent none same =>
    rw [same]
    exact inBackground
  | returns run same =>
    obtain ⟨number, isThread, -⟩ := inBackground.threads_of_run run
    cases isThread
  | ends run same =>
    obtain ⟨number, isThread, threads, refers, running⟩ := inBackground.threads_of_run run
    obtain rfl := Actor.thread.inj isThread
    rw [same]
    exact ⟨inBackground.idle, .inl ⟨by simp [threads], running⟩⟩
  | goesOn run passes same =>
    obtain ⟨number, rfl, threads, refers, running⟩ := inBackground.threads_of_run run
    rw [same]
    refine ⟨inBackground.idle, .inr ⟨number, _, ?_, passes.thread.trans refers,
      passes.polling running⟩⟩
    simp [setPhase, threads]

theorem breakRun (inBackground : activity.InBackground) (actor : Actor) (fault : Fault) :
    (activity.breakRun actor fault).InBackground := by
  unfold Activity.breakRun
  split
  · rename_i run
    obtain ⟨number, rfl, threads, refers, running⟩ := inBackground.threads_of_run run
    exact ⟨inBackground.idle, .inr ⟨number, .leaving (some fault), by simp [setPhase, threads],
      refers, running⟩⟩
  · exact inBackground

theorem cancel (inBackground : activity.InBackground) : activity.cancel.InBackground :=
  ⟨inBackground.idle, inBackground.threads⟩

/-- Whatever happens while the caller starts no run of its own, one thread at most is alive. -/
theorem occur (inBackground : activity.InBackground) (world : World σ)
    {occurrence : Occurrence σ} (background : occurrence.isStart = false) :
    (activity.occur world occurrence).1.InBackground := by
  cases occurrence with
  | step actor => exact inBackground.step world actor
  | breaks actor fault => exact inBackground.breakRun actor fault
  | start interval => cases background
  | startBackground =>
    show activity.startBackground.InBackground
    unfold startBackground
    split
    · exact inBackground
    · rename_i gone
      have none := inBackground.isRunning_eq_false_iff.mp (Bool.eq_false_iff.mpr gone)
      rcases inBackground.threads with ⟨-, running⟩ | ⟨number, phase, threads, -⟩
      · exact ⟨inBackground.idle, .inr ⟨activity.started, .launched, by simp [none], rfl, running⟩⟩
      · rw [none] at threads
        cases threads
  | stopReturns =>
    show activity.finishStop.InBackground
    unfold finishStop
    split
    · exact inBackground
    · rename_i gone
      have none := inBackground.isRunning_eq_false_iff.mp (Bool.eq_false_iff.mpr gone)
      rcases inBackground.threads with ⟨-, running⟩ | ⟨number, phase, threads, -⟩
      · exact ⟨inBackground.idle, .inl ⟨none, running⟩⟩
      · rw [none] at threads
        cases threads
  | drift state => exact ⟨inBackground.idle, inBackground.threads⟩
  | cancel => exact inBackground.cancel

theorem after (world : World σ) (occurrences : List (Occurrence σ))
    (background : ∀ occurrence ∈ occurrences, occurrence.isStart = false)
    {activity : Activity σ} (inBackground : activity.InBackground) :
    (Activity.after world occurrences activity).InBackground := by
  induction occurrences generalizing activity with
  | nil => exact inBackground
  | cons occurrence rest inductionHypothesis =>
    obtain ⟨now, later⟩ := List.forall_mem_cons.mp background
    exact inductionHypothesis later (inBackground.occur world now)

/-- However the threads go on in surroundings, one thread at most is alive. -/
theorem settle (surroundings : Surroundings σ) (steps : Nat)
    (inBackground : activity.InBackground) :
    (activity.settle surroundings steps).1.InBackground := by
  obtain ⟨occurrences, background, same⟩ := reaches_settle surroundings steps activity
  rw [← same]
  exact inBackground.after surroundings.world occurrences background

/-- Nothing that happens beside the thread that is alive clears the flag. -/
theorem clearedBeside_eq_false (world : World σ) (actor : Actor)
    (occurrences : List (Occurrence σ))
    (background : ∀ occurrence ∈ occurrences, occurrence.isStart = false)
    {activity : Activity σ} (inBackground : activity.InBackground) :
    clearedBeside world actor occurrences activity = false := by
  induction occurrences generalizing activity with
  | nil => rfl
  | cons occurrence rest inductionHypothesis =>
    obtain ⟨now, later⟩ := List.forall_mem_cons.mp background
    rw [clearedBeside, inductionHypothesis later (inBackground.occur world now), Bool.or_false]
    cases run : activity.phase? actor with
    | none => rfl
    | some phase =>
      obtain ⟨number, rfl, threads, -⟩ := inBackground.threads_of_run run
      cases own : occurrence.isStepOf (.thread number) with
      | true => simp
      | false =>
        suffices keeps : activity.clearsFlag occurrence = false by simp [keeps]
        cases occurrence with
        | step other =>
          rw [clearsFlag]
          cases run' : activity.phase? other with
          | none => rfl
          | some phase' =>
            obtain ⟨number', rfl, threads', -⟩ := inBackground.threads_of_run run'
            obtain ⟨rfl, -⟩ : number' = number ∧ phase' = phase := by
              simpa [threads] using threads'.symm
            simp [Occurrence.isStepOf] at own
        | stopReturns =>
          have alive : activity.isRunning = true := by
            rw [← Bool.not_eq_false, inBackground.isRunning_eq_false_iff, threads]
            simp
          simp [clearsFlag, alive]
        | breaks | drift | start | startBackground | cancel => rfl

end InBackground

/-- A loop that was just created has no runs. -/
theorem inBackground_of_create {store : Store} {interval : Quantity} {loop : PollLoop}
    (created : PollLoop.create store interval = .ok loop) (state : σ) :
    loop.store = store ∧ ({ loop, state } : Activity σ).InBackground := by
  unfold PollLoop.create checkInterval at created
  split at created
  · cases created
  · obtain rfl := Except.ok.inj created
    exact ⟨rfl, rfl, .inl ⟨rfl, rfl⟩⟩

variable (world : World σ)

/-! ### Stops -/

/-- A request to end that meets a thread is kept until its run leaves: the run makes the lookups
that its collection has left, renders nothing, and the thread ends. -/
theorem InBackground.request_kept (inBackground : activity.InBackground) {thread : PollThread}
    (alive : thread ∈ activity.threads) (later : List (Occurrence σ))
    (background : ∀ occurrence ∈ later, occurrence.isStart = false) :
    let ended := attend world (.thread thread.number) later activity.cancel
    lookups ended.2 ≤ thread.phase.left ∧ reports ended.2 = 0 ∧
      (∀ phase, ended.1.phase? (.thread thread.number) = some phase → phase.goesOn = true →
        ended.1.loop.cancelled = true) ∧
      (thread.phase.ahead < later.countP (Occurrence.isStepOf (.thread thread.number)) →
        ended.1.isAlive thread.number = false) := by
  intro ended
  have run : activity.cancel.phase? (.thread thread.number) = some thread.phase := by
    rcases inBackground.threads with ⟨none, -⟩ | ⟨number, phase, threads, -⟩
    · simp [none] at alive
    · obtain rfl : thread = ⟨number, phase⟩ := by simpa [threads] using alive
      exact phase?_of_threads threads
  obtain ⟨within, silent, last⟩ := winds_up world later run (fun _ => rfl)
    (inBackground.cancel.clearedBeside_eq_false world (.thread thread.number) later background)
  refine ⟨within, silent, fun phase run' => (last phase run').2, fun enough => ?_⟩
  rw [isAlive_eq]
  cases run' : ended.1.phase? (.thread thread.number) with
  | none => rfl
  | some phase =>
    have ahead := (last phase run').1
    omega

/-- A stop that has seen the thread end leaves the loop as it was created, but for what it counted
and collected. -/
theorem InBackground.finishStop_of_gone (inBackground : activity.InBackground)
    (gone : activity.isRunning = false) :
    let stopped := activity.finishStop
    stopped.loop.running = false ∧ stopped.isRunning = false ∧ stopped.loop.cancelled = false ∧
      stopped.loop.thread = none ∧ stopped.threads = [] := by
  intro stopped
  have none := inBackground.isRunning_eq_false_iff.mp gone
  have same : stopped = { activity with
      loop := { activity.loop with thread := Option.none, cancelled := false } } := by
    simp only [stopped, finishStop, gone, Bool.false_eq_true, if_false]
  rcases inBackground.threads with ⟨-, running⟩ | ⟨number, phase, threads, -⟩
  · rw [same]
    exact ⟨running, rfl, rfl, rfl, none⟩
  · rw [none] at threads
    cases threads

/-- A thread that is started while the flag is clear renders one report after the other. -/
theorem reports_of_startBackground (free : activity.loop.cancelled = false)
    (gone : activity.threads = []) (idle : activity.isRunning = false)
    (later : List (Occurrence σ))
    (unasked : ∀ occurrence ∈ later, occurrence.isCancel = false) (count : Nat)
    (enough : 2 * activity.loop.store.groups.length + 3 +
        count * (activity.loop.store.groups.length + 3) ≤
      later.countP (Occurrence.isStepOf (.thread activity.started))) :
    count < reports (attend world (.thread activity.started) later activity.startBackground).2 ∨
      Broken world (.thread activity.started) later activity.startBackground := by
  have begun : activity.startBackground = { activity with
      loop := { activity.loop with error := none, thread := some activity.started }
      threads := [⟨activity.started, .launched⟩]
      started := activity.started + 1 } := by
    simp only [startBackground, idle, gone, Bool.false_eq_true, if_false, List.nil_append]
  have run : activity.startBackground.phase? (.thread activity.started) = some .launched := by
    rw [begun]
    exact phase?_of_threads rfl
  refine reports_of_steps world later count run rfl ?_ unasked ?_
  · rw [begun]
    exact free
  · rw [begun]
    exact enough

/-- Whatever the caller does with a loop in the background, and however its requests alternate with
the steps of the threads, one thread at most is alive, and the loop refers to it. A stop that timed
out changes nothing, and its request is met by the run that it was made to, which makes the lookups
that its collection has left and renders nothing more. A stop that saw the thread end leaves the
loop stopped with its flag clear, and a thread that is started then renders report after report
until it is asked to end or a fault leaves it. -/
theorem background_lifecycle {store : Store} {initial : Quantity} {loop : PollLoop}
    (created : PollLoop.create store initial = .ok loop) (state : σ)
    (history : List (Occurrence σ))
    (background : ∀ occurrence ∈ history, occurrence.isStart = false) :
    let now := after world history { loop, state }
    let groups := store.targets.toNat + 3
    (now.threads.length ≤ 1 ∧
      ∀ thread ∈ now.threads, now.loop.thread = some thread.number) ∧
    (∀ thread ∈ now.threads, ∀ later : List (Occurrence σ),
      (∀ occurrence ∈ later, occurrence.isStart = false) →
      let ended := attend world (.thread thread.number) later now.cancel
      (ended.1.isRunning = true → ended.1.finishStop = ended.1) ∧
      lookups ended.2 ≤ thread.phase.left ∧ reports ended.2 = 0 ∧
      (∀ phase, ended.1.phase? (.thread thread.number) = some phase → phase.goesOn = true →
        ended.1.loop.cancelled = true) ∧
      (thread.phase.ahead < later.countP (Occurrence.isStepOf (.thread thread.number)) →
        ended.1.isAlive thread.number = false)) ∧
    ∀ meanwhile : List (Occurrence σ),
      (∀ occurrence ∈ meanwhile, occurrence.isStart = false) →
      let met := after world meanwhile now.cancel
      met.isRunning = false →
      let stopped := met.finishStop
      (stopped.loop.running = false ∧ stopped.isRunning = false ∧
        stopped.loop.cancelled = false ∧ stopped.loop.thread = none ∧ stopped.threads = []) ∧
      ∀ later : List (Occurrence σ), (∀ occurrence ∈ later, occurrence.isCancel = false) →
        ∀ count, 2 * groups + 3 + count * (groups + 3) ≤
          later.countP (Occurrence.isStepOf (.thread stopped.started)) →
        count < reports
            (attend world (.thread stopped.started) later stopped.startBackground).2 ∨
          Broken world (.thread stopped.started) later stopped.startBackground := by
  intro now groups
  obtain ⟨sameStore, fresh⟩ := inBackground_of_create created state
  have inBackground : now.InBackground := fresh.after world history background
  have tracked : now.loop.store.groups.length = groups := by
    rw [groups_after world history, sameStore, length_groups]
  refine ⟨?_, fun thread alive later onlyBackground => ?_, fun meanwhile onlyBackground => ?_⟩
  · rcases inBackground.threads with ⟨none, -⟩ | ⟨number, phase, threads, refers, -⟩
    · simp [none]
    · simpa [threads] using refers
  · intro ended
    exact ⟨fun running => by rw [finishStop, if_pos running],
      inBackground.request_kept world alive later onlyBackground⟩
  · intro met gone stopped
    have waited : met.InBackground := inBackground.cancel.after world meanwhile onlyBackground
    have settled := waited.finishStop_of_gone gone
    refine ⟨settled, fun later unasked count enough => ?_⟩
    obtain ⟨-, idle, free, -, none⟩ := settled
    have tracked' : stopped.loop.store.groups.length = groups := by
      have kept : met.loop.store.groups = now.loop.store.groups := groups_after world meanwhile _
      rw [← tracked, ← kept]
      exact congrArg List.length (groups_occur world met .stopReturns)
    refine reports_of_startBackground world free none idle later unasked count ?_
    rw [tracked']
    exact enough

/-- A loop over one core and one target, as it is created. -/
def newLoop : PollLoop := { store := .blank 1 1, interval := .whole 1 }

/-- A thread is started, and one lookup of its first collection is left. -/
def firstThread : List (Occurrence Nat) :=
  .startBackground :: List.replicate 4 (.step (.thread 0))

/-- A stop that was asked for before times out, and then the thread comes to its end. -/
def timesOut : List (Occurrence Nat) :=
  .stopReturns :: List.replicate 4 (.step (.thread 0))

/-- The loop after a second stop, which has seen the thread end. -/
def stoppedTwice : Activity Nat :=
  (after steady (timesOut ++ [.cancel])
    (after steady firstThread { loop := newLoop, state := 1 }).cancel).finishStop

theorem background_lifecycle_restart :
    let now := after steady firstThread { loop := newLoop, state := 1 }
    now.threads.length ≤ 1 ∧
      reports (attend steady (.thread 0) timesOut now.cancel).2 = 0 ∧
      lookups (attend steady (.thread 0) timesOut now.cancel).2 = 1 ∧
      stoppedTwice.loop.cancelled = false ∧ stoppedTwice.loop.running = false ∧
      reports (attend steady (.thread 1) (List.replicate 11 (.step (.thread 1)))
        stoppedTwice.startBackground).2 = 1 := by
  intro now
  have created : PollLoop.create (.blank 1 1) (.whole 1) = .ok newLoop := rfl
  obtain ⟨⟨alone, -⟩, stops, joined⟩ := background_lifecycle steady created 1 firstThread
    (by decide)
  obtain ⟨-, -, silent, -⟩ := stops ⟨0, .collecting .priming .first [.kthread] 0⟩
    (by decide +kernel) timesOut (by decide)
  obtain ⟨⟨stopped, -, free, -⟩, -⟩ := joined (timesOut ++ [.cancel]) (by decide)
    (by decide +kernel)
  exact ⟨alone, silent, by decide +kernel, free, stopped, by decide +kernel⟩

end Activity

end RedirectMonitor
