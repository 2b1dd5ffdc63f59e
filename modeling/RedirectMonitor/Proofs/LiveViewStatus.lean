/-
This file says with which status the program ends that has shown a live view. The thread behind the
view takes its steps while updates come and go, and at some moment the view is quit: the run is asked
to end, and when the stop has returned an exit with success is asked for.

The content is that the error which ended the thread stays with the loop, but becomes the status of
the program only where an update has found it and the view was not quit after that. Quitting asks for
success whatever the loop keeps, so the error of a thread that ended before no update looked, or was
seen before the view is quit, is lost.
-/

import Mathlib.Data.List.Induction
import RedirectMonitor.LiveView
import RedirectMonitor.Proofs.WholeReports
import RedirectMonitor.Proofs.Occurrences

namespace RedirectMonitor

namespace LiveView

open RedirectMonitor.PollLoop RedirectMonitor.Activity

variable {σ : Type} {world : World σ} {view : LiveView σ}

/-! ### What can happen to a view -/

/-- What can happen to a view that has begun. -/
inductive Happening (σ : Type) where
  /-- Someone makes a step of a run behind the view. -/
  | step (actor : Actor)
  /-- A fault leaves the collection at hand of a run, or the rendering of its report. -/
  | breaks (actor : Actor) (fault : Fault)
  /-- The state of the world changes. -/
  | drift (state : σ)
  | update
  /-- The run is asked to end, with which `quit` and `stop` begin. -/
  | asks
  /-- Quitting has waited for the run, and asks to exit. -/
  | quits
  /-- Closing the view has waited for the run. -/
  | closes

def Happening.isQuit : Happening σ → Bool
  | .quits => true
  | .step _ | .breaks .. | .drift _ | .update | .asks | .closes => false

/-- A view after something has happened to it. -/
def happen (world : World σ) (view : LiveView σ) : Happening σ → LiveView σ
  | .step actor => view.step world actor
  | .breaks actor fault => { view with activity := view.activity.breakRun actor fault }
  | .drift state => { view with activity := { view.activity with state } }
  | .update => view.update
  | .asks => view.askEnd
  | .quits => view.leave
  | .closes => view.awaitEnd

/-- A view after all that happened to it. -/
def follow (world : World σ) (happenings : List (Happening σ)) (view : LiveView σ) : LiveView σ :=
  happenings.foldl (happen world) view

theorem follow_concat (happenings : List (Happening σ)) (happening : Happening σ) :
    view.follow world (happenings ++ [happening]) =
      (view.follow world happenings).happen world happening :=
  List.foldl_concat ..

/-! ### What a view keeps -/

theorem receive_keeps (view : LiveView σ) (event : Event) :
    (view.receive event).activity = view.activity ∧ (view.receive event).exit = view.exit := by
  cases event <;> exact ⟨rfl, rfl⟩

/-- A step behind the view does to the activity what it does, and asks for no exit. -/
theorem step_keeps (world : World σ) (actor : Actor) (view : LiveView σ) :
    (view.step world actor).activity = (view.activity.step world actor).1 ∧
      (view.step world actor).exit = view.exit := by
  have received (events : List Event) (other : LiveView σ) :
      (events.foldl receive other).activity = other.activity ∧
        (events.foldl receive other).exit = other.exit := by
    induction events generalizing other with
    | nil => exact ⟨rfl, rfl⟩
    | cons event rest inductionHypothesis =>
      obtain ⟨activity, exit⟩ := inductionHypothesis (other.receive event)
      obtain ⟨activity', exit'⟩ := receive_keeps other event
      exact ⟨activity.trans activity', exit.trans exit'⟩
  exact received _ _

/-- An update looks for an error, and asks to exit with its status if there is one. -/
theorem update_keeps (view : LiveView σ) :
    view.update.activity = view.activity ∧
      view.update.exit = match view.activity.loop.error with
        | some error => some error.status
        | none => view.exit := by
  unfold update
  cases view.activity.loop.error with
  | some error => exact ⟨rfl, rfl⟩
  | none =>
    dsimp only
    split <;> exact ⟨rfl, rfl⟩

/-- The exit that a view asks for after something has happened to it. -/
theorem exit_happen (world : World σ) (view : LiveView σ) (happening : Happening σ) :
    (view.happen world happening).exit = match happening with
      | .update => match view.activity.loop.error with
        | some error => some error.status
        | none => view.exit
      | .quits => some .success
      | _ => view.exit := by
  cases happening with
  | step actor => exact (step_keeps world actor view).2
  | update => exact (update_keeps view).2
  | breaks | drift | asks | quits | closes => rfl

/-- The caller has no run, there is one thread at most, and the loop keeps no error while it is
alive. -/
structure Lone (activity : Activity σ) : Prop where
  idle : activity.call = none
  threads : activity.threads = [] ∨
    activity.loop.error = none ∧ ∃ number phase, activity.threads = [⟨number, phase⟩]

theorem lone_mount (loop : PollLoop) (state : σ) : Lone (ofLoop loop state).mount.activity := by
  have begins : (ofLoop loop state).mount.activity =
      { loop := { loop with error := none, thread := some 0 }, state,
        threads := [⟨0, .launched⟩], started := 1 } := by
    have idle : ({ loop, state } : Activity σ).isRunning = false := by
      simp only [isRunning, isAlive, List.any_nil]
      split <;> rfl
    show ({ loop, state } : Activity σ).startBackground = _
    unfold startBackground
    rw [idle]
    rfl
  rw [begins]
  exact ⟨rfl, .inr ⟨rfl, 0, .launched, rfl⟩⟩

/-- A step of an activity with one thread at most is one of its thread; it changes the error that
the loop keeps only where the thread ends with it. -/
theorem Lone.step {activity : Activity σ} (lone : Lone activity) (world : World σ) (actor : Actor) :
    Lone (activity.step world actor).1 ∧
      (activity.loop.error ≠ none →
        (activity.step world actor).1.loop.error = activity.loop.error) := by
  have alone {number : Nat} {phase : Phase} (run : activity.phase? (.thread number) = some phase) :
      activity.loop.error = none ∧ activity.threads = [⟨number, phase⟩] := by
    obtain none | ⟨error, number', phase', threads⟩ := lone.threads
    · simp [phase?, none] at run
    · obtain ⟨rfl, rfl⟩ : number' = number ∧ phase' = phase := by
        simpa [phase?, threads] using run
      exact ⟨error, threads⟩
  cases stepCase world activity actor with
  | absent none same =>
    rw [same]
    exact ⟨lone, fun _ => rfl⟩
  | returns run same => exact absurd (lone.idle.symm.trans run) (by simp)
  | ends run same =>
    obtain ⟨error, threads⟩ := alone run
    rw [same]
    exact ⟨⟨lone.idle, .inl (by simp [threads])⟩, fun kept => absurd error kept⟩
  | goesOn run passes same =>
    cases actor with
    | caller => exact absurd (lone.idle.symm.trans run) (by simp)
    | thread number =>
      obtain ⟨error, threads⟩ := alone run
      rw [same]
      exact ⟨⟨lone.idle, .inr ⟨passes.error.trans error, number, _, by simp [setPhase, threads]; rfl⟩⟩,
        fun kept => absurd error kept⟩

/-- Nothing that happens to a view makes a second thread or takes away an error. -/
theorem Lone.happen (lone : Lone view.activity) (world : World σ) (happening : Happening σ) :
    Lone (view.happen world happening).activity ∧
      (view.activity.loop.error ≠ none →
        (view.happen world happening).activity.loop.error = view.activity.loop.error) := by
  cases happening with
  | step actor =>
    show Lone (view.step world actor).activity ∧ (_ → (view.step world actor).activity.loop.error = _)
    rw [(step_keeps world actor view).1]
    exact lone.step world actor
  | update =>
    show Lone view.update.activity ∧ (_ → view.update.activity.loop.error = _)
    rw [(update_keeps view).1]
    exact ⟨lone, fun _ => rfl⟩
  | breaks actor fault =>
    refine ⟨?_, fun _ => congrArg PollLoop.error (breakRun_loop view.activity actor fault)⟩
    show Lone (view.activity.breakRun actor fault)
    unfold breakRun
    split
    · rename_i run
      cases actor with
      | caller => exact absurd (lone.idle.symm.trans run) (by simp)
      | thread number =>
        refine ⟨lone.idle, lone.threads.imp (fun none => ?_) ?_⟩
        · simp [setPhase, none]
        · rintro ⟨error, number', phase, threads⟩
          refine ⟨error, number', ?_⟩
          by_cases own : number' = number
          · exact ⟨.leaving (some fault), by simp [setPhase, threads, own]⟩
          · exact ⟨phase, by simp [setPhase, threads, own]⟩
    · exact lone
  | drift state => exact ⟨⟨lone.idle, lone.threads⟩, fun _ => rfl⟩
  | asks => exact ⟨⟨lone.idle, lone.threads⟩, fun _ => rfl⟩
  | quits | closes =>
    have kept : Lone view.activity.finishStop ∧
        view.activity.finishStop.loop.error = view.activity.loop.error := by
      unfold finishStop
      split
      · exact ⟨lone, rfl⟩
      · exact ⟨⟨lone.idle, lone.threads⟩, rfl⟩
    exact ⟨kept.1, fun _ => kept.2⟩

/-! ### Which error becomes the status -/

/-- An update has found the loop with an error, and the view was not quit after that. -/
def Noticed (world : World σ) (view : LiveView σ) (happenings : List (Happening σ)) : Prop :=
  ∃ before rest, happenings = before ++ .update :: rest ∧
    (view.follow world before).activity.loop.error ≠ none ∧
    ∀ happening ∈ rest, happening.isQuit = false

theorem noticed_concat {happenings : List (Happening σ)} {happening : Happening σ} :
    Noticed world view (happenings ++ [happening]) ↔
      (Noticed world view happenings ∧ happening.isQuit = false) ∨
        happening matches .update ∧
          (view.follow world happenings).activity.loop.error ≠ none := by
  constructor
  · rintro ⟨before, rest, same, found, unquit⟩
    rcases append_singleton_eq_append_cons_iff.mp same with ⟨-, rfl, rfl⟩ | ⟨rest, rfl, rfl⟩
    · exact .inr ⟨rfl, found⟩
    · obtain ⟨unquit, last⟩ := List.forall_mem_append.mp unquit
      exact .inl ⟨⟨before, rest, rfl, found, unquit⟩, last _ (List.mem_singleton_self _)⟩
  · rintro (⟨⟨before, rest, rfl, found, unquit⟩, last⟩ | ⟨isUpdate, found⟩)
    · refine ⟨before, rest ++ [happening], by simp, found, List.forall_mem_append.mpr ⟨unquit, ?_⟩⟩
      simpa using last
    · cases happening with
      | update => exact ⟨happenings, [], rfl, found, fun _ member => absurd member List.not_mem_nil⟩
      | step | breaks | drift | asks | quits | closes => cases isUpdate

/-- The account of a view: it exits as it is asked to, with the status of an error that was noticed
and with success otherwise. -/
structure ViewAccount (world : World σ) (begun : LiveView σ) (happenings : List (Happening σ))
    (view : LiveView σ) : Prop where
  lone : Lone view.activity
  noticed : Noticed world begun happenings →
    ∃ error, view.activity.loop.error = some error ∧ view.exit = some error.status
  unnoticed : ¬Noticed world begun happenings → view.exit.getD .success = .success

/-- However what happens to a view alternates, it has its account. -/
theorem viewAccount_follow (world : World σ) (loop : PollLoop) (state : σ)
    (happenings : List (Happening σ)) :
    ViewAccount world (ofLoop loop state).mount happenings
      ((ofLoop loop state).mount.follow world happenings) := by
  set begun := (ofLoop loop state).mount with mounted
  induction happenings using List.reverseRecOn with
  | nil =>
    refine ⟨lone_mount loop state, ?_, fun _ => rfl⟩
    rintro ⟨before, rest, same, -⟩
    simp at same
  | append_singleton earlier happening inductionHypothesis =>
    obtain ⟨lone, noticed, unnoticed⟩ := inductionHypothesis
    set view := begun.follow world earlier with current
    obtain ⟨lone', keeps⟩ := lone.happen world happening
    rw [follow_concat, ← current]
    refine ⟨lone', fun seen => ?_, fun unseen => ?_⟩
    · rw [noticed_concat, ← current] at seen
      obtain ⟨seen, unquit⟩ | ⟨isUpdate, found⟩ := seen
      · obtain ⟨error, kept, exit⟩ := noticed seen
        refine ⟨error, (keeps (by simp [kept])).trans kept, ?_⟩
        rw [exit_happen]
        cases happening with
        | update => simp [kept]
        | quits => cases unquit
        | step | breaks | drift | asks | closes => exact exit
      · obtain ⟨error, kept⟩ := Option.ne_none_iff_exists'.mp found
        refine ⟨error, (keeps found).trans kept, ?_⟩
        rw [exit_happen]
        cases happening with
        | update => simp [kept]
        | step | breaks | drift | asks | quits | closes => cases isUpdate
    · rw [noticed_concat, ← current, not_or, not_and, not_and] at unseen
      rw [exit_happen]
      obtain ⟨before, found⟩ := unseen
      cases happening with
      | update =>
        have nothing : view.activity.loop.error = none := not_not.mp (found rfl)
        rw [nothing]
        exact unnoticed fun seen => before seen rfl
      | quits => rfl
      | step | breaks | drift | asks | closes => exact unnoticed fun seen => before seen rfl

end LiveView

namespace Monitor

open RedirectMonitor.LiveView

variable {σ : Type}

theorem code_status_ne_zero (error : MonitorError) : error.status.code ≠ 0 := by
  cases error with
  | unread | clock | settings | maps | memory => exact Nat.succ_ne_zero _

/-- A call that opens the live view returns with the status that the view asks for. -/
theorem run_liveView (environment : Environment σ) {settings : Settings}
    {tool : Bpftool.Tool Quantity} {store : Store} (named : Monitor.tool settings = .ok tool)
    (prepared : (prepare environment settings tool).outcome = .ok store)
    (live : settings.liveView = true) (steps : Nat) (state : σ) :
    (run environment settings steps state).ending =
      .returned (environment.liveViewStatus.getD 0) := by
  simp only [run, named, prepared, live, if_true]

/-- Where the status of the live view is that of the last exit that it was asked for, a call returns
with success if no error ended the thread behind the view. If one did, the call returns with its
status just where an update has found the error and the view was not quit after that, and else with
success as well. -/
theorem live_view_returns_noticed_errors (environment : Environment σ) {settings : Settings}
    {tool : Bpftool.Tool Quantity} {store : Store} (named : Monitor.tool settings = .ok tool)
    (prepared : (prepare environment settings tool).outcome = .ok store)
    (live : settings.liveView = true) (steps : Nat) (loop : PollLoop) (state : σ)
    (happenings : List (Happening σ)) :
    let world := (surroundings environment tool).world
    let begun := (LiveView.ofLoop loop state).mount
    let view := begun.follow world happenings
    let ending := (run environment settings steps state).ending
    environment.liveViewStatus = view.exit.map (fun status => (status.code : Int)) →
      (view.activity.loop.error = none → ending = .returned 0) ∧
      ∀ error, view.activity.loop.error = some error →
        (ending = .returned error.status.code ↔ Noticed world begun happenings) ∧
        (¬Noticed world begun happenings → ending = .returned 0) := by
  intro world begun view ending records
  obtain ⟨-, noticed, unnoticed⟩ := viewAccount_follow world loop state happenings
  have returned : ending = .returned view.status.code := by
    have ends := run_liveView environment named prepared live steps state
    rw [records] at ends
    rw [show ending = _ from ends]
    cases exit : view.exit <;> simp [LiveView.status, exit, ExitStatus.code]
  have success (unseen : ¬Noticed world begun happenings) : ending = .returned 0 := by
    rw [returned, LiveView.status, unnoticed unseen]
    rfl
  refine ⟨fun nothing => success fun seen => ?_, fun error kept => ⟨⟨fun same => ?_, fun seen => ?_⟩,
    success⟩⟩
  · obtain ⟨error, kept, -⟩ := noticed seen
    rw [nothing] at kept
    cases kept
  · by_contra unseen
    have differs := code_status_ne_zero error
    rw [success unseen] at same
    exact differs (by exact_mod_cast (Ending.returned.inj same).symm)
  · obtain ⟨error', kept', exit⟩ := noticed seen
    obtain rfl := Option.some.inj (kept'.symm.trans kept)
    rw [returned, LiveView.status, exit]
    rfl

/-- A system without a clock, whose live view ends with success. -/
def clockless : Environment Nat :=
  { busy with clock := fun state => (.error ⟨"no clock"⟩, state), liveViewStatus := some 0 }

/-- The thread ends before any update, and then the view is quit. -/
def quitAtOnce : List (Happening Nat) :=
  List.replicate 4 (.step (.thread 0)) ++ [.asks, .quits, .closes]

theorem live_view_loses_unnoticed_error :
    let world := (surroundings clockless busyRun.1).world
    let begun := (LiveView.ofLoop busyRun.2.loop 0).mount
    (begun.follow world quitAtOnce).activity.loop.error = some (.clock ⟨"no clock"⟩) ∧
      ¬Noticed world begun quitAtOnce ∧
      (run clockless { targets := .whole 1, liveView := true } 0 0).ending = .returned 0 := by
  intro world begun
  have named : Monitor.tool { targets := .whole 1, liveView := true } = .ok busyRun.1 := by rfl
  have prepared : (prepare clockless { targets := .whole 1, liveView := true }
      busyRun.1).outcome = .ok (.blank 1 1) := by
    rfl
  have unseen : ¬Noticed world begun quitAtOnce := by
    rintro ⟨before, rest, same, -⟩
    have update : Happening.update ∈ quitAtOnce := by simp [same]
    simp [quitAtOnce] at update
  have account := live_view_returns_noticed_errors clockless named prepared rfl 0 busyRun.2.loop 0
    quitAtOnce (by decide +kernel)
  exact ⟨by decide +kernel, unseen, (account.2 (.clock ⟨"no clock"⟩) (by decide +kernel)).2 unseen⟩

end Monitor

end RedirectMonitor
