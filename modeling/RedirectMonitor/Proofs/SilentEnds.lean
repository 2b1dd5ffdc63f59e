/-
This file says when a background thread over the tool ends in silence, and what a live view shows of
it. An error that the loop keeps is that of a clock which failed; it is found by the next update of
the view, which asks to exit with its status.

The content is that a thread which has ended was asked to end or has left its error with the loop,
but for what is no error of the monitor: a key that cannot be written, a run of the tool that the
system refuses, output of a successful run that exceeds a limit of the reader of JSON, rows with a
rate that cannot be computed, and a wait that the system refuses. After such an end the loop keeps
nothing, and the view keeps showing what it shows.
-/

import RedirectMonitor.Bpftool.Output
import RedirectMonitor.LiveView
import RedirectMonitor.Proofs.Containment
import RedirectMonitor.Proofs.ThreadEnds

namespace RedirectMonitor

namespace LiveView

variable {σ : Type} {view : LiveView σ}

/-! ### Updates -/

/-- An update that finds an error asks to exit with its status. -/
theorem exit_update_of_error {error : MonitorError}
    (kept : view.activity.loop.error = some error) : view.update.exit = some error.status := by
  unfold update
  rw [kept]

theorem update_of_error_eq_none (none : view.activity.loop.error = none) :
    view.update.activity = view.activity ∧ view.update.exit = view.exit ∧
      view.update.queue = [] := by
  unfold update
  rw [none]
  dsimp only
  split
  · rename_i empty
    exact ⟨rfl, rfl, List.getLast?_eq_none_iff.mp empty⟩
  · exact ⟨rfl, rfl, rfl⟩

/-- Without an error and without new reports an update changes nothing. -/
theorem update_eq_self (none : view.activity.loop.error = none) (empty : view.queue = []) :
    view.update = view := by
  unfold update
  rw [none, empty]
  rfl

/-- Nothing reaches a view from an actor that has no run. -/
theorem step_eq_self {world : World σ} {actor : Activity.Actor}
    (gone : view.activity.phase? actor = none) : view.step world actor = view := by
  unfold step
  rw [Activity.step_of_none world gone]
  rfl

end LiveView

namespace Activity

open RedirectMonitor.PollLoop

variable {σ limit : Type} (tool : Bpftool.Tool limit) (run : List String → σ → Bpftool.Run × σ)
  (clock : σ → Except ClockFault Int × σ) (waits : Quantity → Option Refusal) (number : Nat)

/-! ### What leaves a run over the tool -/

/-- The tool cannot be called for a key, or the system refuses to run it, or a successful run
answers with output that exceeds a limit. -/
inductive LookupSilenced (map : String) (key : Int) (state : σ) : Prop
  | key {error : Bpftool.KeyError} (unwritten : Bpftool.command tool map key = .error error)
  | refused {words : List String} {refusal : Refusal}
      (command : Bpftool.command tool map key = .ok words)
      (refused : (run words state).1 = .refused refusal)
  | output {words : List String} {output errors : List UInt8} {fault : LookupFault}
      (command : Bpftool.command tool map key = .ok words)
      (ended : (run words state).1 = .ended 0 output errors)
      (exceeds : Bpftool.OutputExceeds output fault)

/-- The next step of a thread is silenced: a lookup is, or it computes rows of which one has a rate
that is no number, or it asks for a wait that is refused. -/
inductive Silenced (activity : Activity σ) : Prop
  | lookup {purpose : Purpose} {side : Side} {group : Group} {left : List Group} {failed : Nat}
      (collects : activity.phase? (.thread number) =
        some (.collecting purpose side (group :: left) failed))
      (silenced : LookupSilenced tool run group.address.map group.address.key activity.state)
  | rows {side : Side} {failed : Nat} {cause : RateError}
      (complete : activity.phase? (.thread number) = some (.collecting .cycle side [] failed))
      (free : activity.loop.cancelled = false)
      (unknown : (Report.rows activity.loop.store.current
        activity.loop.store.previous).outcome = .error cause)
  | wait {refusal : Refusal} (rested : activity.phase? (.thread number) = some .waiting)
      (free : activity.loop.cancelled = false)
      (refused : waits activity.loop.interval = some refusal)

/-- The next step of a thread looks up a group, finds a value for each core, and then cannot read
the clock. -/
def ClockFails (cause : ClockFault) (activity : Activity σ) : Prop :=
  ∃ purpose side group left failed values,
    activity.phase? (.thread number) = some (.collecting purpose side (group :: left) failed) ∧
      let answer := (World.ofTool tool run clock).lookup group.address.map group.address.key
        activity.state
      answer.1 = .ok values ∧ (values.length : Int) = activity.loop.store.cores ∧
        (clock answer.2).1 = .error cause

/-- The fault of a lookup over the tool is that of a key that cannot be written, of a run that is
refused, or of output that exceeds a limit. -/
theorem exists_lookup_fault_iff (map : String) (key : Int) (state : σ) :
    (∃ cause, ((World.ofTool tool run clock).lookup map key state).1 =
        .error (.fault cause)) ↔
      LookupSilenced tool run map key state := by
  rw [World.ofTool_lookup]
  unfold Bpftool.lookup
  cases command : Bpftool.command tool map key with
  | error error => exact iff_of_true ⟨_, rfl⟩ (.key command)
  | ok words =>
    simp only [Bpftool.interpret_fault_iff]
    constructor
    · rintro ⟨cause, ⟨output, errors, ended, exceeds⟩ | ⟨refusal, refused, -⟩⟩
      · exact .output command ended exceeds
      · exact .refused command refused
    · rintro (unwritten | ⟨command', refused⟩ | ⟨command', ended, exceeds⟩)
      · cases command.symm.trans unwritten
      · obtain rfl := Except.ok.inj (command.symm.trans command')
        exact ⟨_, .inr ⟨_, refused, rfl⟩⟩
      · obtain rfl := Except.ok.inj (command.symm.trans command')
        exact ⟨_, .inl ⟨_, _, ended, exceeds⟩⟩

/-- The errors of the monitor that leave a run over the tool are those of a clock that failed. -/
theorem threadFails_error_iff (error : MonitorError) (activity : Activity σ) :
    ThreadFails ((World.ofTool tool run clock).refusing waits) number (.error error) activity ↔
      ∃ cause, error = .clock cause ∧ ClockFails tool run clock number cause activity := by
  constructor
  · rintro ⟨phase, alive, fails⟩
    cases fails with
    | reading broken =>
      rcases (World.read_eq_broken_iff _ _ _ _ _ _).mp broken with
        ⟨cause, -, same⟩ | ⟨values, cause, answer, counted, clocked, same⟩
      · cases same
      · obtain rfl := Fault.error.inj same
        exact ⟨cause, rfl, _, _, _, _, _, values, alive, answer, counted, clocked⟩
  · rintro ⟨cause, rfl, purpose, side, group, left, failed, values, alive, answer, counted, clocked⟩
    exact ⟨_, alive, .reading ((World.read_eq_broken_iff _ _ _ _ _ _).mpr
      (.inr ⟨values, cause, answer, counted, clocked, rfl⟩))⟩

/-- A run over the tool is left with a fault that is no error of the monitor just where it is
silenced. -/
theorem exists_threadFails_iff (activity : Activity σ) :
    (∃ fault : Fault, fault.error? = none ∧
        ThreadFails ((World.ofTool tool run clock).refusing waits) number fault activity) ↔
      Silenced tool run waits number activity := by
  constructor
  · rintro ⟨fault, silent, phase, alive, fails⟩
    cases fails with
    | reading broken =>
      rcases (World.read_eq_broken_iff _ _ _ _ _ _).mp broken with
        ⟨cause, answer, -⟩ | ⟨values, cause, -, -, -, rfl⟩
      · exact .lookup alive
          ((exists_lookup_fault_iff tool run clock _ _ _).mp ⟨cause, answer⟩)
      · cases silent
    | rows free unknown => exact .rows alive free unknown
    | wait free refused => exact .wait alive free refused
  · rintro (⟨alive, silenced⟩ | ⟨alive, free, unknown⟩ | ⟨alive, free, refused⟩)
    · obtain ⟨cause, answer⟩ := (exists_lookup_fault_iff tool run clock _ _ _).mpr silenced
      exact ⟨.lookup cause, rfl, _, alive,
        .reading ((World.read_eq_broken_iff _ _ _ _ _ _).mpr (.inl ⟨cause, answer, rfl⟩))⟩
    · exact ⟨.rate _, rfl, _, alive, .rows free unknown⟩
    · exact ⟨.wait _, rfl, _, alive, .wait free refused⟩

/-! ### Threads that have ended -/

theorem Stands.gone_of_not_isAlive {activity : Activity σ} {number : Nat}
    {left : Option (Option Fault)} (stands : Stands number activity left)
    (gone : activity.isAlive number = false) :
    ∃ fault, left = some fault ∧ activity.loop.error = fault.bind Fault.error? := by
  cases stands with
  | alive threads => simp [isAlive, threads] at gone
  | gone threads error => exact ⟨_, rfl, error⟩

theorem StepsFrom.imp {world : World σ} {number : Nat} {begun : Activity σ}
    {later : List (Occurrence σ)} {kind other : Activity σ → Prop}
    (steps : StepsFrom world number begun later kind)
    (implies : ∀ activity, kind activity → other activity) :
    StepsFrom world number begun later other := by
  obtain ⟨before, rest, same, holds⟩ := steps
  exact ⟨before, rest, same, implies _ holds⟩

/-- However a loop was used before, whatever the tool, the clock and everyone else do while a
background thread is alive, and whatever waits the system refuses: when the thread has ended, the
loop keeps an error just where the clock failed at one of its steps, and then the next update of a
live view asks to exit with its status. Else an end was asked for, before or while the thread was
alive, or one of its steps was silenced. In that case the loop keeps nothing, and after one update
the view stays as it is. -/
theorem ended_thread_asked_or_kept_or_silenced (loop : PollLoop) (state : σ)
    (history later : List (Occurrence σ))
    (unbroken : ∀ occurrence ∈ later, occurrence.isBreak = false) :
    let world := (World.ofTool tool run clock).refusing waits
    let start := after world history { loop, state }
    let begun := start.startBackground
    let now := after world later begun
    start.isRunning = false → now.started = start.started + 1 →
    now.isAlive start.started = false →
      (∀ error, now.loop.error = some error ↔ ∃ cause, error = .clock cause ∧
        StepsFrom world start.started begun later
          (ClockFails tool run clock start.started cause)) ∧
      (now.loop.error = none →
        Asked begun later ∨
          StepsFrom world start.started begun later (Silenced tool run waits start.started)) ∧
      (StepsFrom world start.started begun later (Silenced tool run waits start.started) →
        now.loop.error = none) ∧
      ∀ view : LiveView σ, view.activity = now →
        (∀ error, now.loop.error = some error → view.update.exit = some error.status) ∧
        (now.loop.error = none →
          view.update.exit = view.exit ∧ view.update.update = view.update ∧
            view.update.step world (.thread start.started) = view.update) := by
  intro world start begun now idle noneNew gone
  have refers : start.RefersToAlive := (refersToAlive_of_fresh loop state).after world history
  obtain ⟨left, account⟩ := threadAccount_after world refers idle later unbroken noneNew
  obtain ⟨fault, known, kept⟩ := account.stands.gone_of_not_isAlive gone
  have fails (other : Fault) : fault = some other ↔
      StepsFrom world start.started begun later (ThreadFails world start.started other) := by
    rw [← account.fails, known, Option.some.injEq]
  have silent (steps : StepsFrom world start.started begun later
      (Silenced tool run waits start.started)) : now.loop.error = none := by
    obtain ⟨before, rest, same, silenced⟩ := steps
    obtain ⟨other, unkept, failed⟩ :=
      (exists_threadFails_iff tool run clock waits _ _).mpr silenced
    rw [kept, (fails other).mpr ⟨before, rest, same, failed⟩]
    exact unkept
  refine ⟨fun error => ?_, fun none => ?_, silent, fun view same => ⟨fun error keeps => ?_,
    fun none => ?_⟩⟩
  · have asError : now.loop.error = some error ↔ fault = some (.error error) := by
      rw [kept]
      cases fault with
      | none => simp
      | some other => cases other <;> simp [Fault.error?]
    rw [asError, fails]
    constructor
    · rintro ⟨before, rest, same, failed⟩
      obtain ⟨cause, rfl, clocked⟩ := (threadFails_error_iff tool run clock waits _ _ _).mp failed
      exact ⟨cause, rfl, before, rest, same, clocked⟩
    · rintro ⟨cause, rfl, steps⟩
      exact steps.imp fun activity clocked =>
        (threadFails_error_iff tool run clock waits _ _ _).mpr ⟨cause, rfl, clocked⟩
  · cases fault with
    | none => exact .inl (account.asked known)
    | some other =>
      have unkept : other.error? = Option.none := kept.symm.trans none
      exact .inr (((fails other).mp rfl).imp fun activity failed =>
        (exists_threadFails_iff tool run clock waits _ _).mp ⟨other, unkept, failed⟩)
  · exact LiveView.exit_update_of_error (same ▸ keeps)
  · rw [← same] at none
    obtain ⟨activity, exit, queue⟩ := LiveView.update_of_error_eq_none none
    refine ⟨exit, LiveView.update_eq_self (activity ▸ none) queue, LiveView.step_eq_self ?_⟩
    rw [activity, same, ← Option.not_isSome_iff_eq_none, ← isAlive_eq]
    exact Bool.eq_false_iff.mp gone

/-- A tool that prints nothing but opening brackets, more of them than may be nested. -/
def bracketing (_ : List String) (state : Unit) : Bpftool.Run × Unit :=
  (.ended 0 (List.replicate 991 0x5b) [], state)

/-- A clock that stands still. -/
def still (state : Unit) : Except ClockFault Int × Unit := (.ok 1, state)

/-- A tool that prints the same counters of one CPU under every key. -/
def repeating (_ : List String) (state : Unit) : Bpftool.Run × Unit :=
  (.ended 0 (Utf8.encode (Bpftool.outputText [0, 0, 0, 0] [⟨5, 1⟩])) [], state)

/-- A loop whose reports are three centuries apart. -/
def patientLoop : PollLoop := { newLoop with interval := .whole 9999999999 }

/-- Nothing happens but so many steps of the first thread. -/
def ownSteps (count : Nat) : List (Occurrence Unit) := List.replicate count (.step (.thread 0))

theorem unbroken_ownSteps (count : Nat) :
    ∀ occurrence ∈ ownSteps count, occurrence.isBreak = false := by
  intro occurrence member
  rw [List.eq_of_mem_replicate member]
  rfl

theorem not_asked_ownSteps {begun : Activity Unit} (free : begun.loop.cancelled = false)
    (count : Nat) : ¬Asked begun (ownSteps count) := by
  rintro (pending | ⟨occurrence, member, isCancel⟩)
  · rw [free] at pending
    cases pending
  · rw [List.eq_of_mem_replicate member] at isCancel
    cases isCancel

theorem ended_thread_silenced_by_brackets :
    let world := (World.ofTool World.plainTool bracketing still).refusing fun _ => none
    let start := after world [] { loop := newLoop, state := () }
    let begun := start.startBackground
    let now := after world (ownSteps 4) begun
    let world' := (World.ofTool World.plainTool repeating still).refusing Refusal.ofWait?
    let start' := after world' [] { loop := patientLoop, state := () }
    let begun' := start'.startBackground
    let now' := after world' (ownSteps 15) begun'
    (now.isAlive start.started = false ∧ now.loop.error = none ∧ ¬Asked begun (ownSteps 4) ∧
      StepsFrom world start.started begun (ownSteps 4)
        (Silenced World.plainTool bracketing (fun _ => none) start.started) ∧
      ∀ view : LiveView Unit, view.activity = now →
        view.update.exit = view.exit ∧ view.update.update = view.update) ∧
    now'.isAlive start'.started = false ∧ now'.loop.cycles = 1 ∧ now'.loop.error = none ∧
      StepsFrom world' start'.started begun' (ownSteps 15)
        (Silenced World.plainTool repeating Refusal.ofWait? start'.started) := by
  intro world start begun now world' start' begun' now'
  have gone : now.isAlive start.started = false := by decide +kernel
  have gone' : now'.isAlive start'.started = false := by decide +kernel
  have unasked : ¬Asked begun (ownSteps 4) := not_asked_ownSteps rfl 4
  have unasked' : ¬Asked begun' (ownSteps 15) := not_asked_ownSteps rfl 15
  obtain ⟨-, causes, -, shows⟩ := ended_thread_asked_or_kept_or_silenced World.plainTool bracketing
    still (fun _ => none) newLoop () [] (ownSteps 4) (unbroken_ownSteps 4) rfl (by decide +kernel)
    gone
  obtain ⟨-, causes', -⟩ := ended_thread_asked_or_kept_or_silenced World.plainTool repeating still
    Refusal.ofWait? patientLoop () [] (ownSteps 15) (unbroken_ownSteps 15) rfl (by decide +kernel)
    gone'
  refine ⟨⟨gone, by decide +kernel, unasked, (causes (by decide +kernel)).resolve_left unasked,
    fun view same => ?_⟩, gone', by decide +kernel, by decide +kernel,
    (causes' (by decide +kernel)).resolve_left unasked'⟩
  obtain ⟨exit, stays, -⟩ := (shows view same).2 (by decide +kernel)
  exact ⟨exit, stays⟩

end Activity

end RedirectMonitor
