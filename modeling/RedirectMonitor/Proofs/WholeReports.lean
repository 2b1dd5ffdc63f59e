/-
This file says what a call of the program writes to the standard output while it polls. A run
writes nothing but the block of a report, and it writes that with the step that completes the
report, after the rows are known; every other step, a request to end and a fault write nothing.

The content is that the calls on the standard output are one whole block for each completed
report, in order, whatever the tool, the clock and the interrupts do and whatever fault leaves a
collection or the rows. So the output is cut after each empty line into exactly these blocks.
-/

import RedirectMonitor.Bpftool.Output
import RedirectMonitor.Monitor
import RedirectMonitor.Proofs.Lifecycle
import RedirectMonitor.Proofs.ReportText

namespace RedirectMonitor

namespace PollLoop

/-! ### What a step writes -/

/-- The calls that an event makes on the standard output. -/
def Event.calls : Event → List Report.StreamCall
  | .reported view => Report.blockCalls view.rows
  | .noted _ | .looked _ | .rests _ => []

/-- The calls that events make on the standard output, one after the other. -/
def callsOf (events : List Event) : List Report.StreamCall := events.flatMap Event.calls

theorem callsOf_append (events more : List Event) :
    callsOf (events ++ more) = callsOf events ++ callsOf more :=
  List.flatMap_append

theorem callsOf_eq (events : List Event) :
    callsOf events =
      (events.filterMap Event.view?).flatMap fun view => Report.blockCalls view.rows := by
  induction events with
  | nil => rfl
  | cons event rest inductionHypothesis =>
    rw [callsOf, List.flatMap_cons, ← callsOf, inductionHypothesis]
    cases event <;> rfl

theorem reports_eq_length (events : List Event) :
    reports events = (events.filterMap Event.view?).length := by
  rw [reports, List.countP_eq_length_filter, List.length_filterMap_eq_countP]
  rw [List.countP_eq_length_filter]
  congr 2
  funext event
  cases event <;> rfl

/-- The two snapshots of the report that was completed between two moments, if one was. -/
def completed (before after : PollLoop) : List (Snapshot × Snapshot) :=
  if before.cycles < after.cycles then [(before.store.current, before.store.previous)] else []

theorem completed_of_cycles_eq {before after : PollLoop} (same : after.cycles = before.cycles) :
    completed before after = [] :=
  if_neg (by omega)

theorem Passes.shown_le {loop loop' : PollLoop} {phase phase' : Phase} {made shown : Nat}
    (passes : Passes loop phase phase' loop' made shown) : shown ≤ 1 := by
  cases passes <;> decide

variable {σ : Type}

/-- A step writes the block of the report that it completes, and nothing where it completes none. -/
theorem callsOf_step (world : World σ) {phase : Phase} (loop : PollLoop) (state : σ)
    (underWay : ∀ fault, phase ≠ .over fault) :
    let next := step world phase loop state
    ∃ shown, List.Forall₂ Report.GivenBy (completed loop next.loop) shown ∧
      callsOf next.events = shown.flatMap Report.blockCalls ∧
      next.loop.cycles = loop.cycles + (completed loop next.loop).length := by
  intro next
  have passes := passes_step world loop state underWay
  have cycles : next.loop.cycles = loop.cycles + reports next.events := passes.cycles_eq
  have atMostOne : reports next.events ≤ 1 := passes.shown_le
  rw [reports_eq_length] at cycles atMostOne
  rw [callsOf_eq]
  rcases views : next.events.filterMap Event.view? with _ | ⟨view, _ | ⟨more, rest⟩⟩
  · rw [views] at cycles
    rw [completed_of_cycles_eq cycles]
    exact ⟨[], .nil, rfl, cycles⟩
  · obtain ⟨-, -, current, previous, outcome⟩ :=
      view_of_step world phase loop state view (views ▸ List.mem_singleton_self view)
    rw [views] at cycles
    have completes : completed loop next.loop = [(loop.store.current, loop.store.previous)] :=
      if_pos (cycles ▸ Nat.lt_succ_self _)
    rw [current, previous] at outcome
    rw [completes]
    exact ⟨[view.rows], .cons outcome .nil, rfl, cycles⟩
  · rw [views] at atMostOne
    simp at atMostOne

end PollLoop

namespace Activity

open RedirectMonitor.PollLoop

variable {σ : Type}

/-! ### What a run writes -/

/-- The two snapshots of each report that is completed in turns, as the store holds them then. -/
def completedIn (world : World σ) : List (Turn σ) → Activity σ → List (Snapshot × Snapshot)
  | [], _ => []
  | turn :: rest, activity =>
    if activity.isUnderWay then
      let next := (activity.turn world turn).1
      completed activity.loop next.loop ++ completedIn world rest next
    else []

/-- A turn writes the block of the report that it completes. Someone else's request, a change of the
world and a fault write nothing. -/
theorem callsOf_turn (world : World σ) {activity : Activity σ}
    (underWay : activity.isUnderWay = true) (turn : Turn σ) :
    let next := activity.turn world turn
    ∃ shown, List.Forall₂ Report.GivenBy (completed activity.loop next.1.loop) shown ∧
      callsOf next.2 = shown.flatMap Report.blockCalls ∧
      next.1.loop.cycles = activity.loop.cycles + (completed activity.loop next.1.loop).length := by
  intro next
  obtain ⟨phase, call, notOver⟩ := (isUnderWay_iff activity).mp underWay
  obtain ⟨phase', -, ⟨isStep, -⟩ | ⟨-, silent, -, flag, kept, -⟩⟩ := turn_cases world call notOver turn
  · cases turn with
    | step =>
      have same : next = _ := turn_step world call notOver
      rw [same]
      exact callsOf_step world activity.loop activity.state notOver
    | cancel | drift | breaks => cases isStep
  · have cycles : next.1.loop.cycles = activity.loop.cycles := by rw [kept]
    rw [completed_of_cycles_eq cycles, silent]
    exact ⟨[], .nil, rfl, cycles⟩

/-- However a run is played, it writes whole reports, one for each that it completes. -/
theorem writes_play (world : World σ) (turns : List (Turn σ)) (activity : Activity σ) :
    let played := play world turns activity
    Report.Writes (callsOf played.2) (completedIn world turns activity) ∧
      played.1.loop.cycles =
        activity.loop.cycles + (completedIn world turns activity).length := by
  have parts : ∃ shown, List.Forall₂ Report.GivenBy (completedIn world turns activity) shown ∧
      callsOf (play world turns activity).2 = shown.flatMap Report.blockCalls ∧
      (play world turns activity).1.loop.cycles =
        activity.loop.cycles + (completedIn world turns activity).length := by
    induction turns generalizing activity with
    | nil => exact ⟨[], .nil, rfl, rfl⟩
    | cons turn rest inductionHypothesis =>
      rw [play, completedIn]
      cases underWay : activity.isUnderWay with
      | false => exact ⟨[], .nil, rfl, rfl⟩
      | true =>
        obtain ⟨shown, given, calls, cycles⟩ := callsOf_turn world underWay turn
        obtain ⟨later, given', calls', cycles'⟩ :=
          inductionHypothesis (activity.turn world turn).1
        simp only [if_true]
        refine ⟨shown ++ later, List.rel_append given given', ?_, ?_⟩
        · rw [callsOf_append, calls, calls', List.flatMap_append]
        · rw [cycles', cycles, List.length_append, Nat.add_assoc]
  obtain ⟨shown, given, calls, cycles⟩ := parts
  intro played
  rw [calls]
  exact ⟨Report.writes_of_forall₂ given, cycles⟩

end Activity

namespace Monitor

open RedirectMonitor.PollLoop RedirectMonitor.Activity

variable {σ : Type}

/-! ### What a call writes -/

theorem outputOf_eq (events : List Event) : outputOf events = Report.streamText (callsOf events) := by
  induction events with
  | nil => rfl
  | cons event rest inductionHypothesis =>
    rw [outputOf, List.flatMap_cons, ← outputOf, inductionHypothesis]
    show _ = Report.streamText (event.calls ++ callsOf rest)
    rw [Report.streamText_append]
    cases event with
    | reported view => rfl
    | noted | looked | rests => rfl

/-- What a call polls with, the tool and the run as it begins; none where the call ends before. -/
def begun? (environment : Environment σ) (settings : Settings) (state : σ) :
    Option (Bpftool.Tool Quantity × Activity σ) := do
  let tool ← (tool settings).toOption
  let store ← (prepare environment settings tool).outcome.toOption
  let loop ← (PollLoop.create store settings.interval).toOption
  pure (tool, { loop, state, call := some .launched })

/-- A call polls where it has its tool, its store and an interval that its loop takes. -/
theorem begun?_eq_some_iff {environment : Environment σ} {settings : Settings} {state : σ}
    {tool : Bpftool.Tool Quantity} {begun : Activity σ} :
    begun? environment settings state = some (tool, begun) ↔
      Monitor.tool settings = .ok tool ∧ ∃ store loop,
        (prepare environment settings tool).outcome = .ok store ∧
        PollLoop.create store settings.interval = .ok loop ∧
        { loop, state, call := some .launched } = begun := by
  have isOk {ε α : Type} (result : Except ε α) (value : α) :
      result.toOption = some value ↔ result = .ok value := by
    cases result <;> simp [Except.toOption]
  simp only [begun?, Option.bind_eq_bind, Option.bind_eq_some_iff, isOk]
  constructor
  · rintro ⟨tool', given, store, prepared, loop, created, same⟩
    obtain ⟨rfl, rfl⟩ := Prod.mk.inj (Option.some.inj same)
    exact ⟨given, store, loop, prepared, created, rfl⟩
  · rintro ⟨given, store, loop, prepared, created, rfl⟩
    exact ⟨tool, given, store, prepared, loop, created, rfl⟩

/-- A run begins with no report completed. -/
theorem cycles_begun {environment : Environment σ} {settings : Settings} {state : σ}
    {tool : Bpftool.Tool Quantity} {begun : Activity σ}
    (begins : begun? environment settings state = some (tool, begun)) : begun.loop.cycles = 0 := by
  obtain ⟨-, store, loop, -, created, rfl⟩ := begun?_eq_some_iff.mp begins
  exact (settled_of_create created state).cycles

/-- A last act of a part of a call changes nothing of what the part ended with and showed. -/
theorem whenEnded_keeps (outcome : Outcome σ) (act : Process σ → Process σ) :
    let ended := outcome.whenEnded act
    ended.ending = outcome.ending ∧ ended.output = outcome.output ∧
      ended.events = outcome.events := by
  unfold Outcome.whenEnded
  split <;> exact ⟨rfl, rfl, rfl⟩

/-- A poll ends with its run and shows what the run shows. -/
theorem poll_keeps (environment : Environment σ) (tool : Bpftool.Tool Quantity) (steps : Nat)
    (loop : PollLoop) (process : Process σ) :
    let polled := poll environment tool steps loop process
    let run : Activity σ := { loop, state := process.state, call := some .launched }
    let progress := run.proceed (surroundings environment tool) .caller steps
    polled.ending = endingOf progress.activity.call ∧ polled.output = outputOf progress.events ∧
      polled.events = progress.events :=
  whenEnded_keeps _ _

/-- Without the live view a call shows what its run shows, and nothing where it ends before. -/
theorem run_events (environment : Environment σ) {settings : Settings}
    (polls : settings.liveView = false) (steps : Nat) (state : σ) :
    let outcome := run environment settings steps state
    outcome.output = outputOf outcome.events ∧
    outcome.events = match begun? environment settings state with
      | none => []
      | some (tool, begun) =>
        (begun.proceed (surroundings environment tool) .caller steps).events := by
  unfold run begun?
  rcases tool settings with fault | tool
  · exact ⟨rfl, rfl⟩
  · dsimp only [Except.toOption, Option.bind_eq_bind, Option.bind_some]
    rcases (prepare environment settings tool).outcome with fault | store
    · exact ⟨rfl, rfl⟩
    · rw [polls]
      dsimp only [Option.bind_some]
      rcases PollLoop.create store settings.interval with fault | loop
      · exact ⟨rfl, rfl⟩
      · obtain ⟨-, output, events⟩ :=
          poll_keeps environment tool steps loop (process environment state)
        exact ⟨output.trans (congrArg outputOf events.symm), events⟩

theorem contain_output (outcome : Outcome σ) :
    (contain outcome).output = outcome.output ∧ (contain outcome).events = outcome.events := by
  unfold contain
  split <;> exact ⟨rfl, rfl⟩

/-- With whatever words a call is accepted that does not open the live view, its output is one whole
block for each report that its run completed, in order, and no more; and so is that of a run which
any faults leave, in a collection or in the rows of a report. -/
theorem main_writes_whole_reports (environment : Environment σ) {words : List Switch.Word}
    {settings : Settings} (accepted : CommandLine.read words = .ok settings)
    (polls : settings.liveView = false) (steps : Nat) (state : σ) :
    let outcome := main environment words steps state
    outcome.output = Report.streamText (callsOf outcome.events) ∧
    (begun? environment settings state = none → outcome.events = []) ∧
    ∀ tool begun, begun? environment settings state = some (tool, begun) →
      let world := (surroundings environment tool).world
      let progress := begun.proceed (surroundings environment tool) .caller steps
      (∃ turns, play world turns begun = (progress.activity, outcome.events) ∧
        Report.Writes (callsOf outcome.events) (completedIn world turns begun) ∧
        progress.activity.loop.cycles = (completedIn world turns begun).length) ∧
      ∀ turns, let (last, events) := play world turns begun
        Report.Writes (callsOf events) (completedIn world turns begun) ∧
        last.loop.cycles = (completedIn world turns begun).length := by
  intro outcome
  obtain ⟨output, events⟩ := run_events environment polls steps state
  have contained : outcome.output = (run environment settings steps state).output ∧
      outcome.events = (run environment settings steps state).events := by
    simp only [outcome, main, accepted]
    exact contain_output _
  refine ⟨by rw [contained.1, contained.2, output, outputOf_eq], fun ends => ?_, ?_⟩
  · rw [contained.2, events, ends]
  · intro tool begun begins world progress
    have shown : outcome.events = progress.events := by rw [contained.2, events, begins]
    have whole (turns : List (Turn σ)) :
        Report.Writes (callsOf (play world turns begun).2) (completedIn world turns begun) ∧
          (play world turns begun).1.loop.cycles = (completedIn world turns begun).length := by
      have written := writes_play world turns begun
      rwa [cycles_begun begins, Nat.zero_add] at written
    obtain ⟨turns, played⟩ := turns_of_proceed (surroundings environment tool) steps begun
    have own := whole turns
    rw [played] at own
    rw [shown]
    exact ⟨⟨turns, played, own⟩, whole⟩

/-- A system of one core whose counters go on with every reading and whose second wait is
interrupted. -/
def busy : Environment Nat where
  handler := .foreign 0
  files := { contains := fun _ => .ok true, isDirectory := fun _ => .ok true }
  cpuList := .unreadable
  cpuListPath := "/sys/devices/system/cpu/possible"
  reportedCpus := some 1
  run _ _ state :=
    (.ended 0 (Utf8.encode (Bpftool.outputText [0, 0, 0, 0] [⟨3 * state, state⟩])) [], state + 1)
  clock state := (.ok (1000000000 * state), state)
  signal moment _ state := ({ cancels := moment = .wait && 10 < state }, state)

/-- The words that ask for one redirect target. -/
def oneTarget : List Switch.Word := ["--targets".toList, "1".toList]

/-- The run that such a call polls with, as it begins. -/
def busyRun : Bpftool.Tool Quantity × Activity Nat :=
  (⟨.ofString defaultMapDirectory, .named "bpftool", none⟩,
    { loop := { store := .blank 1 1, interval := .whole 2 }, state := 0, call := some .launched })

theorem main_writes_two_reports :
    CommandLine.read oneTarget = .ok { targets := .whole 1 } ∧
      ∃ reports : List (List Row), reports.length = 2 ∧
        (main busy oneTarget 100 0).output =
          Report.streamText (reports.flatMap Report.blockCalls) ∧
        Text.cutAfterEmptyLines (main busy oneTarget 100 0).output =
          reports.map fun report => Report.streamText (Report.blockCalls report) := by
  have accepted : CommandLine.read oneTarget = .ok { targets := .whole 1 } := by rfl
  have begins : begun? busy { targets := .whole 1 } 0 = some (busyRun.1, busyRun.2) := by rfl
  have rendered :
      (busyRun.2.proceed (surroundings busy busyRun.1) .caller 100).activity.loop.cycles = 2 := by
    decide +kernel
  obtain ⟨output, -, whole⟩ := main_writes_whole_reports busy accepted rfl 100 0
  obtain ⟨⟨turns, -, ⟨reports, given, calls, cut⟩, cycles⟩, -⟩ := whole _ _ begins
  refine ⟨accepted, reports, ?_, ?_, ?_⟩
  · rw [← given.length_eq, ← cycles, rendered]
  · rw [output, calls]
  · rw [output, cut]

end Monitor

end RedirectMonitor
