/-
This file follows a start of the caller turn by turn. While its run is under way the run makes
its steps, and between these someone may ask it to end, the world may change, and a fault may
leave the collection or the report at hand. Once the run is over nothing more happens to it.

The content is a list of what a step can do, in terms of the phase, the flag and the numbers of
lookups and reports. What a run keeps is read off this list, case by case.
-/

import RedirectMonitor.Activity.Surroundings
import RedirectMonitor.Proofs.Course

namespace RedirectMonitor

namespace PollLoop

/-! ### Lookups and reports -/

def Event.isLookup : Event → Bool
  | .looked _ => true
  | .noted _ | .reported _ | .rests _ => false

def Event.isReport : Event → Bool
  | .reported _ => true
  | .noted _ | .looked _ | .rests _ => false

/-- How many lookups were made. -/
def lookups (events : List Event) : Nat := events.countP Event.isLookup

/-- How many reports were rendered. -/
def reports (events : List Event) : Nat := events.countP Event.isReport

@[simp]
theorem lookups_append (events more : List Event) :
    lookups (events ++ more) = lookups events + lookups more :=
  List.countP_append

@[simp]
theorem reports_append (events more : List Event) :
    reports (events ++ more) = reports events + reports more :=
  List.countP_append

@[simp]
theorem lookups_noted (notices : List Notice) : lookups (notices.map Event.noted) = 0 := by
  simp [lookups, List.countP_map, Function.comp_def, Event.isLookup]

@[simp]
theorem reports_noted (notices : List Notice) : reports (notices.map Event.noted) = 0 := by
  simp [reports, List.countP_map, Function.comp_def, Event.isReport]

/-! ### What a step can do -/

/-- What a step makes of a phase and a loop, with the numbers of the lookups and reports that it
makes. -/
inductive Passes (loop : PollLoop) : Phase → Phase → PollLoop → (lookups reports : Nat) → Prop
  | refused (pending : loop.cancelled = true) :
      Passes loop .launched (.over none) loop.clearFlag 0 0
  | primes (free : loop.cancelled = false) :
      Passes loop .launched (.collecting .priming loop.store.newest loop.store.groups 0)
        { loop with running := true } 0 0
  | reads {purpose : Purpose} {side : Side} {group : Group} {left : List Group} {failed : Nat}
      {phase : Phase} {store : Store} (groups : store.groups = loop.store.groups)
      (onward : (∃ failed', phase = .collecting purpose side left failed') ∨
        ∃ fault, phase = .leaving (some fault)) :
      Passes loop (.collecting purpose side (group :: left) failed) phase
        { loop with store } 1 0
  | stops {phase : Phase} (pending : loop.cancelled = true)
      (complete : phase = .waiting ∨
        ∃ purpose side failed, phase = .collecting purpose side [] failed) :
      Passes loop phase (.leaving none) loop 0 0
  | cycles {phase : Phase} (free : loop.cancelled = false)
      (complete : phase = .waiting ∨ ∃ side failed, phase = .collecting .priming side [] failed) :
      Passes loop phase (.collecting .cycle loop.store.newest.other loop.store.groups 0)
        { loop with store := loop.store.swap } 0 0
  | renders {side : Side} {failed : Nat} (free : loop.cancelled = false) :
      Passes loop (.collecting .cycle side [] failed) .rendered
        { loop with cycles := loop.cycles + 1 } 0 1
  | fails {phase : Phase} {fault : Fault} (free : loop.cancelled = false)
      (complete : phase = .waiting ∨ ∃ side failed, phase = .collecting .cycle side [] failed) :
      Passes loop phase (.leaving (some fault)) loop 0 0
  | rests : Passes loop .rendered .waiting loop 0 0
  | leaves (fault : Option Fault) :
      Passes loop (.leaving fault) (.over fault) { loop with cancelled := false, running := false }
        0 0

/-- A run that is over makes no step. -/
theorem Passes.notOver {loop loop' : PollLoop} {phase phase' : Phase} {made shown : Nat}
    (passes : Passes loop phase phase' loop' made shown) (fault : Option Fault) :
    phase ≠ .over fault := by
  rintro rfl
  cases passes with
  | stops pending complete => simp at complete
  | cycles free complete => simp at complete
  | fails free complete => simp at complete

/-- What becomes of a phase between two steps: nothing, or a fault leaves the collection at hand or
the rendering of its report. -/
inductive Phase.Waits : Phase → Phase → Prop
  | same (phase : Phase) : Waits phase phase
  | broken {purpose : Purpose} {side : Side} {left : List Group} {failed : Nat} (fault : Fault) :
      Waits (.collecting purpose side left failed) (.leaving (some fault))

variable {σ : Type}

theorem passes_readNext (world : World σ) (purpose : Purpose) (side : Side) (group : Group)
    (left : List Group) (failed : Nat) (loop : PollLoop) (state : σ) :
    let next := readNext world purpose side group left failed loop state
    Passes loop (.collecting purpose side (group :: left) failed) next.phase next.loop
      (lookups next.events) (reports next.events) := by
  intro next
  have looks : lookups next.events = 1 ∧ reports next.events = 0 := by
    have events : next.events = [.looked group.address] ++
        (loop.store.readGroup world side group state).notices.map Event.noted := rfl
    rw [events, lookups_append, reports_append, lookups_noted, reports_noted]
    exact ⟨rfl, rfl⟩
  have groups : next.loop.store.groups = loop.store.groups :=
    Store.deliver_groups loop.store ⟨side, group, _⟩
  rw [looks.1, looks.2]
  exact .reads groups (phase_readNext world purpose side group left failed loop state).symm

theorem passes_completeCollection (purpose : Purpose) (side : Side) (failed : Nat)
    (loop : PollLoop) (state : σ) :
    let next := completeCollection purpose failed loop state
    Passes loop (.collecting purpose side [] failed) next.phase next.loop
      (lookups next.events) (reports next.events) := by
  have stale : lookups (if failed = 0 then [] else [Event.noted (.staleGroups failed)]) = 0 ∧
      reports (if failed = 0 then [] else [Event.noted (.staleGroups failed)]) = 0 := by
    split <;> exact ⟨rfl, rfl⟩
  cases purpose with
  | priming =>
    unfold completeCollection
    cases pending : loop.cancelled with
    | true => exact .stops pending (.inr ⟨_, _, _, rfl⟩)
    | false => exact .cycles pending (.inr ⟨_, _, rfl⟩)
  | cycle =>
    unfold completeCollection
    cases pending : loop.cancelled with
    | true =>
      simp only [if_true, stale]
      exact .stops pending (.inr ⟨_, _, _, rfl⟩)
    | false =>
      simp only [Bool.false_eq_true, if_false, lookups_append, reports_append, stale]
      unfold render
      dsimp only
      split
      · simp only [lookups_noted, reports_noted]
        exact .fails pending (.inr ⟨_, _, rfl⟩)
      · simp only [lookups_append, reports_append, lookups_noted, reports_noted]
        exact .renders pending

/-- A run that is not over makes one of the steps listed. -/
theorem passes_step (world : World σ) {phase : Phase} (loop : PollLoop) (state : σ)
    (underWay : ∀ fault, phase ≠ .over fault) :
    let next := step world phase loop state
    Passes loop phase next.phase next.loop (lookups next.events) (reports next.events) := by
  cases phase with
  | launched =>
    simp only [step, launch]
    split
    · rename_i pending
      exact .refused pending
    · rename_i free
      exact .primes (Bool.eq_false_iff.mpr free)
  | collecting purpose side left failed =>
    cases left with
    | cons group left => exact passes_readNext world purpose side group left failed loop state
    | nil => exact passes_completeCollection purpose side failed loop state
  | rendered => exact .rests
  | waiting =>
    simp only [step]
    rcases wait_cases world loop state with
      ⟨pending, same⟩ | ⟨free, ⟨refusal, -, same⟩ | same⟩ <;> rw [same]
    · exact .stops pending (.inl rfl)
    · exact .fails free (.inl rfl)
    · exact .cycles free (.inl rfl)
  | leaving fault => exact .leaves fault
  | «over» fault => exact absurd rfl (underWay fault)

end PollLoop

namespace Activity

open RedirectMonitor.PollLoop

variable {σ : Type}

/-! ### Turns -/

/-- What can happen next while a start of the caller has not returned. -/
inductive Turn (σ : Type) where
  | step
  /-- Someone asks the run to end. -/
  | cancel
  /-- The state of the world changes. -/
  | drift (state : σ)
  /-- A fault leaves the collection at hand, or the rendering of its report. -/
  | breaks (fault : Fault)

def Turn.isStep : Turn σ → Bool
  | .step => true
  | .cancel | .drift _ | .breaks _ => false

def Turn.isCancel : Turn σ → Bool
  | .cancel => true
  | .step | .drift _ | .breaks _ => false

/-- A start checks the interval that it asks for, if it asks for one, and launches a run with it. -/
theorem start_some (activity : Activity σ) (value : Quantity) :
    activity.start (some value) =
      if value.isNonpositive then .error (.interval value)
      else .ok { activity with
        loop := { activity.loop with interval := value }, call := some .launched } := by
  simp only [start, withInterval, checkInterval]
  split <;> rfl

/-- A start that is accepted launches a run, perhaps with another interval, and leaves all else. -/
theorem begun_of_start {activity begun : Activity σ} {interval : Option Quantity}
    (started : activity.start interval = .ok begun) :
    ∃ interval, begun = { activity with
      loop := { activity.loop with interval }, call := some .launched } := by
  cases interval with
  | none =>
    obtain rfl := Except.ok.inj started
    exact ⟨activity.loop.interval, rfl⟩
  | some value =>
    rw [start_some] at started
    split at started
    · cases started
    · obtain rfl := Except.ok.inj started
      exact ⟨value, rfl⟩

/-- Whether a run of the caller was started and is not over. -/
def isUnderWay (activity : Activity σ) : Bool :=
  match activity.call with
  | none | some (.over _) => false
  | some _ => true

/-- A fault ends the collection or the rendering of the caller's run. -/
def interrupt (fault : Fault) (activity : Activity σ) : Activity σ :=
  match activity.call with
  | some (.collecting ..) => activity.setPhase .caller (.leaving (some fault))
  | _ => activity

/-- What a turn makes of an activity, and what it shows. -/
def turn (world : World σ) (activity : Activity σ) : Turn σ → Activity σ × List Event
  | .step => activity.step world .caller
  | .cancel => (activity.cancel, [])
  | .drift state => ({ activity with state }, [])
  | .breaks fault => (activity.interrupt fault, [])

/-- Turns one after the other, until the run of the caller is over. -/
def play (world : World σ) : List (Turn σ) → Activity σ → Activity σ × List Event
  | [], activity => (activity, [])
  | turn :: rest, activity =>
    if activity.isUnderWay then
      let (next, events) := activity.turn world turn
      let (last, more) := play world rest next
      (last, events ++ more)
    else (activity, [])

theorem isUnderWay_iff (activity : Activity σ) :
    activity.isUnderWay = true ↔
      ∃ phase, activity.call = some phase ∧ ∀ fault, phase ≠ .over fault := by
  unfold isUnderWay
  split
  · rename_i none
    simp [none]
  · rename_i fault same
    simp [same]
  · rename_i phase differs same
    simp only [same, Option.some.injEq, exists_eq_left', true_iff]
    rintro fault rfl
    exact differs fault rfl

theorem play_of_over {world : World σ} {activity : Activity σ}
    (isOver : activity.isUnderWay = false) (turns : List (Turn σ)) :
    play world turns activity = (activity, []) := by
  cases turns with
  | nil => rfl
  | cons turn rest => rw [play, isOver]; rfl

/-- The run of the caller makes the step that the loop makes. -/
theorem turn_step (world : World σ) {activity : Activity σ} {phase : Phase}
    (call : activity.call = some phase) (underWay : ∀ fault, phase ≠ .over fault) :
    activity.turn world .step =
      let next := PollLoop.step world phase activity.loop activity.state
      ({ activity with loop := next.loop, state := next.state, call := some next.phase },
        next.events) := by
  show activity.step world .caller = _
  unfold step
  have same : activity.phase? .caller = some phase := call
  rw [same]
  cases phase with
  | «over» fault => exact absurd rfl (underWay fault)
  | launched | collecting | rendered | waiting | leaving => rfl

theorem interrupt_cases {activity : Activity σ} {phase : Phase}
    (call : activity.call = some phase) (fault : Fault) :
    ∃ phase', (activity.interrupt fault).call = some phase' ∧ phase.Waits phase' ∧
      (activity.interrupt fault).loop = activity.loop := by
  unfold interrupt
  split
  · rename_i same
    obtain rfl := Option.some.inj (call.symm.trans same)
    exact ⟨_, rfl, .broken fault, rfl⟩
  · exact ⟨phase, call, .same phase, rfl⟩

/-- A turn is a step from the list, or leaves the loop as it is but for the flag, which it may set.
-/
theorem turn_cases (world : World σ) {activity : Activity σ} {phase : Phase}
    (call : activity.call = some phase) (underWay : ∀ fault, phase ≠ .over fault)
    (turn : Turn σ) :
    let next := activity.turn world turn
    ∃ phase', next.1.call = some phase' ∧
      ((turn.isStep = true ∧
          Passes activity.loop phase phase' next.1.loop (lookups next.2) (reports next.2)) ∨
        (turn.isStep = false ∧ next.2 = [] ∧ phase.Waits phase' ∧
          ∃ flag, next.1.loop = { activity.loop with cancelled := flag } ∧
            (activity.loop.cancelled = true → flag = true))) := by
  intro next
  cases turn with
  | step =>
    have same : next = _ := turn_step world call underWay
    rw [same]
    exact ⟨_, rfl, .inl ⟨rfl, passes_step world activity.loop activity.state underWay⟩⟩
  | cancel => exact ⟨phase, call, .inr ⟨rfl, rfl, .same phase, true, rfl, fun _ => rfl⟩⟩
  | drift state => exact ⟨phase, call, .inr ⟨rfl, rfl, .same phase, _, rfl, fun flag => flag⟩⟩
  | breaks fault =>
    obtain ⟨phase', call', waits, kept⟩ := interrupt_cases call fault
    exact ⟨phase', call', .inr ⟨rfl, rfl, waits, _, kept, fun flag => flag⟩⟩

/-- Turns go on where the turns before them came to. -/
theorem play_append (world : World σ) (turns more : List (Turn σ)) (activity : Activity σ) :
    play world (turns ++ more) activity =
      let (middle, events) := play world turns activity
      let (last, later) := play world more middle
      (last, events ++ later) := by
  induction turns generalizing activity with
  | nil => rfl
  | cons turn rest inductionHypothesis =>
    rw [List.cons_append, play, play]
    cases underWay : activity.isUnderWay with
    | false =>
      simp only [Bool.false_eq_true, if_false, List.nil_append]
      rw [play_of_over underWay more]
    | true => simp only [if_true, inductionHypothesis, List.append_assoc]

/-- What holds of a run as it starts and is kept by each turn while it is under way holds as long as
it is played. -/
theorem play_induction {world : World σ} {Kept : Activity σ → List Event → Prop}
    (turns : List (Turn σ))
    (kept : ∀ activity events, activity.isUnderWay = true → Kept activity events →
      ∀ turn ∈ turns, Kept (activity.turn world turn).1 (events ++ (activity.turn world turn).2))
    {activity : Activity σ} {events : List Event} (start : Kept activity events) :
    Kept (play world turns activity).1 (events ++ (play world turns activity).2) := by
  induction turns generalizing activity events with
  | nil => simpa [play] using start
  | cons turn rest inductionHypothesis =>
    rw [play]
    cases underWay : activity.isUnderWay with
    | false => simpa using start
    | true =>
      have next := kept activity events underWay start turn List.mem_cons_self
      have last := inductionHypothesis (fun activity events underWay start turn member =>
        kept activity events underWay start turn (List.mem_cons_of_mem _ member)) next
      simpa only [if_true, List.append_assoc] using last

/-- An account of the caller's run: a relation of its phase and its loop with the numbers of lookups
and reports that there were. -/
def Accounts (account : Phase → PollLoop → (lookups reports : Nat) → Prop) (activity : Activity σ)
    (events : List Event) : Prop :=
  ∃ phase, activity.call = some phase ∧
    account phase activity.loop (lookups events) (reports events)

/-- An account that is kept by all that a step can do, and by what can happen between two steps, is
kept as long as the run is played. -/
theorem accounts_play {world : World σ}
    {account : Phase → PollLoop → (lookups reports : Nat) → Prop}
    (stepped : ∀ {loop loop' : PollLoop} {phase phase' : Phase} {made shown looked rendered : Nat},
      Passes loop phase phase' loop' made shown → account phase loop looked rendered →
        account phase' loop' (looked + made) (rendered + shown))
    (waited : ∀ {loop : PollLoop} {phase phase' : Phase} {flag : Bool} {looked rendered : Nat},
      (∀ fault, phase ≠ .over fault) → phase.Waits phase' →
        (loop.cancelled = true → flag = true) → account phase loop looked rendered →
          account phase' { loop with cancelled := flag } looked rendered)
    (turns : List (Turn σ)) {activity : Activity σ} {events : List Event}
    (start : activity.Accounts account events) :
    (play world turns activity).1.Accounts account (events ++ (play world turns activity).2) := by
  refine play_induction turns (fun activity events underWay accounts turn _ => ?_) start
  obtain ⟨phase, call, notOver⟩ := (isUnderWay_iff activity).mp underWay
  obtain ⟨phase', call', kept⟩ := accounts
  obtain rfl := Option.some.inj (call.symm.trans call')
  obtain ⟨next, after, ⟨-, passes⟩ | ⟨-, silent, waits, flag, same, raised⟩⟩ :=
    turn_cases world call notOver turn
  · refine ⟨next, after, ?_⟩
    rw [lookups_append, reports_append]
    exact stepped passes kept
  · refine ⟨next, after, ?_⟩
    rw [silent, List.append_nil, same]
    exact waited notOver waits raised kept

/-! ### Surroundings make turns -/

/-- What surroundings say to a run under way is a drift of the world, perhaps with a request to
end. -/
theorem turns_of_hear (surroundings : Surroundings σ) (actor : Actor) (moment : Moment)
    {activity : Activity σ} (underWay : activity.isUnderWay = true) :
    let heard := activity.hear surroundings actor moment
    heard.events = [] ∧ heard.activity.isUnderWay = true ∧
      ∃ turns, play surroundings.world turns activity = (heard.activity, []) := by
  intro heard
  rcases said : surroundings.signal actor moment activity.loop.cancelled activity.state with
    ⟨signal, state⟩
  have drifts : play surroundings.world [.drift state] activity =
      ({ activity with state }, []) := by
    rw [play, underWay]
    rfl
  cases cancels : signal.cancels with
  | true =>
    have same : heard = { activity := cancel { activity with state }, hangs := signal.hangs } := by
      simp only [heard, hear, said, cancels, if_true]
    have asks : play surroundings.world [.cancel] { activity with state } =
        (cancel { activity with state }, []) := by
      rw [play, show isUnderWay { activity with state } = true from underWay]
      rfl
    rw [same]
    refine ⟨rfl, underWay, [.drift state] ++ [.cancel], ?_⟩
    rw [play_append, drifts]
    dsimp only
    rw [asks]
    rfl
  | false =>
    have same : heard = { activity := { activity with state }, hangs := signal.hangs } := by
      simp only [heard, hear, said, cancels, Bool.false_eq_true, if_false]
    rw [same]
    exact ⟨rfl, underWay, [.drift state], drifts⟩

/-- The caller's run advances in surroundings by turns. -/
theorem turns_of_advance (surroundings : Surroundings σ) {activity : Activity σ}
    (underWay : activity.isUnderWay = true) :
    let progress := activity.advance surroundings .caller
    ∃ turns, play surroundings.world turns activity = (progress.activity, progress.events) := by
  intro progress
  obtain ⟨heard, advances, silent, stays, turns, played⟩ : ∃ heard : Progress σ,
      progress = (if heard.hangs then heard else
        let (activity, events) := heard.activity.step surroundings.world .caller
        { activity, events }) ∧
      heard.events = [] ∧ heard.activity.isUnderWay = true ∧
      ∃ turns, play surroundings.world turns activity = (heard.activity, []) := by
    refine ⟨_, rfl, ?_⟩
    cases (activity.phase? .caller).bind Phase.moment? with
    | none => exact ⟨rfl, underWay, [], rfl⟩
    | some moment => exact turns_of_hear surroundings .caller moment underWay
  rw [advances]
  split
  · exact ⟨turns, by rw [silent]; exact played⟩
  · refine ⟨turns ++ [.step], ?_⟩
    rw [play_append, played]
    simp [play, stays, turn]

/-- However far a run of the caller proceeds in surroundings, it is played in turns. -/
theorem turns_of_proceed (surroundings : Surroundings σ) (steps : Nat) (activity : Activity σ) :
    let progress := activity.proceed surroundings .caller steps
    ∃ turns, play surroundings.world turns activity = (progress.activity, progress.events) := by
  induction steps generalizing activity with
  | zero => exact ⟨[], rfl⟩
  | succ steps inductionHypothesis =>
    unfold proceed
    split
    · exact ⟨[], rfl⟩
    · exact ⟨[], rfl⟩
    · rename_i phase differs call
      have underWay : activity.isUnderWay = true :=
        (isUnderWay_iff activity).mpr ⟨phase, call, fun fault same => differs fault (by rw [same])⟩
      obtain ⟨turns, played⟩ := turns_of_advance surroundings underWay
      dsimp only
      split
      · exact ⟨turns, played⟩
      · obtain ⟨more, later⟩ := inductionHypothesis (activity.advance surroundings .caller).activity
        refine ⟨turns ++ more, ?_⟩
        rw [play_append, played]
        dsimp only
        rw [later]

end Activity

end RedirectMonitor
