/-
This file follows a run of the poll loop step by step and keeps a record of it. A course is
a run as far as it has come, with every delivery that was ever made to its store and every
report that the run rendered, each with the deliveries before it. A course goes on by a step
of the run or by a request from outside to end it; the store may have a past of its own,
made of any requests to it.

The content is that a report is determined by the deliveries before it: its two snapshots
are those of the deliveries, its newest side is where the last delivery of every group went,
and its rows are the rows of these snapshots. The deliveries before one report are the first
of those before a later one.
-/

import RedirectMonitor.PollLoop
import RedirectMonitor.Proofs.StoreHistory

namespace RedirectMonitor

/-- The last delivery of a group. -/
def Delivery.last? (group : Group) (deliveries : List Delivery) : Option Delivery :=
  (ownOf group deliveries).getLast?

namespace Delivery

theorem last?_append_self (deliveries : List Delivery) (delivery : Delivery) :
    last? delivery.group (deliveries ++ [delivery]) = some delivery := by
  rw [last?, ownOf_append, ownOf_singleton_self, List.getLast?_concat]

theorem last?_append_of_ne (deliveries : List Delivery) (delivery : Delivery) (group : Group)
    (different : delivery.group ≠ group) :
    last? group (deliveries ++ [delivery]) = last? group deliveries := by
  rw [last?, ownOf_append, ownOf_singleton_of_ne _ _ different, List.append_nil]
  rfl

end Delivery

namespace PollLoop

variable {σ : Type}

/-! ### Courses -/

/-- What can happen next while a run is under way. -/
inductive Move where
  | step
  /-- Someone asks the run to end. -/
  | cancel
deriving DecidableEq, Repr

/-- A report with all deliveries that were made before it. -/
structure Rendering where
  view : View
  deliveries : List Delivery
deriving DecidableEq, Repr

/-- A run as far as it has come: its phase, the loop, the state of the world, all deliveries to the
store so far and the reports of this run. -/
structure Course (σ : Type) where
  phase : Phase
  loop : PollLoop
  state : σ
  deliveries : List Delivery
  renderings : List Rendering := []

/-- The delivery that the step from a phase makes, if it makes one. -/
def nextDelivery? (world : World σ) (phase : Phase) (loop : PollLoop) (state : σ) :
    Option Delivery :=
  match phase with
  | .collecting _ side (group :: _) _ =>
    some ⟨side, group, (world.read loop.store.cores group.address.map group.address.key state).1⟩
  | _ => none

/-- The report that an event is. -/
def Event.view? : Event → Option View
  | .reported view => some view
  | .noted _ | .looked _ | .rests _ => none

namespace Course

/-- The start of a run over a store that has had requests before. -/
def launched (world : World σ) (cores targets : Int) (past : List Store.Request) (loop : PollLoop)
    (state : σ) : Course σ :=
  let (store, after) := Store.serveAll world past (.blank cores targets) state
  { phase := .launched
    loop := { loop with store }
    state := after
    deliveries := Store.history world cores targets past .first state }

/-- A course after the next step of its run. -/
def step (world : World σ) (course : Course σ) : Course σ :=
  let next := PollLoop.step world course.phase course.loop course.state
  let deliveries := course.deliveries ++
    (nextDelivery? world course.phase course.loop course.state).toList
  { phase := next.phase
    loop := next.loop
    state := next.state
    deliveries
    renderings := course.renderings ++
      (next.events.filterMap Event.view?).map fun view => ⟨view, deliveries⟩ }

/-- A course after the next move. -/
def move (world : World σ) (course : Course σ) : Move → Course σ
  | .step => course.step world
  | .cancel => { course with loop := course.loop.cancel }

/-- A course after moves, one after the other. -/
def follow (world : World σ) (course : Course σ) (moves : List Move) : Course σ :=
  moves.foldl (move world) course

end Course

/-! ### What a step does -/

/-- A wait is left for the end of the run where that was asked for, and else where it is refused;
otherwise the next cycle begins. -/
theorem wait_cases (world : World σ) (loop : PollLoop) (state : σ) :
    (loop.cancelled = true ∧ wait world loop state = { phase := .leaving none, loop, state }) ∨
      loop.cancelled = false ∧
        ((∃ refusal, world.waitRefusal? loop.interval = some refusal ∧
            wait world loop state = { phase := .leaving (some (.wait refusal)), loop, state }) ∨
          wait world loop state = beginCycle loop state) := by
  unfold wait
  cases loop.cancelled with
  | true => exact .inl ⟨rfl, rfl⟩
  | false =>
    cases world.waitRefusal? loop.interval with
    | some refusal => exact .inr ⟨rfl, .inl ⟨refusal, rfl, rfl⟩⟩
    | none => exact .inr ⟨rfl, .inr rfl⟩

/-- A step does to the store what its delivery does, and may swap it. -/
theorem step_store (world : World σ) (phase : Phase) (loop : PollLoop) (state : σ) :
    ∃ newest, (step world phase loop state).loop.store =
      { loop.store.deliverAll (nextDelivery? world phase loop state).toList with newest } := by
  have kept : ∃ newest, loop.store = { loop.store with newest } := ⟨loop.store.newest, rfl⟩
  have swapped : ∃ newest, loop.store.swap = { loop.store with newest } :=
    ⟨loop.store.newest.other, rfl⟩
  cases phase with
  | launched =>
    simp only [step, launch]
    split
    · exact kept
    · exact kept
  | collecting purpose side left failed =>
    cases left with
    | cons group left =>
      exact ⟨(step world (.collecting purpose side (group :: left) failed) loop
        state).loop.store.newest, rfl⟩
    | nil =>
      cases purpose with
      | priming =>
        simp only [step, completeCollection]
        split
        · exact kept
        · exact swapped
      | cycle =>
        simp only [step, completeCollection, render]
        split
        · exact kept
        · split <;> exact kept
  | waiting =>
    simp only [step]
    rcases wait_cases world loop state with ⟨-, same⟩ | ⟨-, ⟨_, -, same⟩ | same⟩ <;> rw [same]
    · exact kept
    · exact kept
    · exact swapped
  | rendered | leaving fault | «over» fault => exact kept

theorem Event.view?_of_noted (notices : List Notice) :
    (notices.map Event.noted).filterMap Event.view? = [] := by
  rw [List.filterMap_map]
  exact List.filterMap_eq_nil_iff.mpr fun _ _ => rfl

/-- A report that is rendered shows the two snapshots of the store with their rows. -/
theorem view_of_render (loop : PollLoop) (state : σ) (view : View)
    (member : view ∈ (render loop state).events.filterMap Event.view?) :
    view.newest = loop.store.newest ∧ view.current = loop.store.current ∧
      view.previous = loop.store.previous ∧
      (Report.rows view.current view.previous).outcome = .ok view.rows := by
  cases outcome : (Report.rows loop.store.current loop.store.previous).outcome with
  | error fault =>
    simp only [render, outcome, Event.view?_of_noted] at member
    cases member
  | ok rows =>
    simp only [render, outcome, List.filterMap_append, Event.view?_of_noted,
      List.nil_append] at member
    rw [List.mem_singleton.mp member]
    exact ⟨rfl, rfl, rfl, outcome⟩

/-- The inversion of a report: it comes from a complete collection of a cycle, and shows the two
snapshots of the store with their rows. -/
theorem view_of_step (world : World σ) (phase : Phase) (loop : PollLoop) (state : σ) (view : View)
    (member : view ∈ (step world phase loop state).events.filterMap Event.view?) :
    (∃ side failed, phase = .collecting .cycle side [] failed) ∧
      view.newest = loop.store.newest ∧ view.current = loop.store.current ∧
      view.previous = loop.store.previous ∧
      (Report.rows view.current view.previous).outcome = .ok view.rows := by
  cases phase with
  | launched =>
    simp only [step, launch] at member
    split at member <;> simp [beginCollection, Event.view?] at member
  | collecting purpose side left failed =>
    cases left with
    | cons group left =>
      simp [step, readNext, Event.view?, Store.readGroup, List.filterMap_cons] at member
    | nil =>
      cases purpose with
      | priming =>
        simp only [step, completeCollection] at member
        split at member <;> simp [beginCycle, beginCollection] at member
      | cycle =>
        refine ⟨⟨side, failed, rfl⟩, ?_⟩
        have stale : (if failed = 0 then [] else
            [Event.noted (.staleGroups failed)]).filterMap Event.view? = [] := by
          split <;> rfl
        simp only [step, completeCollection] at member
        split at member
        · rw [stale] at member
          cases member
        · rw [List.filterMap_append, stale, List.nil_append] at member
          exact view_of_render loop state view member
  | waiting =>
    simp only [step] at member
    rcases wait_cases world loop state with ⟨-, same⟩ | ⟨-, ⟨_, -, same⟩ | same⟩ <;>
      simp [same, beginCycle, beginCollection] at member
  | rendered | leaving fault | «over» fault => simp [step, leave, Event.view?] at member

/-! ### What a course keeps -/

/-- While a collection is under way, the last delivery of every group that is done went to the
newest side. -/
def Phase.Gathered (store : Store) (deliveries : List Delivery) : Phase → Prop
  | .collecting _ side left _ =>
    side = store.newest ∧ ∃ done, store.groups = done ++ left ∧
      ∀ group ∈ done, (Delivery.last? group deliveries).map Delivery.side = some store.newest
  | .launched | .rendered | .waiting | .leaving _ | .over _ => True

theorem gathered_beginCollection (purpose : Purpose) (loop : PollLoop) (state : σ)
    (events : List Event) (deliveries : List Delivery) :
    (beginCollection purpose loop state events).phase.Gathered loop.store deliveries :=
  ⟨rfl, [], rfl, fun _ member => absurd member List.not_mem_nil⟩

/-- A reading leads on to the groups that are left, or ends the run with its fault. -/
theorem phase_readNext (world : World σ) (purpose : Purpose) (side : Side) (group : Group)
    (left : List Group) (failed : Nat) (loop : PollLoop) (state : σ) :
    (∃ fault, (readNext world purpose side group left failed loop state).phase =
        .leaving (some fault)) ∨
      ∃ failed', (readNext world purpose side group left failed loop state).phase =
        .collecting purpose side left failed' := by
  unfold readNext
  dsimp only
  split
  · exact .inl ⟨_, rfl⟩
  · exact .inr ⟨_, rfl⟩

/-- A group that was just read has had its last delivery to the newest side; the groups done before
it are not touched. -/
theorem gathered_step (world : World σ) (phase : Phase) (loop : PollLoop) (state : σ)
    (deliveries : List Delivery) (gathered : phase.Gathered loop.store deliveries) :
    (step world phase loop state).phase.Gathered (step world phase loop state).loop.store
      (deliveries ++ (nextDelivery? world phase loop state).toList) := by
  cases phase with
  | launched =>
    simp only [step, launch]
    split
    · exact trivial
    · exact gathered_beginCollection _ _ _ _ _
  | collecting purpose side left failed =>
    cases left with
    | cons group left =>
      obtain ⟨rfl, done, split, last⟩ := gathered
      set delivery : Delivery := ⟨loop.store.newest, group,
        (world.read loop.store.cores group.address.map group.address.key state).1⟩ with made
      show Phase.Gathered (loop.store.deliver delivery) (deliveries ++ [delivery])
        (readNext world purpose loop.store.newest group left failed loop state).phase
      rcases phase_readNext world purpose loop.store.newest group left failed loop state with
        ⟨fault, same⟩ | ⟨failed', same⟩
      · rw [same]
        exact trivial
      · rw [same]
        refine ⟨(Store.deliver_newest loop.store delivery).symm, done ++ [group], ?_, ?_⟩
        · rw [Store.deliver_groups, split, List.append_assoc, List.singleton_append]
        · intro other member
          rw [Store.deliver_newest]
          by_cases same : delivery.group = other
          · subst same
            rw [Delivery.last?_append_self]
            rfl
          · rw [Delivery.last?_append_of_ne _ _ _ same]
            rcases List.mem_append.mp member with inDone | inLast
            · exact last other inDone
            · exact absurd (List.mem_singleton.mp inLast).symm same
    | nil =>
      cases purpose with
      | priming =>
        simp only [step, completeCollection]
        split
        · exact trivial
        · exact gathered_beginCollection _ _ _ _ _
      | cycle =>
        simp only [step, completeCollection, render]
        split
        · exact trivial
        · split <;> exact trivial
  | waiting =>
    simp only [step]
    rcases wait_cases world loop state with ⟨-, same⟩ | ⟨-, ⟨_, -, same⟩ | same⟩ <;> rw [same]
    · exact trivial
    · exact trivial
    · exact gathered_beginCollection _ _ _ _ _
  | rendered | leaving fault | «over» fault => exact trivial

/-- A report is faithful to the deliveries before it if it shows the two snapshots that they make
and the rows of these, its newest side being where the last delivery of every group went. -/
structure Rendering.Faithful (cores targets : Int) (rendering : Rendering) : Prop where
  suit : ∀ delivery ∈ rendering.deliveries, (Store.blank cores targets).Suits delivery
  current : rendering.view.current =
    ((Store.blank cores targets).deliverAll rendering.deliveries).snapshot rendering.view.newest
  previous : rendering.view.previous =
    ((Store.blank cores targets).deliverAll rendering.deliveries).snapshot
      rendering.view.newest.other
  rows : (Report.rows rendering.view.current rendering.view.previous).outcome =
    .ok rendering.view.rows
  own : ∀ group ∈ Group.tracked targets,
    (Delivery.last? group rendering.deliveries).map Delivery.side = some rendering.view.newest

namespace Course

/-- What every course over a store of so many cores and targets keeps. -/
structure Sound (cores targets : Int) (course : Course σ) : Prop where
  store : ∃ newest, course.loop.store =
    { (Store.blank cores targets).deliverAll course.deliveries with newest }
  suit : ∀ delivery ∈ course.deliveries, (Store.blank cores targets).Suits delivery
  gathered : course.phase.Gathered course.loop.store course.deliveries
  faithful : ∀ rendering ∈ course.renderings, rendering.Faithful cores targets
  before : ∀ rendering ∈ course.renderings, rendering.deliveries <+: course.deliveries
  chained : course.renderings.Pairwise fun earlier later =>
    earlier.deliveries <+: later.deliveries

theorem sound_launched (world : World σ) (cores targets : Int) (past : List Store.Request)
    (loop : PollLoop) (state : σ) :
    (launched world cores targets past loop state).Sound cores targets := by
  refine ⟨?_, ?_, trivial, ?_, ?_, List.Pairwise.nil⟩
  · exact Store.serveAll_eq world past (Store.blank cores targets) state
  · exact fun delivery member => Store.history_suit world cores targets past .first state delivery
      member
  · exact fun _ member => absurd member List.not_mem_nil
  · exact fun _ member => absurd member List.not_mem_nil

theorem Sound.groups {cores targets : Int} {course : Course σ}
    (sound : course.Sound cores targets) : course.loop.store.groups = Group.tracked targets := by
  obtain ⟨newest, same⟩ := sound.store
  rw [same]
  show Group.tracked ((Store.blank cores targets).deliverAll course.deliveries).targets = _
  rw [Store.deliverAll_targets]
  rfl

theorem Sound.cores {cores targets : Int} {course : Course σ}
    (sound : course.Sound cores targets) : course.loop.store.cores = cores := by
  obtain ⟨newest, same⟩ := sound.store
  rw [same]
  exact Store.deliverAll_cores (Store.blank cores targets) course.deliveries

theorem Sound.snapshot {cores targets : Int} {course : Course σ}
    (sound : course.Sound cores targets) (side : Side) :
    course.loop.store.snapshot side =
      ((Store.blank cores targets).deliverAll course.deliveries).snapshot side := by
  obtain ⟨newest, same⟩ := sound.store
  rw [same]
  cases side <;> rfl

/-- The next delivery is one of a tracked group, with a value for each core if it has values. -/
theorem Sound.suits_next {cores targets : Int} {course : Course σ}
    (sound : course.Sound cores targets) (world : World σ) (delivery : Delivery)
    (next : delivery ∈ nextDelivery? world course.phase course.loop course.state) :
    (Store.blank cores targets).Suits delivery := by
  have gathered := sound.gathered
  unfold nextDelivery? at next
  split at next
  · rename_i purpose side group left failed phase
    rw [phase] at gathered
    obtain ⟨-, done, split, -⟩ := gathered
    obtain rfl := Option.mem_some.mp next
    refine ⟨?_, ?_⟩
    · show group ∈ Group.tracked targets
      rw [← sound.groups, split]
      exact List.mem_append_right _ List.mem_cons_self
    · show Reading.Fits cores _
      rw [← sound.cores]
      exact world.read_fits _ _ _ _
  · cases next

/-- A report of the next step is faithful to the deliveries made so far. -/
theorem Sound.faithful_next {cores targets : Int} {course : Course σ}
    (sound : course.Sound cores targets) (world : World σ) (view : View)
    (member : view ∈ (PollLoop.step world course.phase course.loop
      course.state).events.filterMap Event.view?) :
    Rendering.Faithful cores targets ⟨view, course.deliveries ++
      (nextDelivery? world course.phase course.loop course.state).toList⟩ := by
  obtain ⟨⟨side, failed, phase⟩, newest, current, previous, rows⟩ :=
    view_of_step world _ _ _ view member
  have none : nextDelivery? world course.phase course.loop course.state = none := by
    rw [phase]
    rfl
  have gathered := sound.gathered
  rw [phase] at gathered
  obtain ⟨-, done, split, last⟩ := gathered
  rw [none, Option.toList_none, List.append_nil]
  refine ⟨sound.suit, ?_, ?_, rows, fun group tracked => ?_⟩
  · rw [current, newest]
    exact sound.snapshot _
  · rw [previous, newest]
    exact sound.snapshot _
  · rw [← sound.groups, split, List.append_nil] at tracked
    rw [newest]
    exact last group tracked

theorem Sound.step {cores targets : Int} {course : Course σ} (sound : course.Sound cores targets)
    (world : World σ) : (course.step world).Sound cores targets := by
  have extended : course.deliveries <+: (course.step world).deliveries := List.prefix_append _ _
  have added : ∀ rendering ∈ (course.step world).renderings, rendering ∈ course.renderings ∨
      ∃ view ∈ (PollLoop.step world course.phase course.loop
        course.state).events.filterMap Event.view?,
        rendering = ⟨view, (course.step world).deliveries⟩ := by
    intro rendering member
    rcases List.mem_append.mp member with old | new
    · exact .inl old
    · obtain ⟨view, inStep, rfl⟩ := List.mem_map.mp new
      exact .inr ⟨view, inStep, rfl⟩
  refine ⟨?_, ?_, ?_, ?_, ?_, ?_⟩
  · obtain ⟨before, same⟩ := sound.store
    obtain ⟨newest, after⟩ := step_store world course.phase course.loop course.state
    refine ⟨newest, after.trans ?_⟩
    rw [same, Store.deliverAll_withNewest, ← Store.deliverAll_append]
    rfl
  · intro delivery member
    rcases List.mem_append.mp member with old | new
    · exact sound.suit delivery old
    · exact sound.suits_next world delivery (Option.mem_toList.mp new)
  · exact gathered_step world _ _ _ _ sound.gathered
  · intro rendering member
    rcases added rendering member with old | ⟨view, inStep, rfl⟩
    · exact sound.faithful rendering old
    · exact sound.faithful_next world view inStep
  · intro rendering member
    rcases added rendering member with old | ⟨view, inStep, rfl⟩
    · exact (sound.before rendering old).trans extended
    · exact List.prefix_rfl
  · refine List.pairwise_append.mpr ⟨sound.chained, ?_, ?_⟩
    · exact List.pairwise_map.mpr (List.pairwise_of_forall fun _ _ => List.prefix_rfl)
    · intro earlier old later new
      obtain ⟨view, -, rfl⟩ := List.mem_map.mp new
      exact (sound.before earlier old).trans extended

theorem Sound.move {cores targets : Int} {course : Course σ} (sound : course.Sound cores targets)
    (world : World σ) (move : Move) : (course.move world move).Sound cores targets := by
  cases move with
  | step => exact sound.step world
  | cancel =>
    exact ⟨sound.store, sound.suit, sound.gathered, sound.faithful, sound.before, sound.chained⟩

/-- Whatever happens to a run, its course stays sound. -/
theorem sound_follow (world : World σ) (cores targets : Int) (past : List Store.Request)
    (loop : PollLoop) (state : σ) (moves : List Move) :
    ((launched world cores targets past loop state).follow world moves).Sound cores targets := by
  have kept (course : Course σ) (sound : course.Sound cores targets) :
      (course.follow world moves).Sound cores targets := by
    induction moves generalizing course with
    | nil => exact sound
    | cons move rest inductionHypothesis =>
      exact inductionHypothesis (course.move world move) (sound.move world move)
  exact kept _ (sound_launched world cores targets past loop state)

end Course

end PollLoop

end RedirectMonitor
