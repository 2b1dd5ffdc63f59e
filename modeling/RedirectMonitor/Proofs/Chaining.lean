/-
This file says how the reports of a run hang together. A report is handed both snapshots of the
store, and the swap before a cycle makes the newest snapshot of one report the previous one of the
next.

The content is that nothing is directed into the newest snapshot of a report before the next report
is out: a cycle collects into the other one, and a report that is not rendered is not followed by
another cycle. So the previous snapshot of a report is the newest one of the report before it, on
the same side and with the same records, and that of the first report is what the first collection
left. A group all of whose readings have values is then shown over each time between two readings
exactly once, and its increases add up to that from the first reading to the last.
-/

import RedirectMonitor.Proofs.Silence

namespace RedirectMonitor

namespace Delivery

/-- Every reading of a group had values. -/
def Answered (group : Group) (deliveries : List Delivery) : Prop :=
  ∀ delivery ∈ deliveries, delivery.group = group → delivery.hasValues = true

instance (group : Group) (deliveries : List Delivery) : Decidable (Answered group deliveries) :=
  inferInstanceAs (Decidable (∀ delivery ∈ deliveries, _))

theorem samplesOf_singleton_self (delivery : Delivery) :
    samplesOf delivery.group [delivery] = delivery.reading.sample?.toList := by
  rw [samplesOf, ownOf_singleton_self]
  cases values : delivery.reading.sample? <;> simp [values]

theorem samplesOf_singleton_of_ne (delivery : Delivery) (group : Group)
    (different : delivery.group ≠ group) : samplesOf group [delivery] = [] := by
  rw [samplesOf, ownOf_singleton_of_ne _ _ different]
  rfl

end Delivery

namespace Store

/-! ### Snapshots with their sides -/

/-- The newest snapshot with its side. -/
def newer (store : Store) : Side × Snapshot := (store.newest, store.current)

/-- The other snapshot with its side. -/
def older (store : Store) : Side × Snapshot := (store.newest.other, store.previous)

/-- Which side is the newest has no say in the sizes. -/
theorem WellSized.withNewest {store : Store} (sized : store.WellSized) (newest : Side) :
    { store with newest }.WellSized := by
  have same (side : Side) : { store with newest }.snapshot side = store.snapshot side := by
    cases side <;> rfl
  refine ⟨fun side => ?_, fun side => ?_, fun side => ?_⟩
  · rw [same]
    exact sized.targets side
  · rw [same]
    exact sized.cores side
  · rw [same]
    exact sized.totals side

/-- A swap moves nothing, so that what was the newest snapshot is the other one then. -/
theorem older_swap (store : Store) : store.swap.older = store.newer := by
  show (store.newest.other.other, store.snapshot store.newest.other.other) = _
  rw [Side.other_other]
  rfl

/-- What is delivered to the newest side leaves the other one as it is. -/
theorem older_deliver (store : Store) (delivery : Delivery) (own : delivery.side = store.newest) :
    (store.deliver delivery).older = store.older := by
  have apart : store.newest.other ≠ delivery.side := by
    rw [own]
    exact store.newest.other_ne
  show ((store.deliver delivery).newest.other,
    (store.deliver delivery).snapshot (store.deliver delivery).newest.other) = _
  rw [deliver_newest, snapshot_deliver_of_ne store delivery _ apart]
  rfl

end Store

namespace PollLoop

variable {σ : Type}

namespace Rendering

/-- The newest snapshot of a report with its side. -/
def newer (rendering : Rendering) : Side × Snapshot :=
  (rendering.view.newest, rendering.view.current)

/-- The snapshot that a report compares with, with its side. -/
def older (rendering : Rendering) : Side × Snapshot :=
  (rendering.view.newest.other, rendering.view.previous)

/-- What a report after others has to compare with: the newest snapshot of the last of them, or else
what the first collection left. -/
def baseline (primed : Store) (renderings : List Rendering) : Side × Snapshot :=
  (renderings.getLast?.map newer).getD primed.newer

end Rendering

/-! ### What a step does to the snapshots -/

/-- The end of a cycle's collection leaves the run, or renders one report from the two snapshots and
leaves these as they are. -/
theorem views_of_completeCollection (failed : Nat) (loop : PollLoop) (state : σ) :
    let next := completeCollection .cycle failed loop state
    let views := next.events.filterMap Event.view?
    (views = [] ∧ ∃ fault, next.phase = .leaving fault) ∨
      (∃ rows, views = [⟨loop.store.newest, loop.store.current, loop.store.previous, rows⟩]) ∧
        next.phase = .rendered ∧ next.loop.store = loop.store := by
  have stale : (if failed = 0 then [] else
      [Event.noted (.staleGroups failed)]).filterMap Event.view? = [] := by
    split <;> rfl
  unfold completeCollection
  dsimp only
  split
  · exact .inl ⟨stale, none, rfl⟩
  · simp only [List.filterMap_append, stale, List.nil_append]
    unfold render
    dsimp only
    split
    · exact .inl ⟨Event.view?_of_noted _, _, rfl⟩
    · rename_i rows outcome
      refine .inr ⟨⟨rows, ?_⟩, rfl, rfl⟩
      rw [List.filterMap_append, Event.view?_of_noted]
      rfl

/-- No other step renders a report. -/
theorem views_eq_nil (world : World σ) {phase : Phase} (loop : PollLoop) (state : σ)
    (incomplete : ∀ side failed, phase ≠ .collecting .cycle side [] failed) :
    (step world phase loop state).events.filterMap Event.view? = [] := by
  refine List.eq_nil_iff_forall_not_mem.mpr fun view member => ?_
  obtain ⟨⟨side, failed, complete⟩, -⟩ := view_of_step world phase loop state view member
  exact incomplete side failed complete

/-- Where a run stands with what its next report has to compare with. Before the first report a
collection leads to the store that it will leave. -/
def Phase.Links (world : World σ) (primed : Store) (renderings : List Rendering) (store : Store)
    (state : σ) : Phase → Prop
  | .launched => renderings = [] ∧ (store.collect world state).store = primed
  | .collecting .priming side left _ =>
    renderings = [] ∧ (Store.collectGroups world side left store state).store = primed
  | .collecting .cycle _ _ _ => store.older = Rendering.baseline primed renderings
  | .rendered | .waiting => store.newer = Rendering.baseline primed renderings
  | .leaving _ | .over _ => True

theorem links_readNext (world : World σ) (primed : Store) (renderings : List Rendering)
    (purpose : Purpose) (group : Group) (left : List Group) (failed : Nat) (loop : PollLoop)
    (state : σ)
    (links : Phase.Links world primed renderings loop.store state
      (.collecting purpose loop.store.newest (group :: left) failed)) :
    let next := readNext world purpose loop.store.newest group left failed loop state
    next.phase.Links world primed renderings next.loop.store next.state := by
  unfold readNext
  dsimp only
  cases fault : (loop.store.readGroup world loop.store.newest group state).fault with
  | some fault => exact trivial
  | none =>
    cases purpose with
    | priming =>
      obtain ⟨unrendered, leads⟩ := links
      rw [Store.collectGroups, fault] at leads
      exact ⟨unrendered, leads⟩
    | cycle =>
      have kept : (loop.store.readGroup world loop.store.newest group state).store.older =
          loop.store.older := Store.older_deliver loop.store ⟨loop.store.newest, group, _⟩ rfl
      exact kept.trans links

theorem links_beginCycle (world : World σ) (primed : Store) (renderings : List Rendering)
    (loop : PollLoop) (state : σ)
    (links : loop.store.newer = Rendering.baseline primed renderings) :
    let next := beginCycle loop state
    next.phase.Links world primed renderings next.loop.store next.state :=
  loop.store.older_swap.trans links

/-- A step that renders no report keeps what the next one has to compare with. -/
theorem links_step (world : World σ) (primed : Store) (renderings : List Rendering)
    {phase : Phase} (loop : PollLoop) (state : σ) (deliveries : List Delivery)
    (incomplete : ∀ side failed, phase ≠ .collecting .cycle side [] failed)
    (gathered : phase.Gathered loop.store deliveries)
    (links : phase.Links world primed renderings loop.store state) :
    let next := step world phase loop state
    next.phase.Links world primed renderings next.loop.store next.state := by
  cases phase with
  | launched =>
    simp only [step, launch]
    split
    · exact trivial
    · exact links
  | collecting purpose side left failed =>
    obtain ⟨rfl, -⟩ := gathered
    cases left with
    | cons group left =>
      exact links_readNext world primed renderings purpose group left failed loop state links
    | nil =>
      cases purpose with
      | priming =>
        obtain ⟨rfl, rfl⟩ := links
        simp only [step, completeCollection]
        split
        · exact trivial
        · exact links_beginCycle world _ [] loop state rfl
      | cycle => exact absurd rfl (incomplete loop.store.newest failed)
  | rendered => exact links
  | waiting =>
    simp only [step]
    rcases wait_cases world loop state with ⟨-, same⟩ | ⟨-, ⟨_, -, same⟩ | same⟩ <;> rw [same]
    · exact trivial
    · exact trivial
    · exact links_beginCycle world primed renderings loop state links
  | leaving fault | «over» fault => exact trivial

namespace Course

/-! ### What a course keeps of its reports -/

/-- The next step of a course renders no report as long as no cycle's collection is complete, and
then it leaves the run or renders one report from the two snapshots. -/
theorem step_report_cases (world : World σ) (course : Course σ) :
    let next := course.step world
    ((∀ side failed, course.phase ≠ .collecting .cycle side [] failed) ∧
        next.renderings = course.renderings) ∨
      ((∃ fault, next.phase = .leaving fault) ∧ next.renderings = course.renderings) ∨
      ∃ side failed rows, course.phase = .collecting .cycle side [] failed ∧
        next.phase = .rendered ∧ next.loop.store = course.loop.store ∧
        next.deliveries = course.deliveries ∧ next.renderings = course.renderings ++
          [⟨⟨course.loop.store.newest, course.loop.store.current, course.loop.store.previous, rows⟩,
            course.deliveries⟩] := by
  intro next
  have renderings : next.renderings = course.renderings ++
      ((PollLoop.step world course.phase course.loop course.state).events.filterMap
        Event.view?).map fun view => ⟨view, next.deliveries⟩ := rfl
  by_cases incomplete : ∀ side failed, course.phase ≠ .collecting .cycle side [] failed
  · rw [views_eq_nil world course.loop course.state incomplete, List.map_nil,
      List.append_nil] at renderings
    exact .inl ⟨incomplete, renderings⟩
  · push Not at incomplete
    obtain ⟨side, failed, complete⟩ := incomplete
    have completes : PollLoop.step world course.phase course.loop course.state =
        completeCollection .cycle failed course.loop course.state := by
      rw [complete]
      rfl
    have phase : next.phase = _ := congrArg Step.phase completes
    have store : next.loop.store = _ := congrArg (fun step => step.loop.store) completes
    have deliveries : next.deliveries = course.deliveries := by
      show _ ++ (nextDelivery? world course.phase course.loop course.state).toList = _
      rw [complete]
      exact List.append_nil _
    rw [completes] at renderings
    right
    rcases views_of_completeCollection failed course.loop course.state with
      ⟨silent, fault, leaves⟩ | ⟨⟨rows, reports⟩, rendered, kept⟩
    · rw [silent, List.map_nil, List.append_nil] at renderings
      exact .inl ⟨⟨fault, phase.trans leaves⟩, renderings⟩
    · rw [reports, List.map_singleton, deliveries] at renderings
      exact .inr ⟨side, failed, rows, complete, phase.trans rendered, store.trans kept, deliveries,
        renderings⟩

/-- The first report compares with what the first collection left, and each other one with the
newest snapshot of the report before it. -/
structure Linked (world : World σ) (primed : Store) (course : Course σ) : Prop where
  first : ∀ first ∈ course.renderings.head?, first.older = primed.newer
  chained : course.renderings.IsChain fun earlier later => later.older = earlier.newer
  next : course.phase.Links world primed course.renderings course.loop.store course.state

/-- One more report that compares with the baseline is linked to those before it. -/
theorem chained_concat {primed : Store} {renderings : List Rendering} {rendering : Rendering}
    (first : ∀ first ∈ renderings.head?, first.older = primed.newer)
    (chained : renderings.IsChain fun earlier later => later.older = earlier.newer)
    (compares : rendering.older = Rendering.baseline primed renderings) :
    (∀ first ∈ (renderings ++ [rendering]).head?, first.older = primed.newer) ∧
      (renderings ++ [rendering]).IsChain fun earlier later => later.older = earlier.newer := by
  constructor
  · cases renderings with
    | nil =>
      rintro first same
      obtain rfl := Option.some.inj same
      exact compares
    | cons => exact first
  · refine List.isChain_append.mpr ⟨chained, List.isChain_singleton _, ?_⟩
    rintro earlier last later same
    obtain rfl := Option.some.inj same
    rw [compares, Rendering.baseline, Option.mem_def.mp last]
    rfl

theorem Linked.step {cores targets : Int} {world : World σ} {primed : Store} {course : Course σ}
    (linked : course.Linked world primed) (sound : course.Sound cores targets) :
    (course.step world).Linked world primed := by
  obtain ⟨first, chained, links⟩ := linked
  rcases course.step_report_cases world with ⟨incomplete, same⟩ | ⟨⟨fault, leaves⟩, same⟩ |
    ⟨side, failed, rows, complete, rendered, kept, -, more⟩
  · refine ⟨by rwa [same], by rwa [same], ?_⟩
    rw [same]
    exact links_step world primed _ course.loop course.state _ incomplete sound.gathered links
  · refine ⟨by rwa [same], by rwa [same], ?_⟩
    rw [leaves]
    exact trivial
  · rw [complete] at links
    set rendering : Rendering := ⟨⟨course.loop.store.newest, course.loop.store.current,
      course.loop.store.previous, rows⟩, course.deliveries⟩
    have compares : rendering.older = Rendering.baseline primed course.renderings := links
    obtain ⟨first, chained⟩ := chained_concat first chained compares
    refine ⟨by rwa [more], by rwa [more], ?_⟩
    rw [rendered, more, kept]
    show course.loop.store.newer = Rendering.baseline primed (course.renderings ++ [rendering])
    rw [Rendering.baseline, List.getLast?_concat]
    rfl

theorem Linked.move {cores targets : Int} {world : World σ} {primed : Store} {course : Course σ}
    (linked : course.Linked world primed) (sound : course.Sound cores targets) (move : Move) :
    (course.move world move).Linked world primed := by
  cases move with
  | step => exact linked.step sound
  | cancel => exact ⟨linked.first, linked.chained, linked.next⟩

end Course

/-! ### What a group's readings leave in the reports -/

/-- The samples that were read before a collection: none before the first one. -/
def Purpose.earlier (reported : List Sample) : Purpose → List Sample
  | .priming => []
  | .cycle => reported

/-- Where a run stands with the samples of a group all of whose readings have values: the samples
that were reported, and one more if the collection at hand has come past the group. -/
def Phase.Gleaned (group : Group) (store : Store) (reported samples : List Sample) : Phase → Prop
  | .launched => samples = []
  | .collecting purpose _ left _ =>
    samples = purpose.earlier reported ++ if group ∈ left then [] else [store.current.sample group]
  | .rendered | .waiting => samples = reported
  | .leaving _ | .over _ => True

theorem gleaned_readNext (world : World σ) (purpose : Purpose) (group own : Group)
    (left : List Group) (failed : Nat) (loop : PollLoop) (state : σ)
    (reported samples : List Sample) (sized : loop.store.WellSized)
    (distinct : (group :: left).Nodup)
    (gleaned : Phase.Gleaned own loop.store reported samples
      (.collecting purpose loop.store.newest (group :: left) failed)) :
    let delivery : Delivery := ⟨loop.store.newest, group,
      (world.read loop.store.cores group.address.map group.address.key state).1⟩
    let next := readNext world purpose loop.store.newest group left failed loop state
    loop.store.Suits delivery → (group = own → delivery.hasValues = true) →
      next.phase.Gleaned own next.loop.store reported
        (samples ++ Delivery.samplesOf own [delivery]) := by
  intro delivery next suits answered
  rcases phase_readNext world purpose loop.store.newest group left failed loop state with
    ⟨fault, same⟩ | ⟨failed', same⟩
  · rw [same]
    exact trivial
  · have before : samples = purpose.earlier reported ++
      if own ∈ group :: left then [] else [loop.store.current.sample own] := gleaned
    have record : next.loop.store.current.sample own =
        (delivery.sampleFor? loop.store.newest own).getD (loop.store.current.sample own) := by
      show ((loop.store.deliver delivery).snapshot
        (loop.store.deliver delivery).newest).sample own = _
      rw [Store.deliver_newest]
      exact Store.sample_deliver loop.store sized delivery suits _ own
    rw [same]
    show _ = purpose.earlier reported ++ if own ∈ left then [] else [_]
    rw [record]
    by_cases same : group = own
    · subst same
      obtain ⟨sample, values⟩ := Option.isSome_iff_exists.mp (answered rfl)
      have received : delivery.sampleFor? loop.store.newest group = some sample :=
        (if_pos ⟨rfl, rfl⟩).trans values
      rw [if_pos List.mem_cons_self, List.append_nil] at before
      rw [before, Delivery.samplesOf_singleton_self delivery, values, received,
        if_neg (List.nodup_cons.mp distinct).1]
      rfl
    · have untouched : delivery.sampleFor? loop.store.newest own = none :=
        if_neg fun both => same both.2
      rw [before, Delivery.samplesOf_singleton_of_ne delivery own same, untouched, List.append_nil]
      simp [Ne.symm same]

/-- The samples of a group that a run has shown: that of the first collection, and the newest one of
each report. -/
def Rendering.samplesShown (primed : Store) (group : Group) (renderings : List Rendering) :
    List Sample :=
  primed.current.sample group :: renderings.map fun rendering => rendering.current group

theorem gleaned_beginCycle (own : Group) (loop : PollLoop) (state : σ) (reported : List Sample)
    (tracked : own ∈ loop.store.groups) :
    let next := beginCycle loop state
    next.phase.Gleaned own next.loop.store reported reported := by
  show reported = reported ++ if own ∈ loop.store.groups then [] else [_]
  rw [if_pos tracked, List.append_nil]

namespace Course

theorem Sound.wellSized {cores targets : Int} {course : Course σ}
    (sound : course.Sound cores targets) : course.loop.store.WellSized := by
  obtain ⟨newest, same⟩ := sound.store
  rw [same]
  exact ((Store.wellSized_blank cores targets).deliverAll _ sound.suit).withNewest newest

theorem Sound.suits_store {cores targets : Int} {course : Course σ}
    (sound : course.Sound cores targets) (world : World σ) (delivery : Delivery)
    (next : delivery ∈ nextDelivery? world course.phase course.loop course.state) :
    course.loop.store.Suits delivery := by
  obtain ⟨tracked, fits⟩ := sound.suits_next world delivery next
  rw [Store.Suits, sound.groups, sound.cores]
  exact ⟨tracked, fits⟩

/-- A step that renders no report leaves the samples of a group as many as the phase says, if the
reading that it makes has values in case that it is one of the group. -/
theorem Linked.gleaned {cores targets : Int} {world : World σ} {primed : Store} {course : Course σ}
    (linked : course.Linked world primed) (sound : course.Sound cores targets) {own : Group}
    (tracked : own ∈ Group.tracked targets) {samples : List Sample}
    (incomplete : ∀ side failed, course.phase ≠ .collecting .cycle side [] failed)
    (answered : ∀ delivery ∈ nextDelivery? world course.phase course.loop course.state,
      delivery.group = own → delivery.hasValues = true)
    (gleaned : course.phase.Gleaned own course.loop.store
      (Rendering.samplesShown primed own course.renderings) samples) :
    let next := PollLoop.step world course.phase course.loop course.state
    next.phase.Gleaned own next.loop.store (Rendering.samplesShown primed own course.renderings)
      (samples ++ Delivery.samplesOf own
        (nextDelivery? world course.phase course.loop course.state).toList) := by
  have sized := sound.wellSized
  have suits := sound.suits_store world
  have distinct := Group.tracked_nodup targets
  rw [← sound.groups] at tracked distinct
  have gathered := sound.gathered
  have links := linked.next
  obtain ⟨phase, loop, state, deliveries, renderings⟩ := course
  dsimp only at *
  cases phase with
  | launched =>
    obtain rfl : samples = [] := gleaned
    simp only [PollLoop.step, launch]
    split
    · exact trivial
    · show [] = [] ++ if own ∈ loop.store.groups then [] else [_]
      rw [if_pos tracked, List.append_nil]
  | collecting purpose side left failed =>
    obtain ⟨rfl, done, split, -⟩ := gathered
    cases left with
    | cons group left =>
      rw [split] at distinct
      exact gleaned_readNext world purpose group own left failed loop state _ samples sized
        (List.nodup_append.mp distinct).2.1 gleaned (suits _ rfl) (answered _ rfl)
    | nil =>
      cases purpose with
      | priming =>
        obtain ⟨rfl, rfl⟩ := links
        obtain rfl : samples = [] ++ if own ∈ [] then [] else [loop.store.current.sample own] :=
          gleaned
        simp only [PollLoop.step, completeCollection]
        split
        · exact trivial
        · exact gleaned_beginCycle own loop state _ tracked
      | cycle => exact absurd rfl (incomplete loop.store.newest failed)
  | rendered =>
    obtain rfl : samples = _ := gleaned
    exact List.append_nil _
  | waiting =>
    obtain rfl : samples = _ := gleaned
    simp only [PollLoop.step]
    rcases wait_cases world loop state with ⟨-, same⟩ | ⟨-, ⟨_, -, same⟩ | same⟩ <;> rw [same]
    · exact trivial
    · exact trivial
    · show Phase.Gleaned own _ _ (_ ++ []) _
      rw [List.append_nil]
      exact gleaned_beginCycle own loop state _ tracked
  | leaving fault | «over» fault => exact trivial

/-- What a course keeps of a group all of whose readings have values in the run: the samples that
were read up to the last report are those that the run has shown. -/
structure Gleaned (before : List Delivery) (primed : Store) (group : Group) (course : Course σ) :
    Prop where
  next : ∃ made, course.deliveries = before ++ made ∧ (Delivery.Answered group made →
    course.phase.Gleaned group course.loop.store
      (Rendering.samplesShown primed group course.renderings) (Delivery.samplesOf group made))
  last : ∀ last ∈ course.renderings.getLast?, ∃ made, last.deliveries = before ++ made ∧
    (Delivery.Answered group made → Delivery.samplesOf group made =
      Rendering.samplesShown primed group course.renderings)

theorem Gleaned.step {cores targets : Int} {world : World σ} {before : List Delivery}
    {primed : Store} {group : Group} {course : Course σ}
    (gleaned : course.Gleaned before primed group) (linked : course.Linked world primed)
    (sound : course.Sound cores targets) (tracked : group ∈ Group.tracked targets) :
    (course.step world).Gleaned before primed group := by
  obtain ⟨⟨made, grown, next⟩, last⟩ := gleaned
  have grown' : (course.step world).deliveries = before ++ (made ++
      (nextDelivery? world course.phase course.loop course.state).toList) := by
    rw [← List.append_assoc, ← grown]
    rfl
  rcases course.step_report_cases world with ⟨incomplete, same⟩ | ⟨⟨fault, leaves⟩, same⟩ |
    ⟨side, failed, rows, complete, rendered, kept, unread, more⟩
  · refine ⟨⟨_, grown', fun answered => ?_⟩, by rwa [same]⟩
    rw [same, Delivery.samplesOf_append]
    refine linked.gleaned sound tracked incomplete (fun delivery member => answered delivery ?_)
      (next fun delivery member => answered delivery (List.mem_append_left _ member))
    exact List.mem_append_right _ (Option.mem_toList.mpr member)
  · refine ⟨⟨_, grown', fun _ => ?_⟩, by rwa [same]⟩
    rw [leaves]
    exact trivial
  · -- The report shows the one sample that its collection added to those shown before.
    rw [complete] at next
    set rendering : Rendering := ⟨⟨course.loop.store.newest, course.loop.store.current,
      course.loop.store.previous, rows⟩, course.deliveries⟩
    have shown (answered : Delivery.Answered group made) : Delivery.samplesOf group made =
        Rendering.samplesShown primed group (course.renderings ++ [rendering]) := by
      have samples : Delivery.samplesOf group made =
          Rendering.samplesShown primed group course.renderings ++
            [course.loop.store.current.sample group] := next answered
      rw [samples, Rendering.samplesShown, Rendering.samplesShown, List.map_append]
      rfl
    refine ⟨⟨made, unread.trans grown, ?_⟩, ?_⟩
    · rw [rendered, more]
      exact shown
    · rw [more, List.getLast?_concat]
      rintro newest same
      obtain rfl := Option.some.inj same
      exact ⟨made, grown, shown⟩

theorem Gleaned.move {cores targets : Int} {world : World σ} {before : List Delivery}
    {primed : Store} {group : Group} {course : Course σ}
    (gleaned : course.Gleaned before primed group) (linked : course.Linked world primed)
    (sound : course.Sound cores targets) (tracked : group ∈ Group.tracked targets) (move : Move) :
    (course.move world move).Gleaned before primed group := by
  cases move with
  | step => exact gleaned.step linked sound tracked
  | cancel => exact ⟨gleaned.next, gleaned.last⟩

theorem linked_launched (world : World σ) (cores targets : Int) (past : List Store.Request)
    (loop : PollLoop) (state : σ) :
    let start := launched world cores targets past loop state
    start.Linked world (start.loop.store.collect world start.state).store :=
  ⟨(fun _ member => by cases member), List.isChain_nil, rfl, rfl⟩

theorem gleaned_launched (world : World σ) (cores targets : Int) (past : List Store.Request)
    (loop : PollLoop) (state : σ) (primed : Store) (group : Group) :
    let start := launched world cores targets past loop state
    start.Gleaned start.deliveries primed group :=
  ⟨⟨[], (List.append_nil _).symm, fun _ => rfl⟩, fun _ member => by cases member⟩

/-- Whatever happens to a run, its reports stay linked, and show the samples that were read. -/
theorem linked_follow (world : World σ) (cores targets : Int) (past : List Store.Request)
    (loop : PollLoop) (state : σ) (moves : List Move) :
    let start := launched world cores targets past loop state
    let primed := (start.loop.store.collect world start.state).store
    let course := start.follow world moves
    course.Linked world primed ∧
      ∀ group ∈ Group.tracked targets, course.Gleaned start.deliveries primed group := by
  intro start primed course
  have kept : course.Sound cores targets ∧ course.Linked world primed ∧
      ∀ group ∈ Group.tracked targets, course.Gleaned start.deliveries primed group := by
    refine List.foldlRecOn (motive := fun course : Course σ => course.Sound cores targets ∧
      course.Linked world primed ∧
      ∀ group ∈ Group.tracked targets, course.Gleaned start.deliveries primed group) moves
      (move world) ⟨sound_launched world cores targets past loop state,
        linked_launched world cores targets past loop state, fun group _ =>
          gleaned_launched world cores targets past loop state primed group⟩ ?_
    rintro course ⟨sound, linked, gleaned⟩ move -
    exact ⟨sound.move world move, linked.move sound move,
      fun group tracked => (gleaned group tracked).move linked sound tracked move⟩
  exact kept.2

end Course

namespace Rendering

section Chain

variable (group : Group) (sample : Sample) (renderings : List Rendering)
  (first : ∀ first ∈ renderings.head?, first.previous group = sample)
  (chained : renderings.IsChain fun earlier later =>
    later.previous group = earlier.current group)

include first chained

/-- The records that chained reports compare are the neighbours in the row of their newest ones. -/
theorem pairs_eq_zip :
    renderings.map (fun rendering => (rendering.previous group, rendering.current group)) =
      (sample :: renderings.map (current · group)).zip (renderings.map (current · group)) := by
  induction renderings generalizing sample with
  | nil => rfl
  | cons rendering rest inductionHypothesis =>
    obtain ⟨next, chained⟩ := List.isChain_cons.mp chained
    rw [List.map_cons, List.map_cons, List.zip_cons_cons, first rendering rfl,
      inductionHypothesis (rendering.current group) next chained]

/-- The increases of a count over chained reports add up to that over the whole time. -/
theorem sum_increases_eq (count : Sample → Int) (last : Rendering)
    (newest : last ∈ renderings.getLast?) :
    (renderings.map (increase count group)).sum =
      count (last.current group) - count sample := by
  induction renderings generalizing sample with
  | nil => cases newest
  | cons rendering rest inductionHypothesis =>
    obtain ⟨next, chained⟩ := List.isChain_cons.mp chained
    have begins := first rendering rfl
    rw [List.map_cons, List.sum_cons, increase, begins]
    cases rest with
    | nil =>
      obtain rfl := Option.some.inj newest
      simp
    | cons second rest =>
      rw [inductionHypothesis (rendering.current group) next chained newest]
      omega

end Chain

end Rendering

namespace Course

/-- The reports of a run are chained: each is handed the two snapshots of the store, the newest one
of a report is the previous one of the next, on the same side and with the same records, and the
first report compares with what the first collection left. The samples of a group all of whose
readings have values are the one of the first collection and one for each report, so that the
reports show the group from each sample to the next, and its increases add up to that from the
first sample to the last. -/
theorem reports_chained (world : World σ) (cores targets : Int) (past : List Store.Request)
    (loop : PollLoop) (state : σ) (moves : List Move) :
    let start := launched world cores targets past loop state
    let primed := (start.loop.store.collect world start.state).store
    let course := start.follow world moves
    (∀ rendering ∈ course.renderings,
      let store := (Store.blank cores targets).deliverAll rendering.deliveries
      rendering.view.current = store.snapshot rendering.view.newest ∧
        rendering.view.previous = store.snapshot rendering.view.newest.other ∧
        rendering.view.newest.other ≠ rendering.view.newest) ∧
    (∀ first ∈ course.renderings.head?,
      first.view.newest.other = start.loop.store.newest ∧
        first.view.previous = primed.snapshot start.loop.store.newest) ∧
    (course.renderings.IsChain fun earlier later =>
      later.view.newest.other = earlier.view.newest ∧
        later.view.previous = earlier.view.current) ∧
    ∀ group ∈ Group.tracked targets, ∀ last ∈ course.renderings.getLast?,
      let made := last.deliveries.drop start.deliveries.length
      let samples := Delivery.samplesOf group made
      Delivery.Answered group made →
        samples = primed.current.sample group :: course.renderings.map (·.current group) ∧
        course.renderings.map (fun rendering =>
          (rendering.previous group, rendering.current group)) = samples.zip samples.tail ∧
        ∀ count : Sample → Int, (course.renderings.map (Rendering.increase count group)).sum =
          count (last.current group) - count (primed.current.sample group) := by
  intro start primed course
  have sound : course.Sound cores targets :=
    sound_follow world cores targets past loop state moves
  obtain ⟨⟨first, chained, -⟩, gleaned⟩ :=
    linked_follow world cores targets past loop state moves
  have newest : primed.newest = start.loop.store.newest := by
    show (Store.collectGroups _ _ _ _ _).store.newest = _
    rw [(Store.collectGroups_eq _ _ _ _ _).1, Store.deliverAll_newest]
  refine ⟨fun rendering member => ?_, fun rendering member => ?_,
    chained.imp fun earlier later linked => ?_, fun group tracked last inLast => ?_⟩
  · have faithful := sound.faithful rendering member
    exact ⟨faithful.current, faithful.previous, rendering.view.newest.other_ne⟩
  · obtain ⟨side, snapshot⟩ := Prod.mk.inj (first rendering member)
    rw [← newest]
    exact ⟨side, snapshot⟩
  · exact Prod.mk.inj linked
  · intro made samples answered
    obtain ⟨made', grown, shown⟩ := (gleaned group tracked).last last inLast
    have same : made = made' := by
      show last.deliveries.drop _ = _
      rw [grown, List.drop_left]
    have row : samples =
        primed.current.sample group :: course.renderings.map (·.current group) := by
      rw [← same] at shown
      exact shown answered
    have begins : ∀ first ∈ course.renderings.head?,
        first.previous group = primed.current.sample group := fun rendering member =>
      congrArg (fun held => held.2.sample group) (first rendering member)
    have continues : course.renderings.IsChain fun earlier later =>
        later.previous group = earlier.current group :=
      chained.imp fun _ _ linked => congrArg (fun held => held.2.sample group) linked
    refine ⟨row, ?_, fun count => ?_⟩
    · rw [row]
      exact Rendering.pairs_eq_zip group _ course.renderings begins continues
    · exact Rendering.sum_increases_eq group _ course.renderings begins continues count last inLast

/-- A run of one core without targets that is asked to end after its second report. The collection
of the first one could not read what the core received. -/
def relay : Course Script :=
  (launched .scripted 1 0 [] { store := .blank 1 0, interval := defaultInterval }
    { lines :=
        [.answered [⟨100, 0⟩] (.ok 1000000000), .answered [⟨5, 0⟩] (.ok 1000000001),
          .answered [⟨0, 0⟩] (.ok 1000000002), .refused (.contained (.refused "rx_cnt" 0)),
          .answered [⟨8, 0⟩] (.ok 3000000001), .answered [⟨0, 0⟩] (.ok 3000000002),
          .answered [⟨700, 0⟩] (.ok 5000000000), .answered [⟨20, 0⟩] (.ok 5000000001),
          .answered [⟨0, 0⟩] (.ok 5000000002)] }).follow
    .scripted (List.replicate 15 .step ++ [.cancel, .step, .step, .step])

theorem reports_chained_relay :
    (relay.renderings.map fun rendering => ((rendering.previous .redirectErr).total.processed,
        (rendering.current .redirectErr).total.processed)) = [(5, 8), (8, 20)] ∧
      relay.renderings.map (·.view.newest) = [.second, .first] ∧
      (relay.renderings.map
        (Rendering.increase (fun sample => sample.total.processed) .redirectErr)).sum = 15 ∧
      relay.renderings.IsChain fun earlier later =>
        later.view.newest.other = earlier.view.newest ∧
          later.view.previous = earlier.view.current := by
  obtain ⟨-, -, chained, telescopes⟩ := reports_chained .scripted 1 0 [] _ _ _
  have reported : relay.renderings.getLast?.isSome = true := by decide +kernel
  obtain ⟨last, inLast⟩ := Option.isSome_iff_exists.mp reported
  have ends : ∀ last ∈ relay.renderings.getLast?,
      Delivery.Answered .redirectErr (last.deliveries.drop 0) ∧
        (last.current .redirectErr).total.processed = 20 := by
    decide +kernel
  obtain ⟨answered, counted⟩ := ends last inLast
  obtain ⟨-, -, sums⟩ := telescopes .redirectErr (by decide) last inLast answered
  have sum := sums fun sample => sample.total.processed
  rw [counted] at sum
  exact ⟨by decide +kernel, by decide +kernel, sum.trans (by decide +kernel), chained⟩

end Course

end PollLoop

end RedirectMonitor
