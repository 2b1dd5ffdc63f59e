/-
This file compares the time intervals of different reports of a run. A report shows a group
over the interval from the time of its previous record to that of its current one, and shows
it at all only where this interval is not empty. The clock is taken to advance from reading to
reading.

The content is that the samples of a group come one after the other, whatever the sides they
went to, and that a record is never replaced by an earlier sample. So the intervals of a group
in two reports are disjoint unless both reports have the same newest side and every reading of
the group that went to the other side between them failed. In that case the later interval
starts where the earlier one did. A clock that shows times below zero adds one more case, since
a blank record has the time zero. Where no reports repeat, the increases of a counter that never
goes down add up to no more than its increase from the first report's previous record to the
last report's current one.
-/

import Mathlib
import RedirectMonitor.Proofs.Course
import RedirectMonitor.Proofs.Period

namespace RedirectMonitor

namespace Side

theorem other_ne (side : Side) : side.other ≠ side := by cases side <;> decide

theorem other_other (side : Side) : side.other.other = side := by cases side <;> rfl

theorem eq_or_eq_other (side other : Side) : side = other ∨ side = other.other := by
  cases side <;> cases other <;> decide

end Side

namespace Delivery

/-! ### The samples of a group in their order -/

/-- The samples that were delivered of a group, to whichever side. -/
def samplesOf (group : Group) (deliveries : List Delivery) : List Sample :=
  (ownOf group deliveries).filterMap fun delivery => delivery.reading.sample?

theorem samplesOf_append (group : Group) (first second : List Delivery) :
    samplesOf group (first ++ second) = samplesOf group first ++ samplesOf group second := by
  rw [samplesOf, ownOf_append, List.filterMap_append]
  rfl

theorem samplesOf_subset (group : Group) {first whole : List Delivery} (before : first <+: whole) :
    samplesOf group first ⊆ samplesOf group whole :=
  ((before.sublist.filter _).filterMap _).subset

theorem samples_subset_samplesOf (side : Side) (group : Group) (deliveries : List Delivery) :
    samples side group deliveries ⊆ samplesOf group deliveries := by
  intro sample member
  obtain ⟨reading, delivered, found⟩ := (mem_samples_iff side group deliveries sample).mp member
  exact List.mem_filterMap.mpr
    ⟨⟨side, group, reading⟩, List.mem_filter.mpr ⟨delivered, decide_eq_true rfl⟩, found⟩

/-- A record is one of the samples of its group, or what was there before. -/
theorem latest_mem_samplesOf (side : Side) (group : Group) (before : Sample)
    (deliveries : List Delivery) :
    latest side group before deliveries ∈ before :: samplesOf group deliveries := by
  rcases latest_mem side group before deliveries with untouched | delivered
  · rw [untouched]
    exact List.mem_cons_self
  · exact List.mem_cons_of_mem _ (samples_subset_samplesOf side group deliveries delivered)

section Order

variable {precedes : Sample → Sample → Prop} {before : Sample} {group : Group}
  {first second : List Delivery}
  (ordered : (before :: samplesOf group (first ++ second)).Pairwise precedes)

include ordered

/-- A sample comes after every record that there was before its delivery. -/
theorem latest_precedes (side other : Side) (sample : Sample)
    (new : sample ∈ samples other group second) :
    precedes (latest side group before first) sample := by
  rw [samplesOf_append, ← List.cons_append, List.pairwise_append] at ordered
  exact ordered.2.2 _ (latest_mem_samplesOf side group before first) _
    (samples_subset_samplesOf other group second new)

/-- A record is only replaced by samples that come after it. -/
theorem latest_precedes_latest (reflexive : ∀ sample, precedes sample sample) (side : Side) :
    precedes (latest side group before first) (latest side group before (first ++ second)) := by
  rw [latest_append]
  rcases latest_mem side group (latest side group before first) second with untouched | new
  · rw [untouched]
    exact reflexive _
  · exact latest_precedes ordered side side _ new

end Order

/-- A count of a group never goes down from reading to reading, nor below what it is in a blank
sample. -/
def NeverDecreases (count : Sample → Int) (cores : Nat) (group : Group)
    (deliveries : List Delivery) : Prop :=
  (Sample.blank cores :: samplesOf group deliveries).Pairwise fun earlier later =>
    count earlier ≤ count later

theorem NeverDecreases.of_prefix {count : Sample → Int} {cores : Nat} {group : Group}
    {first whole : List Delivery} (grows : NeverDecreases count cores group whole)
    (before : first <+: whole) : NeverDecreases count cores group first :=
  grows.sublist (((before.sublist.filter _).filterMap _).cons_cons _)

/-! ### A clock that advances -/

/-- The times of all readings that had values. -/
def times (deliveries : List Delivery) : List Int :=
  deliveries.filterMap fun delivery => delivery.reading.sample?.map Sample.time

theorem times_append (first second : List Delivery) :
    times (first ++ second) = times first ++ times second :=
  List.filterMap_append

theorem times_subset {first whole : List Delivery} (before : first <+: whole) :
    times first ⊆ times whole :=
  (before.sublist.filterMap _).subset

theorem times_of_group (group : Group) (deliveries : List Delivery) :
    ((samplesOf group deliveries).map Sample.time).Sublist (times deliveries) := by
  rw [samplesOf, ownOf, List.map_filterMap]
  exact List.filter_sublist.filterMap _

/-- The clock advances from reading to reading. -/
def ClockAdvances (deliveries : List Delivery) : Prop := (times deliveries).Pairwise (· < ·)

theorem ClockAdvances.of_prefix {first whole : List Delivery} (advances : ClockAdvances whole)
    (before : first <+: whole) : ClockAdvances first := by
  obtain ⟨rest, rfl⟩ := before
  rw [ClockAdvances, times_append] at advances
  exact (List.pairwise_append.mp advances).1

theorem ClockAdvances.pairwise {deliveries : List Delivery} (advances : ClockAdvances deliveries)
    (group : Group) :
    (samplesOf group deliveries).Pairwise fun earlier later => earlier.time < later.time :=
  List.pairwise_map.mp (advances.sublist (times_of_group group deliveries))

/-- A sample is blank or not later than another. -/
def BlankOrNotLater (cores : Nat) (earlier later : Sample) : Prop :=
  earlier = .blank cores ∨ earlier.time ≤ later.time

theorem BlankOrNotLater.refl (cores : Nat) (sample : Sample) :
    BlankOrNotLater cores sample sample :=
  .inr le_rfl

/-- The samples of a group are in the order of their times, but for a blank one before them. -/
theorem ClockAdvances.ordered {deliveries : List Delivery} (advances : ClockAdvances deliveries)
    (cores : Nat) (group : Group) :
    (Sample.blank cores :: samplesOf group deliveries).Pairwise (BlankOrNotLater cores) :=
  List.pairwise_cons.mpr
    ⟨fun _ _ => .inl rfl, (advances.pairwise group).imp fun late => .inr late.le⟩

end Delivery

namespace PollLoop

variable {σ : Type}

/-! ### The interval that a report shows -/

namespace Rendering

/-- The record of a group in the newest snapshot. -/
def current (rendering : Rendering) (group : Group) : Sample := rendering.view.current.sample group

/-- The record of a group in the other snapshot. -/
def previous (rendering : Rendering) (group : Group) : Sample :=
  rendering.view.previous.sample group

/-- The interval over which a report shows a group. -/
def interval (rendering : Rendering) (group : Group) : Set Int :=
  .Ioc (rendering.previous group).time (rendering.current group).time

/-- A report shows a group over time if the period of the group is positive. -/
def shows (group : Group) (rendering : Rendering) : Bool :=
  match (rendering.current group).secondsSince (rendering.previous group) with
  | .ok seconds => !seconds.isNonpositive
  | .error _ => false

theorem time_lt_of_shows {rendering : Rendering} {group : Group}
    (shown : rendering.shows group = true) :
    (rendering.previous group).time < (rendering.current group).time := by
  by_contra late
  rw [shows, Sample.secondsSince_of_le _ _ (not_lt.mp late)] at shown
  simp [Binary64.isNonpositive_zero] at shown

theorem Faithful.current_eq {cores targets : Int} {rendering : Rendering}
    (faithful : rendering.Faithful cores targets) {group : Group}
    (tracked : group ∈ Group.tracked targets) :
    rendering.current group = Delivery.latest rendering.view.newest group (.blank cores.toNat)
      rendering.deliveries := by
  rw [Rendering.current, faithful.current,
    Store.sample_deliverAll _ (Store.wellSized_blank cores targets) _ faithful.suit,
    Store.sample_blank cores targets _ group tracked]

theorem Faithful.previous_eq {cores targets : Int} {rendering : Rendering}
    (faithful : rendering.Faithful cores targets) {group : Group}
    (tracked : group ∈ Group.tracked targets) :
    rendering.previous group = Delivery.latest rendering.view.newest.other group
      (.blank cores.toNat) rendering.deliveries := by
  rw [Rendering.previous, faithful.previous,
    Store.sample_deliverAll _ (Store.wellSized_blank cores targets) _ faithful.suit,
    Store.sample_blank cores targets _ group tracked]

/-- The deliveries between two reports. -/
def between (earlier later : Rendering) : List Delivery :=
  later.deliveries.drop earlier.deliveries.length

/-- No reading of a group succeeded between two reports that was directed to the side which is not
the newest in either. -/
def Repeats (group : Group) (earlier later : Rendering) : Prop :=
  earlier.view.newest = later.view.newest ∧
    Delivery.samples earlier.view.newest.other group (between earlier later) = []

instance (group : Group) (earlier later : Rendering) : Decidable (Repeats group earlier later) :=
  inferInstanceAs (Decidable (_ ∧ _))

theorem append_between {earlier later : Rendering}
    (before : earlier.deliveries <+: later.deliveries) :
    earlier.deliveries ++ between earlier later = later.deliveries :=
  List.prefix_iff_eq_append.mp before

/-- The newest record of a group in the earlier of two reports is blank, and the other record of it
in the later one was read at a time below zero. -/
def Predates (cores : Nat) (group : Group) (earlier later : Rendering) : Prop :=
  earlier.current group = .blank cores ∧ (later.previous group).time < 0

section Pairs

variable {cores targets : Int} {earlier later : Rendering} {group : Group}
  (faithful : earlier.Faithful cores targets) (faithful' : later.Faithful cores targets)
  (before : earlier.deliveries <+: later.deliveries) (tracked : group ∈ Group.tracked targets)

include faithful faithful' before tracked

theorem previous_eq_of_repeats (repeats : Repeats group earlier later) :
    later.previous group = earlier.previous group := by
  obtain ⟨same, failed⟩ := repeats
  rw [faithful.previous_eq tracked, faithful'.previous_eq tracked, ← same, ← append_between before,
    Delivery.latest_append, Delivery.latest, failed]
  rfl

variable {precedes : Sample → Sample → Prop} (reflexive : ∀ sample, precedes sample sample)
  (ordered : (Sample.blank cores.toNat ::
    Delivery.samplesOf group later.deliveries).Pairwise precedes)

include reflexive ordered

/-- Where two reports do not repeat, the later one compares with a record that does not come before
the current record of the earlier one. -/
theorem current_precedes_previous (distinct : ¬ Repeats group earlier later) :
    precedes (earlier.current group) (later.previous group) := by
  rw [← append_between before] at ordered
  rw [faithful.current_eq tracked, faithful'.previous_eq tracked, ← append_between before]
  by_cases same : earlier.view.newest = later.view.newest
  · -- Some reading between the reports went to the other side and succeeded.
    have new := Delivery.latest_mem_of_ne_nil earlier.view.newest.other group
      (Delivery.latest earlier.view.newest.other group (.blank cores.toNat) earlier.deliveries)
      (between earlier later) fun failed => distinct ⟨same, failed⟩
    rw [← same, Delivery.latest_append]
    exact Delivery.latest_precedes ordered _ _ _ new
  · -- The previous record of the later report is on the side of the earlier report's current one.
    have swapped : earlier.view.newest = later.view.newest.other :=
      (Side.eq_or_eq_other _ _).resolve_left same
    rw [← swapped]
    exact Delivery.latest_precedes_latest ordered reflexive earlier.view.newest

/-- The record that a later report compares with does not come before that of an earlier one, unless
nothing was read that could be in its place. -/
theorem previous_precedes_previous (distinct : later.previous group ≠ earlier.current group) :
    precedes (earlier.previous group) (later.previous group) := by
  rw [← append_between before] at ordered
  rw [faithful.current_eq tracked, faithful'.previous_eq tracked,
    ← append_between before] at distinct
  rw [faithful.previous_eq tracked, faithful'.previous_eq tracked, ← append_between before]
  by_cases same : earlier.view.newest = later.view.newest
  · rw [← same]
    exact Delivery.latest_precedes_latest ordered reflexive earlier.view.newest.other
  · have swapped : earlier.view.newest = later.view.newest.other :=
      (Side.eq_or_eq_other _ _).resolve_left same
    rw [← swapped, Delivery.latest_append] at distinct ⊢
    have new := (Delivery.latest_mem earlier.view.newest group _ _).resolve_left distinct
    exact Delivery.latest_precedes ordered _ _ _ new

end Pairs

/-- Two reports that show a group do so over overlapping intervals just where they repeat, or where
the earlier one shows it up to a blank record and the later one from a time below zero. -/
theorem overlap_iff {cores targets : Int} {earlier later : Rendering} {group : Group}
    (faithful : earlier.Faithful cores targets) (faithful' : later.Faithful cores targets)
    (before : earlier.deliveries <+: later.deliveries) (tracked : group ∈ Group.tracked targets)
    (advances : Delivery.ClockAdvances later.deliveries) (shown : earlier.shows group = true)
    (shown' : later.shows group = true) :
    ¬ Disjoint (earlier.interval group) (later.interval group) ↔
      Repeats group earlier later ∨ Predates cores.toNat group earlier later := by
  have longer := time_lt_of_shows shown
  have longer' := time_lt_of_shows shown'
  have ordered := advances.ordered cores.toNat group
  unfold interval
  rw [Set.Ioc_disjoint_Ioc, not_le, max_lt_iff, lt_min_iff, lt_min_iff]
  by_cases repeats : Repeats group earlier later
  · have same := previous_eq_of_repeats faithful faithful' before tracked repeats
    rw [same] at longer' ⊢
    exact iff_of_true ⟨⟨longer, longer'⟩, longer, longer'⟩ (.inl repeats)
  · have apart := current_precedes_previous faithful faithful' before tracked
      (Delivery.BlankOrNotLater.refl _) ordered repeats
    rw [or_iff_right repeats]
    constructor
    · rintro ⟨-, early, -⟩
      have untouched := apart.resolve_right (not_le.mpr early)
      rw [untouched] at early
      exact ⟨untouched, early⟩
    · rintro ⟨untouched, early⟩
      rw [untouched] at longer ⊢
      have moved : later.previous group ≠ earlier.current group := by
        rintro same
        rw [same, untouched] at early
        exact absurd early (lt_irrefl _)
      have late := (previous_precedes_previous faithful faithful' before tracked
        (Delivery.BlankOrNotLater.refl _) ordered moved).resolve_left fun blank => by
          rw [blank] at longer
          exact absurd longer (lt_irrefl _)
      exact ⟨⟨longer, late.trans_lt longer'⟩, early, longer'⟩

/-! ### Increases add up -/

/-- How much a count of a group went up from its previous to its current record. -/
def increase (count : Sample → Int) (group : Group) (rendering : Rendering) : Int :=
  count (rendering.current group) - count (rendering.previous group)

/-- Over reports that follow each other in time, the increases of a count that never goes down
between a report and the next add up to at most its increase from first to last. -/
theorem sum_increases_le (count : Sample → Int) (group : Group) (first : Rendering)
    (rest : List Rendering)
    (chained : (first :: rest).IsChain fun earlier later =>
      count (earlier.current group) ≤ count (later.previous group)) :
    ((first :: rest).map (increase count group)).sum ≤
      count (((first :: rest).getLast (List.cons_ne_nil _ _)).current group) -
        count (first.previous group) := by
  induction rest generalizing first with
  | nil => simp [increase]
  | cons second rest inductionHypothesis =>
    obtain ⟨step, later⟩ := List.isChain_cons_cons.mp chained
    have tail := inductionHypothesis second later
    rw [List.map_cons, List.sum_cons, List.getLast_cons (List.cons_ne_nil _ _)]
    unfold increase at *
    omega

end Rendering

namespace Course

/-! ### The intervals of a run -/

/-- The reports of a course that show a group over time. -/
def shown (group : Group) (course : Course σ) : List Rendering :=
  course.renderings.filter (Rendering.shows group)

/-- Of all reports that show a group, an earlier and a later one do so over overlapping intervals
just where they repeat or, by a clock below zero, the earlier one predates what was read. -/
theorem Sound.pairwise_shown {cores targets : Int} {course : Course σ}
    (sound : course.Sound cores targets) (advances : Delivery.ClockAdvances course.deliveries)
    {group : Group} (tracked : group ∈ Group.tracked targets) :
    (course.shown group).Pairwise fun earlier later =>
      ¬ Disjoint (earlier.interval group) (later.interval group) ↔
        Rendering.Repeats group earlier later ∨
          Rendering.Predates cores.toNat group earlier later := by
  refine (sound.chained.sublist List.filter_sublist).imp_of_mem
    fun {earlier later} old new before => ?_
  obtain ⟨inCourse, showsGroup⟩ := List.mem_filter.mp old
  obtain ⟨inCourse', showsGroup'⟩ := List.mem_filter.mp new
  exact Rendering.overlap_iff (sound.faithful _ inCourse) (sound.faithful _ inCourse') before
    tracked (advances.of_prefix (sound.before _ inCourse')) showsGroup showsGroup'

/-- A record is never read at a time below zero if the clock never shows one. -/
theorem Sound.previous_time_nonneg {cores targets : Int} {course : Course σ}
    (sound : course.Sound cores targets) {group : Group} (tracked : group ∈ Group.tracked targets)
    (natural : ∀ time ∈ Delivery.times course.deliveries, 0 ≤ time) (rendering : Rendering)
    (member : rendering ∈ course.renderings) : 0 ≤ (rendering.previous group).time := by
  rw [(sound.faithful rendering member).previous_eq tracked]
  rcases List.mem_cons.mp (Delivery.latest_mem_samplesOf rendering.view.newest.other group
    (.blank cores.toNat) rendering.deliveries) with untouched | read
  · rw [untouched]
    exact le_rfl
  · have known := Delivery.samplesOf_subset group (sound.before rendering member) read
    exact natural _ ((Delivery.times_of_group group course.deliveries).subset
      (List.mem_map_of_mem known))

/-- Over reports of a course none of which repeats another, the increases of a count add up. -/
theorem Sound.sum_increases_le {cores targets : Int} {course : Course σ}
    (sound : course.Sound cores targets) {group : Group} (tracked : group ∈ Group.tracked targets)
    (count : Sample → Int)
    (grows : Delivery.NeverDecreases count cores.toNat group course.deliveries)
    (first : Rendering) (rest : List Rendering)
    (chosen : (first :: rest).Sublist course.renderings)
    (distinct : (first :: rest).Pairwise fun earlier later =>
      ¬ Rendering.Repeats group earlier later) :
    ((first :: rest).map (Rendering.increase count group)).sum ≤
      count (((first :: rest).getLast (List.cons_ne_nil _ _)).current group) -
        count (first.previous group) := by
  refine Rendering.sum_increases_le count group first rest (List.Pairwise.isChain ?_)
  refine ((sound.chained.sublist chosen).and distinct).imp_of_mem
    fun {earlier later} old new pair => ?_
  have grows' : Delivery.NeverDecreases count cores.toNat group later.deliveries :=
    grows.of_prefix (sound.before later (chosen.subset new))
  refine Rendering.current_precedes_previous (sound.faithful earlier (chosen.subset old))
    (sound.faithful later (chosen.subset new)) pair.1 tracked ?_ grows' pair.2
  exact fun sample => le_refl (count sample)

/-- In a run under a clock that advances, the intervals of two reports that show a group overlap
just where the reports have the same newest side and every reading of the group that went to the
other side between them failed; a clock that shows times below zero adds the reports that predate
what was read. Over reports of which no two are related in the first way, the increases of a count
that never goes down add up to at most its increase from the first to the last of them. -/
theorem intervals_overlap_iff_repeats (world : World σ) (cores targets : Int)
    (past : List Store.Request) (loop : PollLoop) (state : σ) (moves : List Move) (group : Group)
    (tracked : group ∈ Group.tracked targets) :
    let course := (launched world cores targets past loop state).follow world moves
    (Delivery.ClockAdvances course.deliveries →
      (course.shown group).Pairwise fun earlier later =>
        ¬ Disjoint (earlier.interval group) (later.interval group) ↔
          Rendering.Repeats group earlier later ∨
            Rendering.Predates cores.toNat group earlier later) ∧
    ((∀ time ∈ Delivery.times course.deliveries, 0 ≤ time) →
      ∀ earlier, ∀ later ∈ course.renderings,
        ¬ Rendering.Predates cores.toNat group earlier later) ∧
    ∀ count : Sample → Int,
      Delivery.NeverDecreases count cores.toNat group course.deliveries →
      ∀ first rest, (first :: rest).Sublist (course.shown group) →
        ((first :: rest).Pairwise fun earlier later =>
          ¬ Rendering.Repeats group earlier later) →
        ((first :: rest).map (Rendering.increase count group)).sum ≤
          count (((first :: rest).getLast (List.cons_ne_nil _ _)).current group) -
            count (first.previous group) := by
  have sound := sound_follow world cores targets past loop state moves
  refine ⟨fun advances => sound.pairwise_shown advances tracked, fun natural _ later member => ?_,
    fun count grows first rest chosen distinct => ?_⟩
  · rintro ⟨-, early⟩
    exact absurd early (not_lt.mpr (sound.previous_time_nonneg tracked natural later member))
  · exact sound.sum_increases_le tracked count grows first rest
      (chosen.trans List.filter_sublist) distinct

/-- A run of one core without targets. The second of its three reports could not read what the
core received. -/
def lapse : Course Script :=
  (launched .scripted 1 0 [] { store := .blank 1 0, interval := defaultInterval }
    { lines :=
        [.answered [⟨1000, 0⟩] (.ok 1000000000), .answered [⟨0, 0⟩] (.ok 1000000001),
          .answered [⟨0, 0⟩] (.ok 1000000002), .answered [⟨3000, 0⟩] (.ok 3000000000),
          .answered [⟨0, 0⟩] (.ok 3000000001), .answered [⟨0, 0⟩] (.ok 3000000002),
          .refused (.contained (.refused "rx_cnt" 0)), .answered [⟨0, 0⟩] (.ok 5000000001),
          .answered [⟨0, 0⟩] (.ok 5000000002), .answered [⟨3000, 0⟩] (.ok 7000000000),
          .answered [⟨0, 0⟩] (.ok 7000000001), .answered [⟨0, 0⟩] (.ok 7000000002)] }).follow
    .scripted (List.replicate 21 .step)

theorem intervals_overlap_in_lapse :
    (lapse.shown .rx).map (fun rendering =>
        ((rendering.previous .rx).time, (rendering.current .rx).time)) =
      [(1000000000, 3000000000), (1000000000, 7000000000)] ∧
    ¬ (lapse.shown .rx).Pairwise fun earlier later =>
      Disjoint (earlier.interval .rx) (later.interval .rx) := by
  have advances : Delivery.ClockAdvances lapse.deliveries := by
    unfold Delivery.ClockAdvances
    decide +kernel
  have overlap := (intervals_overlap_iff_repeats .scripted 1 0 [] _ _ _ .rx (by decide)).1 advances
  refine ⟨by decide +kernel, fun disjoint => ?_⟩
  have distinct : (lapse.shown .rx).Pairwise fun earlier later =>
      ¬ Rendering.Repeats .rx earlier later :=
    (disjoint.and overlap).imp fun pair repeats => pair.2.mpr (.inl repeats) pair.1
  exact absurd distinct (by decide +kernel)

end Course

end PollLoop

end RedirectMonitor
