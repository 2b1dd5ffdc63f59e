/-
This file says when a report takes a counter for one that started anew although it never goes down.
A report compares the record on its newest side with the record on the other one, and after a failed
reading the other one can be the later of the two.

The content is that over counters that never go down a rate is flagged just where the last reading of
its group that had values did not go to the newest side and the counters of the two records differ;
then it is the older reading that is compared with the newer one. A report notes a reset just where
this is so for the totals of some group. No clock has a say in this.
-/

import RedirectMonitor.Proofs.Resets
import RedirectMonitor.Proofs.Silence

namespace RedirectMonitor

namespace Delivery

/-! ### Counters that never go down -/

/-- No counter of a group goes down on any core from reading to reading, nor below zero. -/
def CountersGrow (cores : Nat) (group : Group) (deliveries : List Delivery) : Prop :=
  (Sample.blank cores :: samplesOf group deliveries).Pairwise Sample.AtMost

instance (cores : Nat) (group : Group) (deliveries : List Delivery) :
    Decidable (CountersGrow cores group deliveries) :=
  inferInstanceAs (Decidable (List.Pairwise _ _))

theorem CountersGrow.of_prefix {cores : Nat} {group : Group} {first whole : List Delivery}
    (grows : CountersGrow cores group whole) (before : first <+: whole) :
    CountersGrow cores group first :=
  grows.sublist (((before.sublist.filter _).filterMap _).cons_cons _)

/-- A record is the sum of its cores. -/
theorem latest_summed (side : Side) (group : Group) (cores : Nat) (deliveries : List Delivery) :
    (latest side group (.blank cores) deliveries).Summed := by
  rcases List.mem_cons.mp (latest_mem_samplesOf side group (.blank cores) deliveries) with
    blank | delivered
  · rw [blank]
    exact (Counters.sum_replicate_zero cores).symm
  · obtain ⟨delivery, -, found⟩ := List.mem_filterMap.mp delivered
    unfold Reading.sample? at found
    split at found
    · rw [← Option.some.inj found]
      rfl
    · cases found
    · cases found

section Records

variable {cores : Nat} {group : Group} {deliveries : List Delivery}
  (grows : CountersGrow cores group deliveries) (newest : Side)

include grows

/-- Unless the last reading with values went elsewhere the newest record comes after the other. -/
theorem CountersGrow.grown (fresh : ¬lastSide? group deliveries ≠ some newest) :
    (latest newest.other group (.blank cores) deliveries).AtMost
      (latest newest group (.blank cores) deliveries) :=
  latest_precedes_of_lastSide deliveries grows (not_not.mp fresh)

/-- If it went elsewhere the newest record comes before the other. -/
theorem CountersGrow.shrunk (stale : lastSide? group deliveries ≠ some newest) :
    (latest newest group (.blank cores) deliveries).AtMost
      (latest newest.other group (.blank cores) deliveries) := by
  cases last : lastSide? group deliveries with
  | none =>
    rw [latest_of_lastSide_eq_none last, latest_of_lastSide_eq_none last]
    exact Sample.AtMost.refl _
  | some taken =>
    rcases newest.eq_or_eq_other taken with rfl | rfl
    · exact absurd last stale
    · rw [Side.other_other]
      exact latest_precedes_of_lastSide deliveries grows last

end Records

/-- Two snapshots whose records of the tracked groups are those that deliveries make, the first of
them the newest. -/
structure Records (cores targets : Int) (newest : Side) (deliveries : List Delivery)
    (current previous : Snapshot) : Prop where
  newer : ∀ group ∈ Group.tracked targets,
    current.sample group = latest newest group (.blank cores.toNat) deliveries
  older : ∀ group ∈ Group.tracked targets,
    previous.sample group = latest newest.other group (.blank cores.toNat) deliveries
  sized : current.targetCount = targets.toNat
  sized' : previous.targetCount = targets.toNat

namespace Records

variable {cores targets : Int} {newest : Side} {deliveries : List Delivery}
  {current previous : Snapshot}
  (records : Records cores targets newest deliveries current previous)
  (grows : ∀ group ∈ Group.tracked targets, CountersGrow cores.toNat group deliveries)

include records

theorem summed {group : Group} (tracked : group ∈ Group.tracked targets) :
    (current.sample group).Summed ∧ (previous.sample group).Summed := by
  rw [records.newer group tracked, records.older group tracked]
  exact ⟨latest_summed _ _ _ _, latest_summed _ _ _ _⟩

include grows

theorem ordered {group : Group} (tracked : group ∈ Group.tracked targets) :
    (¬lastSide? group deliveries ≠ some newest →
        (previous.sample group).AtMost (current.sample group)) ∧
      (lastSide? group deliveries ≠ some newest →
        (current.sample group).AtMost (previous.sample group)) := by
  rw [records.newer group tracked, records.older group tracked]
  exact ⟨(grows group tracked).grown newest, (grows group tracked).shrunk newest⟩

/-- The rates of a group are flagged where its newest record is stale and the counters differ. -/
theorem reset_iff {group : Group} (tracked : group ∈ Group.tracked targets) :
    (∀ rate : Rate, (Rate.total (current.sample group) (previous.sample group)).outcome = .ok rate →
      (rate.reset = true ↔ lastSide? group deliveries ≠ some newest ∧
        (current.sample group).total ≠ (previous.sample group).total)) ∧
    ∀ rates, (Rate.cores (current.sample group) (previous.sample group)).outcome = .ok rates →
      ∀ (core : Nat) (rate : Rate), rates[core]? = some rate →
        (rate.reset = true ↔ lastSide? group deliveries ≠ some newest ∧
          (current.sample group).cores[core]? ≠ (previous.sample group).cores[core]?) := by
  obtain ⟨summed, summed'⟩ := records.summed tracked
  obtain ⟨grown, shrunk⟩ := records.ordered grows tracked
  refine ⟨fun rate outcome => ?_, fun rates outcome core rate found => ?_⟩
  · rw [Rate.reset_of_total outcome]
    exact Sample.total_wentDown_iff summed summed' grown shrunk
  · obtain ⟨now, before, inCurrent, inPrevious, same⟩ := Rate.reset_of_cores outcome found
    rw [same, Sample.core_wentDown_iff grown shrunk inCurrent inPrevious, inCurrent, inPrevious]
    exact and_congr_right fun _ => Option.some_inj.not.symm

/-- What the rows of the two snapshots note comes from a group whose newest record is stale. -/
theorem stale_of_mem_notices {notice : Notice}
    (member : notice ∈ (Report.rows current previous).notices) :
    ∃ group ∈ Group.tracked targets, lastSide? group deliveries ≠ some newest ∧
      (current.sample group).total ≠ (previous.sample group).total := by
  obtain ⟨group, inReport, found⟩ := Report.exists_of_mem_notices_rows member
  have tracked : group ∈ Group.tracked targets :=
    (Report.mem_reported_iff_tracked records.sized records.sized').mp inReport
  obtain ⟨summed, summed'⟩ := records.summed tracked
  obtain ⟨grown, shrunk⟩ := records.ordered grows tracked
  exact ⟨group, tracked, (Sample.wentDown_iff summed summed' grown shrunk).mp
    (Report.wentDown_of_mem_notices_ownRows found)⟩

/-- If the rows are all known, each group whose newest record is stale makes them note a reset. -/
theorem mem_notices_of_stale {rows : List Row}
    (outcome : (Report.rows current previous).outcome = .ok rows) {group : Group}
    (tracked : group ∈ Group.tracked targets)
    (stale : lastSide? group deliveries ≠ some newest)
    (differ : (current.sample group).total ≠ (previous.sample group).total) :
    .counterReset (previous.sample group).total (current.sample group).total ∈
      (Report.rows current previous).notices := by
  obtain ⟨summed, summed'⟩ := records.summed tracked
  obtain ⟨grown, shrunk⟩ := records.ordered grows tracked
  have down := (Sample.total_wentDown_iff summed summed' grown shrunk).mpr ⟨stale, differ⟩
  have inReport := (Report.mem_reported_iff_tracked records.sized records.sized').mpr tracked
  have own := Report.filter_rows outcome inReport
  exact Report.mem_notices_rows outcome inReport (Report.mem_notices_ownRows own down)

end Records

end Delivery

namespace PollLoop

variable {σ : Type}

/-! ### Reports and their log -/

theorem Rendering.Faithful.records {cores targets : Int} {rendering : Rendering}
    (faithful : rendering.Faithful cores targets) :
    Delivery.Records cores targets rendering.view.newest rendering.deliveries
      rendering.view.current rendering.view.previous :=
  ⟨fun _ tracked => faithful.current_eq tracked, fun _ tracked => faithful.previous_eq tracked,
    faithful.sized.1, faithful.sized.2⟩

/-- The store of a course has the records that its deliveries make. -/
theorem Course.Sound.records {cores targets : Int} {course : Course σ}
    (sound : course.Sound cores targets) :
    Delivery.Records cores targets course.loop.store.newest course.deliveries
      course.loop.store.current course.loop.store.previous := by
  have sample (side : Side) (group : Group) (tracked : group ∈ Group.tracked targets) :
      (course.loop.store.snapshot side).sample group =
        Delivery.latest side group (.blank cores.toNat) course.deliveries := by
    rw [sound.snapshot, Store.sample_deliverAll _ (Store.wellSized_blank cores targets) _ sound.suit,
      Store.sample_blank cores targets _ group tracked]
  have sized (side : Side) : (course.loop.store.snapshot side).targetCount = targets.toNat := by
    have counted := ((Store.wellSized_blank cores targets).deliverAll course.deliveries
      sound.suit).targets side
    rw [Store.deliverAll_targets] at counted
    rw [sound.snapshot]
    exact counted
  exact ⟨sample _, sample _, sized _, sized _⟩

/-- A reset is only noted while the rows of a report are computed. -/
theorem mem_notices_of_step (world : World σ) (phase : Phase) (loop : PollLoop) (state : σ)
    {previous current : Counters}
    (noted : .noted (.counterReset previous current) ∈ (step world phase loop state).events) :
    .counterReset previous current ∈
      (Report.rows loop.store.current loop.store.previous).notices := by
  cases phase with
  | launched =>
    simp only [step, launch] at noted
    split at noted <;> simp [beginCollection] at noted
  | collecting purpose side left failed =>
    cases left with
    | cons group left =>
      simp only [step, readNext, Store.readGroup, List.mem_cons, reduceCtorEq, false_or,
        List.mem_map, Event.noted.injEq] at noted
      obtain ⟨notice, member, rfl⟩ := noted
      unfold Store.noticesOf at member
      split at member <;> simp at member
    | nil =>
      cases purpose with
      | priming =>
        simp only [step, completeCollection] at noted
        split at noted <;> simp [beginCycle, beginCollection] at noted
      | cycle =>
        have stale : Event.noted (.counterReset previous current) ∉
            (if failed = 0 then [] else [Event.noted (.staleGroups failed)]) := by
          split <;> simp
        simp only [step, completeCollection] at noted
        split at noted
        · exact absurd noted stale
        · rcases List.mem_append.mp noted with before | rendered
          · exact absurd before stale
          · unfold render at rendered
            dsimp only at rendered
            split at rendered <;> simpa using rendered
  | waiting =>
    simp only [step] at noted
    rcases wait_cases world loop state with ⟨-, same⟩ | ⟨-, ⟨_, -, same⟩ | same⟩ <;>
      simp [same, beginCycle, beginCollection] at noted
  | rendered | leaving fault | «over» fault => simp [step, leave] at noted

namespace Course

/-- In a run over counters that never go down, whatever readings fail and whatever the clock shows, a
report flags the rates of a group just where the last reading of the group that had values did not go
to its newest side and the counters of the two records differ, which then are the older ones against
the newer. In the first run over its store the former is so where no reading of the group had values
yet, or where the number of readings without values since the last one is odd. A report notes a reset
just where that is so for the totals of some group, and no other step of the run notes one. -/
theorem reset_iff_stale (world : World σ) (cores targets : Int) (past : List Store.Request)
    (loop : PollLoop) (state : σ) (moves : List Move) :
    let course := (launched world cores targets past loop state).follow world moves
    (∀ group ∈ Group.tracked targets,
      Delivery.CountersGrow cores.toNat group course.deliveries) →
    (∀ rendering ∈ course.renderings,
      (∀ group ∈ Group.tracked targets,
        let stale := Delivery.lastSide? group rendering.deliveries ≠ some rendering.view.newest
        let current := rendering.current group
        let previous := rendering.previous group
        (∀ rate : Rate, (Rate.total current previous).outcome = .ok rate →
          (rate.reset = true ↔ stale ∧ current.total ≠ previous.total)) ∧
        (∀ rates, (Rate.cores current previous).outcome = .ok rates →
          ∀ (core : Nat) (rate : Rate), rates[core]? = some rate →
            (rate.reset = true ↔ stale ∧ current.cores[core]? ≠ previous.cores[core]?)) ∧
        (past = [] →
          (stale ↔ (∀ delivery ∈ Delivery.ownOf group rendering.deliveries,
              delivery.hasValues = false) ∨
            Odd (Delivery.lapses (Delivery.ownOf group rendering.deliveries))))) ∧
      ((∃ previous current, .counterReset previous current ∈
          (Report.rows rendering.view.current rendering.view.previous).notices) ↔
        ∃ group ∈ Group.tracked targets,
          Delivery.lastSide? group rendering.deliveries ≠ some rendering.view.newest ∧
            (rendering.current group).total ≠ (rendering.previous group).total)) ∧
    ∀ previous current, .noted (.counterReset previous current) ∈
        (PollLoop.step world course.phase course.loop course.state).events →
      ∃ group ∈ Group.tracked targets,
        Delivery.lastSide? group course.deliveries ≠ some course.loop.store.newest ∧
          (course.loop.store.current.sample group).total ≠
            (course.loop.store.previous.sample group).total := by
  intro course grows
  have sound : course.Sound cores targets :=
    sound_follow world cores targets past loop state moves
  refine ⟨fun rendering member => ?_, fun previous current noted => ?_⟩
  · have faithful := sound.faithful rendering member
    have before := sound.before rendering member
    have earlier : ∀ group ∈ Group.tracked targets,
        Delivery.CountersGrow cores.toNat group rendering.deliveries :=
      fun group tracked => Delivery.CountersGrow.of_prefix (grows group tracked) before
    refine ⟨fun group tracked => ?_, ?_⟩
    · obtain ⟨total, perCore⟩ := faithful.records.reset_iff earlier tracked
      refine ⟨total, perCore, ?_⟩
      rintro rfl
      exact faithful.lastSide_ne_iff tracked
        (alternating_of_mem_renderings world cores targets loop state moves member group)
    · constructor
      · rintro ⟨previous, current, noted⟩
        exact faithful.records.stale_of_mem_notices earlier noted
      · rintro ⟨group, tracked, stale, differ⟩
        exact ⟨_, _, faithful.records.mem_notices_of_stale earlier faithful.rows tracked stale
          differ⟩
  · exact sound.records.stale_of_mem_notices grows (mem_notices_of_step world _ _ _ noted)

/-- The counters of the drought never go down, and its second report notes a reset all the same. -/
theorem reset_noted_in_drought :
    (∀ group ∈ Group.tracked 0, Delivery.CountersGrow 1 group drought.deliveries) ∧
      ∃ rendering ∈ drought.renderings, ∃ previous current, .counterReset previous current ∈
        (Report.rows rendering.view.current rendering.view.previous).notices := by
  have grows : ∀ group ∈ Group.tracked 0, Delivery.CountersGrow 1 group drought.deliveries := by
    decide +kernel
  have stale : ∃ rendering ∈ drought.renderings, ∃ group ∈ Group.tracked 0,
      Delivery.lastSide? group rendering.deliveries ≠ some rendering.view.newest ∧
        (rendering.current group).total ≠ (rendering.previous group).total := by
    decide +kernel
  obtain ⟨rendering, member, ofGroup⟩ := stale
  have reports := (reset_iff_stale .scripted 1 0 [] _ _ _ grows).1
  exact ⟨grows, rendering, member, (reports rendering member).2.mpr ofGroup⟩

end Course

end PollLoop

end RedirectMonitor
