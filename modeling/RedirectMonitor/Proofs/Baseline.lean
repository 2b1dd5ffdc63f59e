/-
This file says what the two records rest on between which a report shows a group. A store begins
with blank records, whose time is that of the clock's origin, and a report compares what it finds
in its two snapshots. The clock is taken to show times above zero.

The content is that the current record was read, since no time comes before a blank one, and that
the previous record was read just where a reading with values went to the other side. Where none
did, the report shows the group from the clock's origin on, with its whole count. In the first run
over a store the readings of a group go to the two sides in turn, so that every second reading
decides, from the one before that of the report's own collection backwards.
-/

import RedirectMonitor.Proofs.RowListing
import RedirectMonitor.Proofs.Silence

namespace RedirectMonitor

namespace Delivery

/-! ### Every second reading -/

/-- The second, the fourth, and so on. -/
def everySecond {α : Type} : List α → List α
  | [] | [_] => []
  | _ :: second :: rest => second :: everySecond rest

/-- Where the sides alternate, every second delivery is on the side that the first is not on. -/
theorem everySecond_eq_filter (deliveries : List Delivery) (side : Side)
    (alternating : (deliveries.map Delivery.side).IsChain (· ≠ ·))
    (first : ∀ delivery ∈ deliveries.head?, delivery.side = side) :
    everySecond deliveries = deliveries.filter fun delivery => delivery.side = side.other := by
  induction deliveries using everySecond.induct with
  | case1 => rfl
  | case2 delivery =>
    have own : delivery.side = side := first delivery rfl
    simp [everySecond, own, side.other_ne.symm]
  | case3 delivery second rest inductionHypothesis =>
    obtain rfl : delivery.side = side := first delivery rfl
    rw [List.map_cons, List.map_cons, List.isChain_cons_cons] at alternating
    obtain ⟨apart, alternating⟩ := alternating
    have other : second.side = delivery.side.other :=
      (Side.eq_or_eq_other _ _).resolve_left (Ne.symm apart)
    obtain ⟨next, alternating⟩ := List.isChain_cons.mp alternating
    rw [everySecond, List.filter_cons_of_neg (by simp [delivery.side.other_ne.symm]),
      List.filter_cons_of_pos (by simp [other])]
    refine congrArg _ (inductionHypothesis alternating fun third isNext => ?_)
    have changed : second.side ≠ third.side := next third.side (by simp [Option.mem_def.mp isNext])
    rw [other] at changed
    exact (Side.eq_or_eq_other _ _).resolve_right fun same => changed same.symm

/-- A group has no samples on a side just where none of its readings that went there had values. -/
theorem samples_eq_nil_iff (side : Side) (group : Group) (deliveries : List Delivery) :
    samples side group deliveries = [] ↔
      ∀ delivery ∈ (ownOf group deliveries).filter fun delivery => delivery.side = side,
        delivery.hasValues = false := by
  rw [samples, List.filterMap_eq_nil_iff]
  constructor
  · intro without delivery member
    obtain ⟨inOwn, onSide⟩ := List.mem_filter.mp member
    obtain ⟨inAll, own⟩ := List.mem_filter.mp inOwn
    have found := without delivery inAll
    rw [sampleFor?, if_pos ⟨of_decide_eq_true onSide, of_decide_eq_true own⟩] at found
    rw [hasValues, found]
    rfl
  · intro mute delivery member
    unfold sampleFor?
    split
    · rename_i same
      have kept := mute delivery (List.mem_filter.mpr
        ⟨List.mem_filter.mpr ⟨member, decide_eq_true same.2⟩, decide_eq_true same.1⟩)
      simpa [hasValues] using kept
    · rfl

/-- By a positive clock no record is older than a blank one. -/
theorem latest_time_nonneg {deliveries : List Delivery}
    (positive : ∀ time ∈ times deliveries, 0 < time) (cores : Nat) (side : Side) (group : Group) :
    0 ≤ (latest side group (.blank cores) deliveries).time := by
  rcases List.mem_cons.mp (latest_mem_samplesOf side group (.blank cores) deliveries) with
    untouched | read
  · rw [untouched]
    exact le_rfl
  · exact (positive _ ((times_of_group group _).subset (List.mem_map_of_mem read))).le

end Delivery

namespace PollLoop

variable {σ : Type}

/-! ### What a report rests on -/

namespace Rendering

section Faithful

variable {cores targets : Int} {rendering : Rendering} {group : Group}
  (faithful : rendering.Faithful cores targets) (tracked : group ∈ Group.tracked targets)

include faithful tracked

/-- A report with a positive period in a row of a group shows the group over time. -/
theorem Faithful.shows_of_row {row : Row} (member : row ∈ rendering.view.rows)
    (own : row.isOf group = true) (positive : row.period.isNonpositive = false) :
    rendering.shows group = true := by
  have seconds : (rendering.current group).secondsSince (rendering.previous group) =
      .ok row.period :=
    (Report.lists_of_ownRows (faithful.ownRows tracked)).secondsSince
      (List.mem_filter.mpr ⟨member, own⟩)
  rw [shows, seconds]
  simp [positive]

/-- The current record of a group that a report shows was read. -/
theorem Faithful.current_mem (positive : ∀ time ∈ Delivery.times rendering.deliveries, 0 < time)
    (shown : rendering.shows group = true) :
    rendering.current group ∈
      Delivery.samples rendering.view.newest group rendering.deliveries := by
  have later := time_lt_of_shows shown
  rw [faithful.current_eq tracked, faithful.previous_eq tracked] at later
  rw [faithful.current_eq tracked]
  refine (Delivery.latest_mem _ _ _ _).resolve_left fun untouched => ?_
  rw [untouched] at later
  exact absurd later (not_lt.mpr (Delivery.latest_time_nonneg positive _ _ _))

/-- The previous record of a group was read just where a reading with values went to its side. -/
theorem Faithful.previous_mem_iff :
    rendering.previous group ∈
        Delivery.samples rendering.view.newest.other group rendering.deliveries ↔
      Delivery.samples rendering.view.newest.other group rendering.deliveries ≠ [] := by
  rw [faithful.previous_eq tracked]
  exact ⟨List.ne_nil_of_mem, Delivery.latest_mem_of_ne_nil _ _ _ _⟩

/-- Where no reading of a group with values went to its side, the previous record is blank. -/
theorem Faithful.previous_blank
    (unread : Delivery.samples rendering.view.newest.other group rendering.deliveries = []) :
    rendering.previous group = .blank cores.toNat := by
  rw [faithful.previous_eq tracked, Delivery.latest, unread]
  rfl

/-- Where the sides alternate, every second reading counted backwards went to the side of the
previous record, from the one before the last. -/
theorem Faithful.unread_iff
    (alternating :
      ((Delivery.ownOf group rendering.deliveries).map Delivery.side).IsChain (· ≠ ·)) :
    Delivery.samples rendering.view.newest.other group rendering.deliveries = [] ↔
      ∀ delivery ∈ Delivery.everySecond (Delivery.ownOf group rendering.deliveries).reverse,
        delivery.hasValues = false := by
  have backwards : ((Delivery.ownOf group rendering.deliveries).reverse.map
      Delivery.side).IsChain (· ≠ ·) := by
    rw [List.map_reverse, List.isChain_reverse]
    exact alternating.imp fun _ _ apart => apart.symm
  have last : ∀ delivery ∈ (Delivery.ownOf group rendering.deliveries).reverse.head?,
      delivery.side = rendering.view.newest := by
    intro delivery isLast
    rw [List.head?_reverse] at isLast
    have own := faithful.own group tracked
    rw [Delivery.last?, Option.mem_def.mp isLast] at own
    exact Option.some.inj own
  rw [Delivery.everySecond_eq_filter _ _ backwards last, Delivery.samples_eq_nil_iff,
    List.filter_reverse]
  simp only [List.mem_reverse]

end Faithful

end Rendering

namespace Course

/-- In a run under a positive clock, the current record of a group that a report shows over time was
read, and the previous one was read just where a reading of the group with values went to the other
side before. Where none did, the report shows the group from the clock's origin on, with its whole
count. In the first run over its store this is so where every second reading of the group had no
values, counted backwards from the one before that of the report's own collection. -/
theorem previous_read_iff (world : World σ) (cores targets : Int) (past : List Store.Request)
    (loop : PollLoop) (state : σ) (moves : List Move) (group : Group)
    (tracked : group ∈ Group.tracked targets)
    (positive : ∀ time ∈ Delivery.times
      ((launched world cores targets past loop state).follow world moves).deliveries, 0 < time) :
    ∀ rendering ∈ ((launched world cores targets past loop state).follow world moves).renderings,
      let earlier := Delivery.samples rendering.view.newest.other group rendering.deliveries
      (∀ row ∈ rendering.view.rows, row.isOf group = true → row.period.isNonpositive = false →
        rendering.shows group = true) ∧
      (rendering.shows group = true →
        rendering.current group ∈
            Delivery.samples rendering.view.newest group rendering.deliveries ∧
          (rendering.previous group ∈ earlier ↔ earlier ≠ []) ∧
          (earlier = [] →
            rendering.interval group = .Ioc 0 (rendering.current group).time ∧
            rendering.increase (fun sample => sample.total.processed) group =
              (rendering.current group).total.processed ∧
            rendering.increase (fun sample => sample.total.dropped) group =
              (rendering.current group).total.dropped)) ∧
      (past = [] →
        (earlier = [] ↔
          ∀ delivery ∈ Delivery.everySecond (Delivery.ownOf group rendering.deliveries).reverse,
            delivery.hasValues = false)) := by
  intro rendering member earlier
  have sound := sound_follow world cores targets past loop state moves
  have faithful := sound.faithful rendering member
  have before := sound.before rendering member
  refine ⟨fun row inRows own lasts => faithful.shows_of_row tracked inRows own lasts,
    fun shown => ⟨?_, faithful.previous_mem_iff tracked, fun unread => ?_⟩, ?_⟩
  · exact faithful.current_mem tracked
      (fun time known => positive time (Delivery.times_subset before known)) shown
  · have blank := faithful.previous_blank tracked unread
    simp [Rendering.interval, Rendering.increase, blank, Sample.blank]
  · rintro rfl
    exact faithful.unread_iff tracked
      (alternating_of_mem_renderings world cores targets loop state moves member group)

/-- A run of one core without targets. What the core received could not be read at first. -/
def lateReading : Course Script :=
  (launched .scripted 1 0 [] { store := .blank 1 0, interval := defaultInterval }
    { lines :=
        [.refused (.contained (.refused "rx_cnt" 0)), .answered [⟨0, 0⟩] (.ok 1000000001),
          .answered [⟨0, 0⟩] (.ok 1000000002), .answered [⟨1000, 0⟩] (.ok 3000000000),
          .answered [⟨0, 0⟩] (.ok 3000000001), .answered [⟨0, 0⟩] (.ok 3000000002)] }).follow
    .scripted (List.replicate 9 .step)

theorem unread_in_lateReading :
    ∃ rendering ∈ lateReading.renderings, rendering.shows .rx = true ∧
      rendering.previous .rx = .blank 1 ∧ rendering.interval .rx = .Ioc 0 3000000000 ∧
      rendering.increase (fun sample => sample.total.processed) .rx = 1000 := by
  have positive : ∀ time ∈ Delivery.times lateReading.deliveries, 0 < time := by decide +kernel
  have shown : ∃ rendering ∈ lateReading.renderings, rendering.shows .rx = true ∧
      rendering.previous .rx = .blank 1 ∧
      rendering.current .rx = ⟨3000000000, ⟨1000, 0⟩, [⟨1000, 0⟩]⟩ ∧
      Delivery.samples rendering.view.newest.other .rx rendering.deliveries = [] := by
    decide +kernel
  obtain ⟨rendering, member, shown, blank, current, unread⟩ := shown
  obtain ⟨-, rests, -⟩ := previous_read_iff .scripted 1 0 [] _ _ _ .rx (by decide) positive
    rendering member
  obtain ⟨-, -, origin⟩ := rests shown
  obtain ⟨interval, whole, -⟩ := origin unread
  rw [current] at interval whole
  exact ⟨rendering, member, shown, blank, interval, whole⟩

end Course

end PollLoop

end RedirectMonitor
