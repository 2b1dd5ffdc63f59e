/-
This file says that the rate of a group covers the rates of its cores. The total and each core are
rated on their own, from numbers that are rounded and then cut, so that the rates of the cores need
not add up to the rate of the total.

The content is that the total still is not below any core whose counter did not go down. Its
increase is the sum of the increases of the cores, and over one period a greater increase has no
lesser rate. A redirect target is left out by its total alone, so no target is left out that has a
core with a positive rate.
-/

import RedirectMonitor.Proofs.RateBounds

namespace RedirectMonitor

/-! ### Increases of sums -/

/-- Of two lists in order no entry increases by more than the sum. -/
theorem increase_le_sum_increase {α : Type} (count : α → Int) {now before : List α}
    (grown : List.Forall₂ (fun entry entry' => count entry' ≤ count entry) now before) :
    0 ≤ (now.map count).sum - (before.map count).sum ∧
      ∀ {index : Nat} {entry entry' : α}, now[index]? = some entry → before[index]? = some entry' →
        count entry - count entry' ≤ (now.map count).sum - (before.map count).sum := by
  induction grown with
  | nil => exact ⟨Int.le_refl 0, fun absent => by cases absent⟩
  | @cons first first' now before head rest inductionHypothesis =>
    obtain ⟨nonnegative, each⟩ := inductionHypothesis
    simp only [List.map_cons, List.sum_cons]
    refine ⟨by omega, fun {index entry entry'} inNow inBefore => ?_⟩
    cases index with
    | zero =>
      obtain rfl := Option.some.inj inNow
      obtain rfl := Option.some.inj inBefore
      omega
    | succ index =>
      have later := each inNow inBefore
      omega

/-- A count of counters that adds up. -/
structure Counters.Adds (count : Counters → Int) : Prop where
  none : count {} = 0
  both : ∀ left right : Counters, count (left.add right) = count left + count right

theorem Counters.Adds.sum {count : Counters → Int} (adds : Adds count) (counters : List Counters) :
    count (.sum counters) = (counters.map count).sum := by
  induction counters with
  | nil => exact adds.none
  | cons pair rest inductionHypothesis =>
    rw [List.map_cons, List.sum_cons, ← inductionHypothesis]
    exact adds.both pair (Counters.sum rest)

theorem Counters.adds_processed : Adds processed := ⟨rfl, fun _ _ => rfl⟩

theorem Counters.adds_dropped : Adds dropped := ⟨rfl, fun _ _ => rfl⟩

namespace Sample

/-- Two samples have the same cores, and a count went down on none of them. -/
def Grows (count : Counters → Int) (current previous : Sample) : Prop :=
  List.Forall₂ (fun now before => count before ≤ count now) current.cores previous.cores

instance (count : Counters → Int) (current previous : Sample) :
    Decidable (Grows count current previous) :=
  inferInstanceAs (Decidable (List.Forall₂ _ current.cores previous.cores))

/-- No core's increase is above that of the total. -/
theorem Grows.increase_le {count : Counters → Int} {current previous : Sample}
    (grown : Grows count current previous) (adds : Counters.Adds count) (summed : current.Summed)
    (summed' : previous.Summed) {core : Nat} {now before : Counters}
    (inCurrent : current.cores[core]? = some now) (inPrevious : previous.cores[core]? = some before) :
    (count now - count before).toNat ≤ (count current.total - count previous.total).toNat := by
  rw [summed, summed', adds.sum, adds.sum]
  exact Int.toNat_le_toNat ((increase_le_sum_increase count grown).2 inCurrent inPrevious)

end Sample

namespace Rate

/-! ### The total beside the cores -/

section Covering

variable {current previous : Sample} (inRange : current.InRange) (inRange' : previous.InRange)
  {total : Rate} (ofTotal : (Rate.total current previous).outcome = .ok total)
  {core : Nat} {rate : Rate} (ofCore : OfCore current previous core rate)

include inRange inRange' ofTotal ofCore

/-- The rates of a core and of the total are those of increases over the same period. -/
theorem OfCore.beside_total :
    ∃ now before period, current.cores[core]? = some now ∧ previous.cores[core]? = some before ∧
      rate = counted now before period ∧ total = counted current.total previous.total period := by
  obtain ⟨period, seconds, span, -⟩ := Sample.exists_secondsSince inRange inRange'
  obtain ⟨now, before, inCurrent, inPrevious, rfl⟩ :=
    OfCore.eq_counted inRange inRange' seconds span ofCore
  have ofCounts := outcome_total_eq_counted inRange inRange' seconds span
  exact ⟨now, before, period, inCurrent, inPrevious, rfl,
    Except.ok.inj (ofTotal.symm.trans ofCounts)⟩

theorem OfCore.pps_nonneg : 0 ≤ rate.pps := by
  obtain ⟨now, before, period, -, -, rfl, -⟩ := ofCore.beside_total inRange inRange' ofTotal
  exact Int.natCast_nonneg _

theorem OfCore.pps_le_total (grown : current.Grows Counters.processed previous) :
    rate.pps ≤ total.pps := by
  obtain ⟨now, before, period, inCurrent, inPrevious, rfl, rfl⟩ :=
    ofCore.beside_total inRange inRange' ofTotal
  have increase := grown.increase_le Counters.adds_processed inRange.summed inRange'.summed
    inCurrent inPrevious
  exact Int.ofNat_le.mpr (ofIncrease_mono increase period)

theorem OfCore.dropPps_le_total (grown : current.Grows Counters.dropped previous) :
    rate.dropPps ≤ total.dropPps := by
  obtain ⟨now, before, period, inCurrent, inPrevious, rfl, rfl⟩ :=
    ofCore.beside_total inRange inRange' ofTotal
  have increase := grown.increase_le Counters.adds_dropped inRange.summed inRange'.summed
    inCurrent inPrevious
  exact Int.ofNat_le.mpr (ofIncrease_mono increase period)

end Covering

end Rate

namespace Report

/-! ### Targets with an active core -/

/-- A target lists a core with a positive rate, and its total, if the total covers the core. -/
theorem Lists.mem_of_pos {target core : Nat} {current previous : Sample} {part : List Row}
    {total rate : Rate} (lists : Lists (.enqueue target) current previous part)
    (ofTotal : (Rate.total current previous).outcome = .ok total)
    (ofCore : Rate.OfCore current previous core rate) (positive : 0 < rate.pps)
    (covered : rate.pps ≤ total.pps) :
    (Group.enqueue target).row ((Group.enqueue target).coreIdent core) rate ∈ part ∧
      (Group.enqueue target).row (Group.enqueue target).totalIdent total ∈ part := by
  obtain ⟨total', ofTotal', shown, -, shows, rfl⟩ := lists
  obtain rfl := Except.ok.inj (ofTotal.symm.trans ofTotal')
  have kept : (Group.enqueue target).isLeftOut total = false := decide_eq_false (by omega)
  constructor
  · refine List.mem_append_left _ (List.mem_map.mpr ⟨(core, rate), ?_, rfl⟩)
    exact (shows core rate).mpr ⟨ofCore, positive, kept⟩
  · rw [kept]
    exact List.mem_append_right _ List.mem_cons_self

/-- A report gives each target that both snapshots cover its part. -/
theorem lists_of_target {current previous : Snapshot} {rows : List Row} {target : Nat}
    {sample sample' : Sample} (outcome : (Report.rows current previous).outcome = .ok rows)
    (covered : current.enqueue[target]? = some sample)
    (covered' : previous.enqueue[target]? = some sample') :
    Lists (.enqueue target) sample sample' (rows.filter (Row.isOf (.enqueue target))) := by
  obtain ⟨bound, rfl⟩ := List.getElem?_eq_some_iff.mp covered
  obtain ⟨bound', rfl⟩ := List.getElem?_eq_some_iff.mp covered'
  have inReport : Group.enqueue target ∈ reported current previous :=
    List.mem_cons_of_mem _ (List.mem_append_left _
      (List.mem_map_of_mem (List.mem_range.mpr (Nat.lt_min.mpr ⟨bound, bound'⟩))))
  have lists := lists_of_ownRows (filter_rows outcome inReport)
  simpa [Snapshot.sample, bound, bound'] using lists

end Report

namespace Rate

/-- The rate of a total is known and not below the rate of any core, unless a counter went down on
some core. A report on a target lists each core with a positive rate, and then the total; if it
lists nothing of the target, all cores have the rate zero. -/
theorem total_covers_cores {current previous : Sample} (inRange : current.InRange)
    (inRange' : previous.InRange) (grown : current.Grows Counters.processed previous) :
    ∃ total rates, (Rate.total current previous).outcome = .ok total ∧
      (cores current previous).outcome = .ok rates ∧
      (∀ rate ∈ rates, rate.pps ≤ total.pps) ∧
      (current.Grows Counters.dropped previous → ∀ rate ∈ rates, rate.dropPps ≤ total.dropPps) ∧
      ∀ (newer older : Snapshot) (target : Nat) (rows : List Row),
        newer.enqueue[target]? = some current → older.enqueue[target]? = some previous →
        (Report.rows newer older).outcome = .ok rows →
        (∀ core rate, rates[core]? = some rate → 0 < rate.pps →
          (Group.enqueue target).row ((Group.enqueue target).coreIdent core) rate ∈ rows ∧
            (Group.enqueue target).row (Group.enqueue target).totalIdent total ∈ rows) ∧
        ((∀ row ∈ rows, row.isOf (.enqueue target) = false) → ∀ rate ∈ rates, rate.pps = 0) := by
  obtain ⟨period, seconds, span, -⟩ := Sample.exists_secondsSince inRange inRange'
  have ofTotal := outcome_total_eq_counted inRange inRange' seconds span
  have ofCores := outcome_cores_eq_counted inRange inRange' seconds span
  refine ⟨_, _, ofTotal, ofCores, ?_⟩
  generalize counted current.total previous.total period = total at ofTotal
  generalize (current.cores.zip previous.cores).map _ = rates at ofCores
  have ofCore {rate : Rate} (member : rate ∈ rates) :
      ∃ core, rates[core]? = some rate ∧ OfCore current previous core rate := by
    obtain ⟨core, found⟩ := List.mem_iff_getElem?.mp member
    exact ⟨core, found, (getElem?_cores_iff ofCores core rate).mp found⟩
  refine ⟨fun rate member => ?_, fun grown' rate member => ?_, ?_⟩
  · obtain ⟨core, -, isOf⟩ := ofCore member
    exact isOf.pps_le_total inRange inRange' ofTotal grown
  · obtain ⟨core, -, isOf⟩ := ofCore member
    exact isOf.dropPps_le_total inRange inRange' ofTotal grown'
  · intro newer older target rows covered covered' outcome
    have lists := Report.lists_of_target outcome covered covered'
    have listed {core : Nat} {rate : Rate} (found : rates[core]? = some rate)
        (positive : 0 < rate.pps) :=
      have isOf := (getElem?_cores_iff ofCores core rate).mp found
      lists.mem_of_pos ofTotal isOf positive (isOf.pps_le_total inRange inRange' ofTotal grown)
    refine ⟨fun core rate found positive => ?_, fun leftOut rate member => ?_⟩
    · obtain ⟨ofRate, last⟩ := listed found positive
      exact ⟨(List.mem_filter.mp ofRate).1, (List.mem_filter.mp last).1⟩
    · obtain ⟨core, found, isOf⟩ := ofCore member
      refine Int.le_antisymm (Int.not_lt.mp fun positive => ?_)
        (isOf.pps_nonneg inRange inRange' ofTotal)
      obtain ⟨inRows, own⟩ := List.mem_filter.mp (listed found positive).1
      rw [leftOut _ inRows] at own
      cases own

/-- A reading of a target of two cores. -/
def laterOfTarget : Sample := ⟨1300000000, ⟨12, 1⟩, [⟨8, 1⟩, ⟨4, 0⟩]⟩

/-- The reading three tenths of a second before it, with one packet less on each core. -/
def earlierOfTarget : Sample := ⟨1000000000, ⟨10, 0⟩, [⟨7, 0⟩, ⟨3, 0⟩]⟩

/-- The rates of the cores between the two. -/
def ratesOfTarget : List Rate :=
  let period := .finite false 5404319552844595 1020
  [⟨3, 3, period, false⟩, ⟨3, 0, period, false⟩]

theorem total_covers_two_cores :
    ∃ total rows, (Rate.total laterOfTarget earlierOfTarget).outcome = .ok total ∧
      (∀ rate ∈ ratesOfTarget, rate.pps ≤ total.pps ∧ rate.dropPps ≤ total.dropPps) ∧
      (Report.rows { enqueue := [laterOfTarget] } { enqueue := [earlierOfTarget] }).outcome =
        .ok rows ∧
      ∃ row ∈ rows, row.ident = "  1:0  " ∧ row.pps = 3 := by
  have inRange : laterOfTarget.InRange := by decide +kernel
  have inRange' : earlierOfTarget.InRange := by decide +kernel
  obtain ⟨total, rates, ofTotal, ofCores, covers, covers', listed⟩ :=
    total_covers_cores inRange inRange' (by decide +kernel)
  have computed : (cores laterOfTarget earlierOfTarget).outcome = .ok ratesOfTarget := by
    decide +kernel
  obtain rfl := Except.ok.inj (computed.symm.trans ofCores)
  have rated : ∀ group ∈ Report.reported { enqueue := [laterOfTarget] }
      { enqueue := [earlierOfTarget] },
      (Snapshot.sample { enqueue := [laterOfTarget] } group).InRange ∧
        (Snapshot.sample { enqueue := [earlierOfTarget] } group).InRange := by decide +kernel
  obtain ⟨rows, outcome⟩ := Report.exists_rows fun group inReport =>
    Report.rated_of_inRange (rated group inReport).1 (rated group inReport).2 group
  obtain ⟨ofCore, -⟩ := (listed _ _ 0 rows rfl rfl outcome).1 1 _ rfl (by decide)
  exact ⟨total, rows, ofTotal, fun rate member =>
    ⟨covers rate member, covers' (by decide +kernel) rate member⟩, outcome, _, ofCore,
    by decide +kernel, rfl⟩

end Rate

end RedirectMonitor
