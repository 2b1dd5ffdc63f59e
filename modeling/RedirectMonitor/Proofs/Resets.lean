/-
This file says which resets the computation of a report flags and notes. A rate is flagged where the
current counters of its pair are below the previous ones, and each flagged rate that is computed is
noted, whatever the times of the two samples are.

The content is that over samples of which one has no counter above those of the other a reset can be
read off the totals: where the previous sample is at most the current one nothing is flagged, and in
the other case just the pairs that differ are. A report notes a reset just where the totals of some
group went down.
-/

import RedirectMonitor.Proofs.ReportRows

namespace RedirectMonitor

namespace Noted

variable {ε α β : Type} {notice : Notice}

/-! ### Notices of computations -/

/-- A sequence writes the notices of its first part, and those of the rest where the first part comes
to a value. -/
theorem mem_notices_bind (first : Noted ε α) (next : α → Noted ε β) :
    notice ∈ (first >>= next).notices ↔
      notice ∈ first.notices ∨ ∃ value, first.outcome = .ok value ∧
        notice ∈ (next value).notices := by
  obtain ⟨notices, outcome⟩ := first
  cases outcome with
  | error error => simp [bind]
  | ok value => simp [bind]

theorem not_mem_notices_pure (value : α) : notice ∉ (pure value : Noted ε α).notices :=
  List.not_mem_nil

theorem not_mem_notices_lift (outcome : Except ε α) : notice ∉ (lift outcome).notices :=
  List.not_mem_nil

theorem mem_notices_note (other : Notice) :
    notice ∈ (note other : Noted ε Unit).notices ↔ notice = other :=
  List.mem_singleton

/-- Computations over a list write notices of some of them, and of all if they come to values. -/
theorem exists_of_mem_notices_mapM {compute : α → Noted ε β} {inputs : List α}
    (member : notice ∈ (inputs.mapM compute).notices) :
    ∃ input ∈ inputs, notice ∈ (compute input).notices := by
  induction inputs with
  | nil =>
    rw [List.mapM_nil] at member
    exact absurd member (not_mem_notices_pure _)
  | cons input rest inductionHypothesis =>
    rw [List.mapM_cons, mem_notices_bind] at member
    rcases member with first | ⟨value, -, later⟩
    · exact ⟨input, List.mem_cons_self, first⟩
    · rw [mem_notices_bind] at later
      rcases later with inRest | ⟨values, -, nowhere⟩
      · obtain ⟨other, inInputs, found⟩ := inductionHypothesis inRest
        exact ⟨other, List.mem_cons_of_mem _ inInputs, found⟩
      · exact absurd nowhere (not_mem_notices_pure _)

theorem mem_notices_mapM {compute : α → Noted ε β} {inputs : List α} {results : List β}
    (outcome : (inputs.mapM compute).outcome = .ok results) {input : α} (member : input ∈ inputs)
    (found : notice ∈ (compute input).notices) : notice ∈ (inputs.mapM compute).notices := by
  induction inputs generalizing results with
  | nil => cases member
  | cons first rest inductionHypothesis =>
    rw [List.mapM_cons, outcome_bind_eq_ok] at outcome
    obtain ⟨value, ofFirst, outcome⟩ := outcome
    rw [outcome_bind_eq_ok] at outcome
    obtain ⟨values, ofRest, -⟩ := outcome
    rw [List.mapM_cons, mem_notices_bind]
    rcases List.mem_cons.mp member with rfl | inRest
    · exact .inl found
    · refine .inr ⟨value, ofFirst, ?_⟩
      rw [mem_notices_bind]
      exact .inl (inductionHypothesis ofRest inRest)

end Noted

/-! ### Counters in order -/

namespace Counters

/-- Neither count is above the other's. -/
def AtMost (left right : Counters) : Prop :=
  left.processed ≤ right.processed ∧ left.dropped ≤ right.dropped

instance : DecidableRel AtMost := fun _ _ => inferInstanceAs (Decidable (_ ∧ _))

theorem AtMost.refl (counters : Counters) : counters.AtMost counters := ⟨Int.le_refl _, Int.le_refl _⟩

theorem wentDown_eq_false {current previous : Counters} (grown : previous.AtMost current) :
    current.wentDown previous = false := by
  obtain ⟨processed, dropped⟩ := grown
  simp only [wentDown, Bool.or_eq_false_iff, decide_eq_false_iff_not]
  omega

/-- Counters that are at most the previous ones went down where they differ. -/
theorem wentDown_iff_ne {current previous : Counters} (shrunk : current.AtMost previous) :
    current.wentDown previous = true ↔ current ≠ previous := by
  obtain ⟨processed, dropped⟩ := current
  obtain ⟨processed', dropped'⟩ := previous
  obtain ⟨processes, drops⟩ : processed ≤ processed' ∧ dropped ≤ dropped' := shrunk
  simp only [wentDown, Bool.or_eq_true, decide_eq_true_eq, ne_eq, Counters.mk.injEq]
  omega

theorem sum_atMost {left right : List Counters} (each : List.Forall₂ AtMost left right) :
    (sum left).AtMost (sum right) := by
  induction each with
  | nil => exact AtMost.refl _
  | @cons first second left right atMost rest inductionHypothesis =>
    obtain ⟨processed, dropped⟩ := atMost
    obtain ⟨processed', dropped'⟩ := inductionHypothesis
    show (first.add (sum left)).AtMost (second.add (sum right))
    exact ⟨Int.add_le_add processed processed', Int.add_le_add dropped dropped'⟩

/-- Counters in order that add up to the same are the same. -/
theorem eq_of_sum_eq {left right : List Counters} (each : List.Forall₂ AtMost left right)
    (same : sum left = sum right) : left = right := by
  induction each with
  | nil => rfl
  | @cons first second left right atMost rest inductionHypothesis =>
    obtain ⟨processed, dropped⟩ := atMost
    obtain ⟨processed', dropped'⟩ := sum_atMost rest
    have together : first.add (sum left) = second.add (sum right) := same
    obtain ⟨processes, drops⟩ := Counters.mk.inj together
    have head : first = second := by
      obtain ⟨_, _⟩ := first
      obtain ⟨_, _⟩ := second
      simp only [Counters.mk.injEq] at *
      omega
    have tail : sum left = sum right := by
      generalize sum left = low at *
      generalize sum right = high at *
      obtain ⟨_, _⟩ := low
      obtain ⟨_, _⟩ := high
      simp only [Counters.mk.injEq] at *
      omega
    rw [head, inductionHypothesis tail]

end Counters

namespace Sample

/-- No counter of a sample is above that of another on any core. -/
def AtMost (left right : Sample) : Prop := List.Forall₂ Counters.AtMost left.cores right.cores

instance : DecidableRel AtMost := fun left right =>
  inferInstanceAs (Decidable (List.Forall₂ Counters.AtMost left.cores right.cores))

theorem AtMost.refl (sample : Sample) : sample.AtMost sample :=
  List.forall₂_same.mpr fun counters _ => .refl counters

/-- The total of a sample is the sum over its cores. -/
def Summed (sample : Sample) : Prop := sample.total = .sum sample.cores

/-- Some pair of two samples went down, in total or on a core. -/
def WentDown (current previous : Sample) : Prop :=
  current.total.wentDown previous.total = true ∨
    ∃ pair ∈ current.cores.zip previous.cores, pair.1.wentDown pair.2 = true

theorem AtMost.total {left right : Sample} (atMost : left.AtMost right) (summed : left.Summed)
    (summed' : right.Summed) : left.total.AtMost right.total := by
  rw [summed, summed']
  exact Counters.sum_atMost atMost

/-- Of samples in order those with the same total are the same on every core. -/
theorem AtMost.cores_eq {left right : Sample} (atMost : left.AtMost right) (summed : left.Summed)
    (summed' : right.Summed) (same : left.total = right.total) : left.cores = right.cores :=
  Counters.eq_of_sum_eq atMost (summed.symm.trans (same.trans summed'))

section Stale

/- A record is stale if it has the later place and not the later reading. -/
variable {current previous : Sample} {stale : Prop} (summed : current.Summed)
  (summed' : previous.Summed) (grown : ¬stale → previous.AtMost current)
  (shrunk : stale → current.AtMost previous)

include grown shrunk

/-- The counters of a core go down just where the current record is stale and they differ. -/
theorem core_wentDown_iff {core : Nat} {now before : Counters}
    (inCurrent : current.cores[core]? = some now) (inPrevious : previous.cores[core]? = some before) :
    now.wentDown before = true ↔ stale ∧ now ≠ before := by
  obtain ⟨bound, rfl⟩ := List.getElem?_eq_some_iff.mp inCurrent
  obtain ⟨bound', rfl⟩ := List.getElem?_eq_some_iff.mp inPrevious
  by_cases isStale : stale
  · rw [and_iff_right isStale]
    exact Counters.wentDown_iff_ne ((shrunk isStale).get bound bound')
  · have kept := Counters.wentDown_eq_false ((grown isStale).get bound' bound)
    exact iff_of_false (Bool.eq_false_iff.mp kept) fun both => isStale both.1

include summed summed'

/-- The totals go down just where the current record is stale and they differ. -/
theorem total_wentDown_iff :
    current.total.wentDown previous.total = true ↔ stale ∧ current.total ≠ previous.total := by
  by_cases isStale : stale
  · rw [and_iff_right isStale]
    exact Counters.wentDown_iff_ne ((shrunk isStale).total summed summed')
  · have kept := Counters.wentDown_eq_false ((grown isStale).total summed' summed)
    exact iff_of_false (Bool.eq_false_iff.mp kept) fun both => isStale both.1

/-- Where some pair goes down the totals do. -/
theorem wentDown_iff : current.WentDown previous ↔ stale ∧ current.total ≠ previous.total := by
  rw [← total_wentDown_iff summed summed' grown shrunk]
  refine ⟨fun down => ?_, .inl⟩
  rcases down with total | ⟨⟨now, before⟩, member, core⟩
  · exact total
  · obtain ⟨index, bound, same⟩ := List.getElem_of_mem member
    rw [List.getElem_zip, Prod.mk.injEq] at same
    rw [List.length_zip, Nat.lt_min] at bound
    have inCurrent := List.getElem?_eq_some_iff.mpr ⟨bound.1, same.1⟩
    have inPrevious := List.getElem?_eq_some_iff.mpr ⟨bound.2, same.2⟩
    obtain ⟨isStale, differ⟩ :=
      (core_wentDown_iff grown shrunk inCurrent inPrevious).mp core
    refine (total_wentDown_iff summed summed' grown shrunk).mpr ⟨isStale, fun equal => differ ?_⟩
    rw [(shrunk isStale).cores_eq summed summed' equal, inPrevious] at inCurrent
    exact (Option.some.inj inCurrent).symm

end Stale

end Sample

namespace Rate

/-! ### What a rate notes -/

/-- The rates of a counter pair note that it went down, and nothing else. -/
theorem mem_notices_between {notice : Notice} (current previous : Counters) (period : Binary64) :
    notice ∈ (between current previous period).notices ↔
      current.wentDown previous = true ∧ notice = .counterReset previous current := by
  unfold between
  cases current.wentDown previous <;>
    simp only [reduceIte, Bool.false_eq_true, Noted.mem_notices_bind, Noted.not_mem_notices_pure,
      Noted.not_mem_notices_lift, Noted.mem_notices_note, and_false, exists_false, or_false,
      false_and, true_and]

theorem wentDown_of_mem_notices_total {notice : Notice} {current previous : Sample}
    (member : notice ∈ (total current previous).notices) :
    current.total.wentDown previous.total = true := by
  rw [total, Noted.mem_notices_bind] at member
  rcases member with nowhere | ⟨period, -, inBetween⟩
  · exact absurd nowhere (Noted.not_mem_notices_lift _)
  · exact ((mem_notices_between _ _ _).mp inBetween).1

theorem mem_notices_total {current previous : Sample} {rate : Rate}
    (outcome : (total current previous).outcome = .ok rate)
    (down : current.total.wentDown previous.total = true) :
    .counterReset previous.total current.total ∈ (total current previous).notices := by
  rw [total, Noted.outcome_bind_eq_ok] at outcome
  obtain ⟨period, seconds, -⟩ := outcome
  rw [total, Noted.mem_notices_bind]
  exact .inr ⟨period, seconds, (mem_notices_between _ _ _).mpr ⟨down, rfl⟩⟩

theorem exists_wentDown_of_mem_notices_cores {notice : Notice} {current previous : Sample}
    (member : notice ∈ (cores current previous).notices) :
    ∃ pair ∈ current.cores.zip previous.cores, pair.1.wentDown pair.2 = true := by
  rw [cores, Noted.mem_notices_bind] at member
  rcases member with nowhere | ⟨period, -, later⟩
  · exact absurd nowhere (Noted.not_mem_notices_lift _)
  · obtain ⟨pair, inZip, inBetween⟩ := Noted.exists_of_mem_notices_mapM later
    exact ⟨pair, inZip, ((mem_notices_between _ _ _).mp inBetween).1⟩

/-! ### What a rate is flagged with -/

theorem reset_of_between {current previous : Counters} {period : Binary64} {rate : Rate}
    (outcome : (between current previous period).outcome = .ok rate) :
    rate.reset = current.wentDown previous := by
  obtain ⟨processed, dropped, -, -, rfl⟩ := (outcome_between_eq_ok _ _ _ _).mp outcome
  rfl

theorem reset_of_total {current previous : Sample} {rate : Rate}
    (outcome : (total current previous).outcome = .ok rate) :
    rate.reset = current.total.wentDown previous.total := by
  rw [total, Noted.outcome_bind_eq_ok] at outcome
  obtain ⟨period, -, outcome⟩ := outcome
  exact reset_of_between outcome

/-- The rate of a core is flagged by the counters of that core. -/
theorem reset_of_cores {current previous : Sample} {rates : List Rate} {core : Nat} {rate : Rate}
    (outcome : (cores current previous).outcome = .ok rates) (found : rates[core]? = some rate) :
    ∃ now before, current.cores[core]? = some now ∧ previous.cores[core]? = some before ∧
      rate.reset = now.wentDown before := by
  obtain ⟨now, before, period, inCurrent, inPrevious, -, ofPair⟩ :=
    (getElem?_cores_iff outcome core rate).mp found
  exact ⟨now, before, inCurrent, inPrevious, reset_of_between ofPair⟩

end Rate

namespace Report

variable {notice : Notice}

/-! ### What a report notes -/

theorem wentDown_of_mem_notices_groupRows {label : String} {withDrops : Bool}
    {current previous : Sample}
    (member : notice ∈ (groupRows label withDrops current previous).notices) :
    current.WentDown previous := by
  simp only [groupRows, Noted.mem_notices_bind, Noted.not_mem_notices_pure, and_false,
    exists_false, or_false] at member
  rcases member with perCore | ⟨rates, -, overall⟩
  · exact .inr (Rate.exists_wentDown_of_mem_notices_cores perCore)
  · exact .inl (Rate.wentDown_of_mem_notices_total overall)

theorem wentDown_of_mem_notices_targetRows {target : Nat} {current previous : Sample}
    (member : notice ∈ (targetRows target current previous).notices) :
    current.WentDown previous := by
  simp only [targetRows, Noted.mem_notices_bind] at member
  rcases member with overall | ⟨total, -, later⟩
  · exact .inl (Rate.wentDown_of_mem_notices_total overall)
  · split at later
    · exact absurd later (Noted.not_mem_notices_pure _)
    · rcases (Noted.mem_notices_bind _ _).mp later with perCore | ⟨rates, -, nowhere⟩
      · exact .inr (Rate.exists_wentDown_of_mem_notices_cores perCore)
      · exact absurd nowhere (Noted.not_mem_notices_pure _)

/-- The rows of a group note nothing unless some pair of its samples went down. -/
theorem wentDown_of_mem_notices_ownRows {group : Group} {current previous : Snapshot}
    (member : notice ∈ (ownRows group current previous).notices) :
    (current.sample group).WentDown (previous.sample group) := by
  cases group with
  | enqueue target => exact wentDown_of_mem_notices_targetRows member
  | rx | kthread | redirectErr => exact wentDown_of_mem_notices_groupRows member

/-- They note it if the totals went down. -/
theorem mem_notices_ownRows {group : Group} {current previous : Snapshot} {rows : List Row}
    (outcome : (ownRows group current previous).outcome = .ok rows)
    (down : (current.sample group).total.wentDown (previous.sample group).total = true) :
    .counterReset (previous.sample group).total (current.sample group).total ∈
      (ownRows group current previous).notices := by
  cases group with
  | enqueue target =>
    simp only [ownRows, targetRows, Noted.outcome_bind_eq_ok] at outcome
    obtain ⟨total, ofTotal, -⟩ := outcome
    rw [ownRows, targetRows, Noted.mem_notices_bind]
    exact .inl (Rate.mem_notices_total ofTotal down)
  | rx | kthread | redirectErr =>
    simp only [ownRows, groupRows, Noted.outcome_bind_eq_ok] at outcome
    obtain ⟨rates, ofRates, total, ofTotal, -⟩ := outcome
    simp only [ownRows, groupRows, Noted.mem_notices_bind]
    exact .inr ⟨rates, ofRates, .inl (Rate.mem_notices_total ofTotal down)⟩

/-- What a report notes the rows of one of its groups note. -/
theorem exists_of_mem_notices_rows {current previous : Snapshot}
    (member : notice ∈ (Report.rows current previous).notices) :
    ∃ group ∈ reported current previous,
      notice ∈ (ownRows group current previous).notices := by
  simp only [Report.rows, allTargetRows, Noted.mem_notices_bind, Noted.not_mem_notices_pure,
    and_false, exists_false, or_false] at member
  rcases member with rx | ⟨_, -, targets | ⟨_, -, kthread | ⟨_, -, redirectErr⟩⟩⟩
  · exact ⟨.rx, by simp [reported], rx⟩
  · obtain ⟨_, inTargets, found⟩ := Noted.exists_of_mem_notices_mapM targets
    rw [zipIdx_enqueue] at inTargets
    obtain ⟨target, bound, rfl⟩ := List.mem_map.mp inTargets
    exact ⟨.enqueue target, by simpa [reported] using bound, found⟩
  · exact ⟨.kthread, by simp [reported], kthread⟩
  · exact ⟨.redirectErr, by simp [reported], redirectErr⟩

/-- A report whose rows are all known notes what the rows of its groups note. -/
theorem mem_notices_rows {current previous : Snapshot} {rows : List Row} {group : Group}
    (outcome : (Report.rows current previous).outcome = .ok rows)
    (inReport : group ∈ reported current previous)
    (found : notice ∈ (ownRows group current previous).notices) :
    notice ∈ (Report.rows current previous).notices := by
  simp only [Report.rows, Noted.outcome_bind_eq_ok] at outcome
  obtain ⟨rx, ofRx, targets, ofTargets, kthread, ofKthread, redirectErr, ofRedirectErr, -⟩ := outcome
  simp only [Report.rows, Noted.mem_notices_bind]
  cases group with
  | rx => exact .inl found
  | enqueue target =>
    refine .inr ⟨rx, ofRx, .inl ?_⟩
    rw [allTargetRows, Noted.outcome_bind_eq_ok] at ofTargets
    obtain ⟨parts, ofParts, -⟩ := ofTargets
    rw [allTargetRows, Noted.mem_notices_bind]
    have inTargets : ((current.sample (.enqueue target), previous.sample (.enqueue target)),
        target) ∈ (current.enqueue.zip previous.enqueue).zipIdx := by
      rw [zipIdx_enqueue]
      exact List.mem_map.mpr ⟨target, by simpa [reported] using inReport, rfl⟩
    exact .inl (Noted.mem_notices_mapM ofParts inTargets found)
  | kthread => exact .inr ⟨rx, ofRx, .inr ⟨targets, ofTargets, .inl found⟩⟩
  | redirectErr =>
    exact .inr ⟨rx, ofRx, .inr ⟨targets, ofTargets, .inr ⟨kthread, ofKthread, .inl found⟩⟩⟩

end Report

end RedirectMonitor
