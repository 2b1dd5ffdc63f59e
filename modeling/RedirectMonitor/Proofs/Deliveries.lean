/-
This file says what a store holds in terms of the readings that were directed into it. A
delivery is a reading with its group and the side it went to; a delivery with values replaces
the record of its group on its side, and touches no other.

The content is that the records remember nothing else: a record is the sample of the last
delivery of its group to its side that had values, and it is blank where there was none.
Deliveries without values, deliveries of other groups and deliveries to the other side leave
no trace in it, so that a record is never half-written or mixed.
-/

import RedirectMonitor.Store
import Mathlib.Data.List.Basic

namespace RedirectMonitor

/-! ### Readings and deliveries -/

/-- A reading of a group, directed into a side. -/
structure Delivery where
  side : Side
  group : Group
  reading : Reading
deriving DecidableEq, Repr

namespace Reading

/-- The sample that a reading with values amounts to: its time, the sum of the values, and the
values in their order. -/
def sample? : Reading → Option Sample
  | .taken time values => some { time, total := .sum values, cores := values }
  | .unread _ | .broken _ => none

/-- A reading fits a number of cores if its values, where it has some, are as many. -/
def Fits (cores : Int) : Reading → Prop
  | .taken _ values => (values.length : Int) = cores
  | .unread _ | .broken _ => True

theorem broken_or_sound (reading : Reading) :
    (∃ fault, reading = .broken fault) ∨ ∀ fault, reading ≠ .broken fault := by
  cases reading with
  | broken fault => exact .inl ⟨fault, rfl⟩
  | taken time values | unread failure => exact .inr fun _ => nofun

theorem sample?_shape {reading : Reading} {cores : Int} {sample : Sample}
    (fits : reading.Fits cores) (found : reading.sample? = some sample) :
    sample.cores.length = cores.toNat ∧ sample.total = .sum sample.cores := by
  cases reading with
  | taken time values =>
    have count : (values.length : Int) = cores := fits
    cases found
    refine ⟨?_, rfl⟩
    show values.length = cores.toNat
    omega
  | unread failure | broken fault => exact absurd found (by simp [sample?])

end Reading

/-- A reading has values only where the lookup gave one for each core, and then its time is that
of the clock. -/
theorem World.read_eq_taken_iff {σ : Type} (world : World σ) (cores : Int) (map : String)
    (key : Int) (state : σ) (time : Int) (values : List Counters) :
    (world.read cores map key state).1 = .taken time values ↔
      (world.lookup map key state).1 = .ok values ∧ (values.length : Int) = cores ∧
        (world.clock (world.lookup map key state).2).1 = .ok time := by
  unfold World.read
  rcases answer : world.lookup map key state with ⟨failure | found, after⟩
  · cases failure <;> simp
  · by_cases counted : (found.length : Int) = cores
    · rcases clocked : world.clock after with ⟨fault | now, later⟩
      · simp [World.stamp, counted, clocked]
      · simp only [World.stamp, counted, clocked, ne_eq, not_true_eq_false, if_false,
          Reading.taken.injEq, Except.ok.injEq]
        constructor
        · rintro ⟨rfl, rfl⟩
          exact ⟨rfl, counted, rfl⟩
        · rintro ⟨rfl, -, rfl⟩
          exact ⟨rfl, rfl⟩
    · simp only [ne_eq, counted, not_false_eq_true, if_true, reduceCtorEq, Except.ok.injEq,
        false_iff, not_and]
      rintro rfl same
      exact absurd same counted

theorem World.read_fits {σ : Type} (world : World σ) (cores : Int) (map : String) (key : Int)
    (state : σ) : (world.read cores map key state).1.Fits cores := by
  cases reading : (world.read cores map key state).1 with
  | taken time values =>
    exact ((world.read_eq_taken_iff cores map key state time values).mp reading).2.1
  | unread failure => exact trivial
  | broken fault => exact trivial

namespace Delivery

/-- The deliveries of a group. -/
def ownOf (group : Group) (deliveries : List Delivery) : List Delivery :=
  deliveries.filter fun delivery => delivery.group = group

theorem ownOf_append (group : Group) (first second : List Delivery) :
    ownOf group (first ++ second) = ownOf group first ++ ownOf group second :=
  List.filter_append _ _

theorem ownOf_singleton_self (delivery : Delivery) :
    ownOf delivery.group [delivery] = [delivery] := by
  simp [ownOf]

theorem ownOf_singleton_of_ne (delivery : Delivery) (group : Group)
    (different : delivery.group ≠ group) : ownOf group [delivery] = [] := by
  simp [ownOf, different]

/-- The sample of a delivery, if it is one of a group to a side and has values. -/
def sampleFor? (side : Side) (group : Group) (delivery : Delivery) : Option Sample :=
  if delivery.side = side ∧ delivery.group = group then delivery.reading.sample? else none

/-- The samples that were delivered of a group to a side, in the order of the deliveries. -/
def samples (side : Side) (group : Group) (deliveries : List Delivery) : List Sample :=
  deliveries.filterMap (sampleFor? side group)

/-- The last sample that was delivered of a group to a side, or else what was there before. -/
def latest (side : Side) (group : Group) (before : Sample) (deliveries : List Delivery) : Sample :=
  (samples side group deliveries).getLast?.getD before

theorem sample?_of_sampleFor? {side : Side} {group : Group} {delivery : Delivery} {sample : Sample}
    (found : delivery.sampleFor? side group = some sample) :
    delivery.reading.sample? = some sample := by
  unfold sampleFor? at found
  split at found
  · exact found
  · exact absurd found (by simp)

theorem samples_append (side : Side) (group : Group) (first second : List Delivery) :
    samples side group (first ++ second) =
      samples side group first ++ samples side group second :=
  List.filterMap_append

theorem latest_append (side : Side) (group : Group) (before : Sample)
    (first second : List Delivery) :
    latest side group before (first ++ second) =
      latest side group (latest side group before first) second := by
  unfold latest
  rw [samples_append, List.getLast?_append]
  cases (samples side group second).getLast? <;> rfl

theorem latest_cons (side : Side) (group : Group) (before : Sample) (delivery : Delivery)
    (rest : List Delivery) :
    latest side group before (delivery :: rest) =
      latest side group ((sampleFor? side group delivery).getD before) rest := by
  rw [← List.singleton_append, latest_append]
  unfold latest samples
  cases sample : sampleFor? side group delivery with
  | none => simp [sample]
  | some found => simp [sample]

/-- The last sample is one of those delivered, or what was there before. -/
theorem latest_mem (side : Side) (group : Group) (before : Sample) (deliveries : List Delivery) :
    latest side group before deliveries = before ∨
      latest side group before deliveries ∈ samples side group deliveries := by
  unfold latest
  cases last : (samples side group deliveries).getLast? with
  | none => exact .inl rfl
  | some sample => exact .inr (List.mem_of_getLast? last)

theorem latest_mem_of_ne_nil (side : Side) (group : Group) (before : Sample)
    (deliveries : List Delivery) (some : samples side group deliveries ≠ []) :
    latest side group before deliveries ∈ samples side group deliveries := by
  unfold latest
  rw [List.getLast?_eq_getLast_of_ne_nil some]
  exact List.getLast_mem some

/-- A sample that was delivered comes from a reading with values. -/
theorem mem_samples_iff (side : Side) (group : Group) (deliveries : List Delivery)
    (sample : Sample) :
    sample ∈ samples side group deliveries ↔
      ∃ reading, ⟨side, group, reading⟩ ∈ deliveries ∧ reading.sample? = some sample := by
  unfold samples
  rw [List.mem_filterMap]
  constructor
  · rintro ⟨⟨side', group', reading⟩, member, found⟩
    unfold sampleFor? at found
    split at found
    · rename_i same
      obtain ⟨rfl, rfl⟩ := same
      exact ⟨reading, member, found⟩
    · exact absurd found (by simp)
  · rintro ⟨reading, member, found⟩
    refine ⟨_, member, ?_⟩
    rw [sampleFor?, if_pos ⟨rfl, rfl⟩]
    exact found

end Delivery

/-! ### Slots of a snapshot -/

namespace Group

/-- No target has two groups. -/
theorem enqueue_nodup (count : Nat) : ((List.range count).map enqueue).Nodup :=
  List.pairwise_map.mpr (List.nodup_range.imp fun different same =>
    different (enqueue.inj same))

theorem tracked_nodup (targets : Int) : (tracked targets).Nodup := by
  simp [tracked, List.nodup_append, enqueue_nodup]

end Group

namespace Snapshot

/-- A snapshot covers a group if it has a slot for it. -/
def Covers (snapshot : Snapshot) : Group → Prop
  | .enqueue target => target < snapshot.targetCount
  | .rx | .redirectErr | .kthread => True

theorem sample_setSample_self (snapshot : Snapshot) (group : Group) (sample : Sample)
    (covers : snapshot.Covers group) : (snapshot.setSample group sample).sample group = sample := by
  cases group with
  | enqueue target =>
    have bound : target < snapshot.enqueue.length := covers
    simp [Snapshot.sample, setSample, List.getD_eq_getElem?_getD, bound]
  | rx | redirectErr | kthread => rfl

/-- Distinct groups have distinct slots. -/
theorem sample_setSample_of_ne (snapshot : Snapshot) (group other : Group) (sample : Sample)
    (different : other ≠ group) :
    (snapshot.setSample group sample).sample other = snapshot.sample other := by
  cases group <;> cases other <;> try rfl
  case rx.rx | redirectErr.redirectErr | kthread.kthread => exact absurd rfl different
  case enqueue.enqueue target target' =>
    have apart : target ≠ target' := fun same => different (by rw [same])
    simp [Snapshot.sample, setSample, List.getD_eq_getElem?_getD, List.getElem?_set_ne apart]

theorem targetCount_setSample (snapshot : Snapshot) (group : Group) (sample : Sample) :
    (snapshot.setSample group sample).targetCount = snapshot.targetCount := by
  cases group with
  | enqueue target => exact List.length_set
  | rx | redirectErr | kthread => rfl

/-- A tracked group has a slot in every snapshot of as many targets. -/
theorem covers_of_mem_tracked (snapshot : Snapshot) (targets : Int) (group : Group)
    (sized : snapshot.targetCount = targets.toNat) (tracked : group ∈ Group.tracked targets) :
    snapshot.Covers group := by
  cases group with
  | enqueue target =>
    have bound : target < targets.toNat := by simpa [Group.tracked] using tracked
    show target < snapshot.targetCount
    rw [sized]
    exact bound
  | rx | redirectErr | kthread => exact trivial

theorem sample_blank (cores targets : Nat) (group : Group)
    (tracked : group ∈ Group.tracked targets) :
    (Snapshot.blank cores targets).sample group = .blank cores := by
  cases group with
  | enqueue target =>
    have bound : target < targets := by simpa [Group.tracked] using tracked
    simp [Snapshot.sample, Snapshot.blank, List.getD_eq_getElem?_getD, bound]
  | rx | redirectErr | kthread => rfl

end Snapshot

theorem Counters.sum_replicate_zero (cores : Nat) :
    Counters.sum (List.replicate cores {}) = {} := by
  induction cores with
  | zero => rfl
  | succ cores inductionHypothesis =>
    rw [List.replicate_succ]
    show Counters.add {} (Counters.sum (List.replicate cores {})) = {}
    rw [inductionHypothesis]
    rfl

/-- Values for each core replace the whole sample. -/
theorem Sample.receive_of_fits (sample : Sample) (reading : Reading) (cores : Int)
    (fits : reading.Fits cores) (sized : sample.cores.length = cores.toNat) :
    sample.receive reading = reading.sample?.getD sample := by
  cases reading with
  | taken time values =>
    have count : values.length = sample.cores.length := by
      have same : (values.length : Int) = cores := fits
      omega
    simp [Sample.receive, Sample.record, Reading.sample?, ← count]
  | unread failure | broken fault => rfl

/-! ### A store and its deliveries -/

namespace Store

/-- The store after a delivery. -/
def deliver (store : Store) (delivery : Delivery) : Store :=
  store.receive delivery.side delivery.group delivery.reading

/-- The store after deliveries, one after the other. -/
def deliverAll (store : Store) (deliveries : List Delivery) : Store :=
  deliveries.foldl deliver store

/-- The snapshots of a store have a slot for every tracked group, with as many cores as the store
counts, and every total is the sum of its cores. -/
structure WellSized (store : Store) : Prop where
  targets : ∀ side, (store.snapshot side).targetCount = store.targets.toNat
  cores : ∀ side, ∀ group ∈ store.groups,
    ((store.snapshot side).sample group).cores.length = store.cores.toNat
  totals : ∀ side, ∀ group ∈ store.groups,
    ((store.snapshot side).sample group).total =
      .sum ((store.snapshot side).sample group).cores

/-- A delivery suits a store if its group is tracked and its values are one for each core. -/
def Suits (store : Store) (delivery : Delivery) : Prop :=
  delivery.group ∈ store.groups ∧ delivery.reading.Fits store.cores

theorem snapshot_setSnapshot_self (store : Store) (side : Side) (snapshot : Snapshot) :
    (store.setSnapshot side snapshot).snapshot side = snapshot := by
  cases side <;> rfl

theorem snapshot_setSnapshot_of_ne (store : Store) (side other : Side) (snapshot : Snapshot)
    (different : other ≠ side) :
    (store.setSnapshot side snapshot).snapshot other = store.snapshot other := by
  cases side <;> cases other <;> first | rfl | exact absurd rfl different

theorem deliver_cores (store : Store) (delivery : Delivery) :
    (store.deliver delivery).cores = store.cores := by
  unfold deliver receive setSnapshot
  split <;> try split
  all_goals rfl

theorem deliver_targets (store : Store) (delivery : Delivery) :
    (store.deliver delivery).targets = store.targets := by
  unfold deliver receive setSnapshot
  split <;> try split
  all_goals rfl

theorem deliver_newest (store : Store) (delivery : Delivery) :
    (store.deliver delivery).newest = store.newest := by
  unfold deliver receive setSnapshot
  split <;> try split
  all_goals rfl

theorem deliver_groups (store : Store) (delivery : Delivery) :
    (store.deliver delivery).groups = store.groups := by
  rw [groups, deliver_targets, groups]

/-- The other side keeps its snapshot. -/
theorem snapshot_deliver_of_ne (store : Store) (delivery : Delivery) (side : Side)
    (different : side ≠ delivery.side) :
    (store.deliver delivery).snapshot side = store.snapshot side := by
  rcases delivery with ⟨side', group, reading⟩
  cases reading with
  | taken time values => exact snapshot_setSnapshot_of_ne store side' side _ different
  | unread failure | broken fault => rfl

theorem targetCount_deliver (store : Store) (delivery : Delivery) (side : Side) :
    ((store.deliver delivery).snapshot side).targetCount = (store.snapshot side).targetCount := by
  by_cases same : side = delivery.side
  · rcases delivery with ⟨side', group, reading⟩
    subst same
    cases reading with
    | taken time values =>
      show ((store.setSnapshot side _).snapshot side).targetCount = _
      rw [snapshot_setSnapshot_self, Snapshot.targetCount_setSample]
    | unread failure | broken fault => rfl
  · rw [snapshot_deliver_of_ne store delivery side same]

/-- A delivery of values that fit replaces the record of its group, if there is a slot for it. -/
theorem sample_deliver_self (store : Store) (side : Side) (group : Group) (reading : Reading)
    (covers : (store.snapshot side).Covers group) {cores : Int} (fits : reading.Fits cores)
    (sized : ((store.snapshot side).sample group).cores.length = cores.toNat) :
    ((store.deliver ⟨side, group, reading⟩).snapshot side).sample group =
      reading.sample?.getD ((store.snapshot side).sample group) := by
  rw [← Sample.receive_of_fits _ _ cores fits sized]
  cases reading with
  | taken time values =>
    show ((store.setSnapshot side _).snapshot side).sample group = _
    rw [snapshot_setSnapshot_self, Snapshot.sample_setSample_self _ _ _ covers]
  | unread failure | broken fault => rfl

/-- A delivery touches no record of another group. -/
theorem sample_deliver_of_ne (store : Store) (delivery : Delivery) (side : Side) (group : Group)
    (different : group ≠ delivery.group) :
    ((store.deliver delivery).snapshot side).sample group =
      (store.snapshot side).sample group := by
  by_cases same : side = delivery.side
  · rcases delivery with ⟨side', group', reading⟩
    subst same
    cases reading with
    | taken time values =>
      show ((store.setSnapshot side _).snapshot side).sample group = _
      rw [snapshot_setSnapshot_self, Snapshot.sample_setSample_of_ne _ _ _ _ different]
    | unread failure | broken fault => rfl
  · rw [snapshot_deliver_of_ne store delivery side same]

/-- What a suitable delivery does to a record: it replaces the record of its own group on its own
side if it has values, and touches no other. -/
theorem sample_deliver (store : Store) (sized : store.WellSized) (delivery : Delivery)
    (suits : store.Suits delivery) (side : Side) (group : Group) :
    ((store.deliver delivery).snapshot side).sample group =
      (delivery.sampleFor? side group).getD ((store.snapshot side).sample group) := by
  rcases delivery with ⟨side', group', reading⟩
  obtain ⟨tracked, fits⟩ := suits
  unfold Delivery.sampleFor?
  by_cases sameSide : side' = side
  · subst sameSide
    by_cases sameGroup : group' = group
    · subst sameGroup
      have covers := Snapshot.covers_of_mem_tracked (store.snapshot side') store.targets group'
        (sized.targets side') tracked
      rw [if_pos ⟨rfl, rfl⟩]
      exact sample_deliver_self store side' group' reading covers fits
        (sized.cores side' group' tracked)
    · rw [if_neg fun same => sameGroup same.2]
      exact sample_deliver_of_ne store _ side' group (Ne.symm sameGroup)
  · rw [if_neg fun same => sameSide same.1,
      snapshot_deliver_of_ne store _ side (Ne.symm sameSide)]
    rfl

theorem WellSized.deliver {store : Store} (sized : store.WellSized) (delivery : Delivery)
    (suits : store.Suits delivery) : (store.deliver delivery).WellSized := by
  have sampled := sample_deliver store sized delivery suits
  have delivered : ∀ side group sample, delivery.sampleFor? side group = some sample →
      sample.cores.length = store.cores.toNat ∧ sample.total = .sum sample.cores :=
    fun side group sample found =>
      Reading.sample?_shape suits.2 (Delivery.sample?_of_sampleFor? found)
  refine ⟨fun side => ?_, fun side group tracked => ?_, fun side group tracked => ?_⟩
  · rw [targetCount_deliver, deliver_targets]
    exact sized.targets side
  · rw [deliver_groups] at tracked
    rw [sampled, deliver_cores]
    cases found : delivery.sampleFor? side group with
    | none => exact sized.cores side group tracked
    | some sample => exact (delivered side group sample found).1
  · rw [deliver_groups] at tracked
    rw [sampled]
    cases found : delivery.sampleFor? side group with
    | none => exact sized.totals side group tracked
    | some sample => exact (delivered side group sample found).2

theorem deliverAll_append (store : Store) (first second : List Delivery) :
    store.deliverAll (first ++ second) = (store.deliverAll first).deliverAll second :=
  List.foldl_append

theorem deliverAll_cores (store : Store) (deliveries : List Delivery) :
    (store.deliverAll deliveries).cores = store.cores := by
  induction deliveries generalizing store with
  | nil => rfl
  | cons delivery rest inductionHypothesis =>
    exact (inductionHypothesis (store.deliver delivery)).trans (deliver_cores store delivery)

theorem deliverAll_targets (store : Store) (deliveries : List Delivery) :
    (store.deliverAll deliveries).targets = store.targets := by
  induction deliveries generalizing store with
  | nil => rfl
  | cons delivery rest inductionHypothesis =>
    exact (inductionHypothesis (store.deliver delivery)).trans (deliver_targets store delivery)

theorem deliverAll_newest (store : Store) (deliveries : List Delivery) :
    (store.deliverAll deliveries).newest = store.newest := by
  induction deliveries generalizing store with
  | nil => rfl
  | cons delivery rest inductionHypothesis =>
    exact (inductionHypothesis (store.deliver delivery)).trans (deliver_newest store delivery)

theorem targetCount_deliverAll (store : Store) (deliveries : List Delivery) (side : Side) :
    ((store.deliverAll deliveries).snapshot side).targetCount =
      (store.snapshot side).targetCount := by
  induction deliveries generalizing store with
  | nil => rfl
  | cons delivery rest inductionHypothesis =>
    exact (inductionHypothesis (store.deliver delivery)).trans
      (targetCount_deliver store delivery side)

theorem Suits.deliver {store : Store} {delivery other : Delivery} (suits : store.Suits other) :
    (store.deliver delivery).Suits other := by
  rw [Suits, deliver_groups, deliver_cores]
  exact suits

theorem WellSized.deliverAll {store : Store} (sized : store.WellSized) (deliveries : List Delivery)
    (suit : ∀ delivery ∈ deliveries, store.Suits delivery) :
    (store.deliverAll deliveries).WellSized := by
  induction deliveries generalizing store with
  | nil => exact sized
  | cons delivery rest inductionHypothesis =>
    exact inductionHypothesis (sized.deliver delivery (suit delivery List.mem_cons_self))
      fun other member => (suit other (List.mem_cons_of_mem _ member)).deliver

/-- The records of a store follow from its deliveries alone. -/
theorem sample_deliverAll (store : Store) (sized : store.WellSized) (deliveries : List Delivery)
    (suit : ∀ delivery ∈ deliveries, store.Suits delivery) (side : Side) (group : Group) :
    ((store.deliverAll deliveries).snapshot side).sample group =
      Delivery.latest side group ((store.snapshot side).sample group) deliveries := by
  induction deliveries generalizing store with
  | nil => rfl
  | cons delivery rest inductionHypothesis =>
    have suits := suit delivery List.mem_cons_self
    rw [Delivery.latest_cons, ← sample_deliver store sized delivery suits]
    exact inductionHypothesis (store.deliver delivery) (sized.deliver delivery suits)
      fun other member => (suit other (List.mem_cons_of_mem _ member)).deliver

theorem sample_blank (cores targets : Int) (side : Side) (group : Group)
    (tracked : group ∈ Group.tracked targets) :
    ((blank cores targets).snapshot side).sample group = .blank cores.toNat := by
  have natural : group ∈ Group.tracked targets.toNat := by
    rw [Group.tracked, Int.toNat_natCast]
    exact tracked
  cases side <;> exact Snapshot.sample_blank cores.toNat targets.toNat group natural

theorem wellSized_blank (cores targets : Int) : (blank cores targets).WellSized := by
  refine ⟨fun side => ?_, fun side group tracked => ?_, fun side group tracked => ?_⟩
  · cases side <;> exact List.length_replicate
  · rw [sample_blank cores targets side group tracked]
    exact List.length_replicate
  · rw [sample_blank cores targets side group tracked]
    exact (Counters.sum_replicate_zero cores.toNat).symm

end Store

end RedirectMonitor
