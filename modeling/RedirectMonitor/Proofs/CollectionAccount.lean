/-
This file accounts for a single collection. The tracked groups have places of their own that make
up a snapshot, and addresses of their own under which they are looked up. A collection asks for them
in their order: it looks a group up once, and asks the clock only if there is one value for each
core.

The content is that nothing but the answers decides what a collection does. A group with values and
a time gets just these into its place; a group without, and every group after a fault, keeps what
it had. A collection without a fault counts the groups that kept their places and warns of each.
-/

import Mathlib.Data.List.Nodup
import RedirectMonitor.Proofs.StoreHistory

namespace RedirectMonitor

/-! ### Questions and answers -/

/-- A question that a world was asked, with its answer. -/
inductive Exchange where
  | lookup (map : String) (key : Int) (answer : Except LookupError (List Counters))
  | clock (answer : Except ClockFault Int)

/-- The world that keeps in a list what it was asked. -/
def World.recorded {σ : Type} (world : World σ) : World (List Exchange × σ) where
  lookup map key := fun (asked, state) =>
    let (answer, state) := world.lookup map key state
    (answer, asked ++ [.lookup map key answer], state)
  clock := fun (asked, state) =>
    let (answer, state) := world.clock state
    (answer, asked ++ [.clock answer], state)

/-- What is asked about a group and answered, and the reading that this comes to. -/
inductive Group.Asked (group : Group) (cores : Int) : List Exchange → Reading → Prop
  | unread (failure : ReadFailure) :
    Asked group cores
      [.lookup group.address.map group.address.key (.error (.contained failure))]
      (.unread failure)
  | faulty (fault : LookupFault) :
    Asked group cores [.lookup group.address.map group.address.key (.error (.fault fault))]
      (.broken (.lookup fault))
  | miscounted (values : List Counters) (other : (values.length : Int) ≠ cores) :
    Asked group cores [.lookup group.address.map group.address.key (.ok values)]
      (.unread (.wrongCount cores values.length))
  | unclocked (values : List Counters) (count : (values.length : Int) = cores)
      (fault : ClockFault) :
    Asked group cores
      [.lookup group.address.map group.address.key (.ok values), .clock (.error fault)]
      (.broken (.error (.clock fault)))
  | taken (values : List Counters) (count : (values.length : Int) = cores) (time : Int) :
    Asked group cores
      [.lookup group.address.map group.address.key (.ok values), .clock (.ok time)]
      (.taken time values)

/-- The question of a lookup. -/
def Exchange.lookup? : Exchange → Option (String × Int)
  | .lookup map key _ => some (map, key)
  | .clock _ => none

/-- The map and the key by which the counters of a group are looked up. -/
def Group.lookup (group : Group) : String × Int := (group.address.map, group.address.key)

/-- A group is looked up once. -/
theorem Group.Asked.lookups {group : Group} {cores : Int} {exchanges : List Exchange}
    {reading : Reading} (asked : group.Asked cores exchanges reading) :
    exchanges.filterMap Exchange.lookup? = [group.lookup] := by
  cases asked <;> rfl

/-- A reading is what the answers come to, and to record them changes nothing of it. -/
theorem World.read_recorded {σ : Type} (world : World σ) (cores : Int) (group : Group)
    (asked : List Exchange) (state : σ) :
    ∃ exchanges reading later,
      group.Asked cores exchanges reading ∧
      world.read cores group.address.map group.address.key state = (reading, later) ∧
      world.recorded.read cores group.address.map group.address.key (asked, state) =
        (reading, asked ++ exchanges, later) := by
  rcases answer : world.lookup group.address.map group.address.key state with ⟨found, after⟩
  cases found with
  | error error =>
    cases error with
    | contained failure =>
      refine ⟨_, _, after, .unread failure, ?_⟩
      simp [World.read, World.recorded, answer]
    | fault fault =>
      refine ⟨_, _, after, .faulty fault, ?_⟩
      simp [World.read, World.recorded, answer]
  | ok values =>
    by_cases count : (values.length : Int) = cores
    · rcases clocked : world.clock after with ⟨now, later⟩
      cases now with
      | error fault =>
        refine ⟨_, _, later, .unclocked values count fault, ?_⟩
        simp [World.read, World.recorded, World.stamp, answer, count, clocked]
      | ok time =>
        refine ⟨_, _, later, .taken values count time, ?_⟩
        simp [World.read, World.recorded, World.stamp, answer, count, clocked]
    · refine ⟨_, _, after, .miscounted values count, ?_⟩
      simp [World.read, World.recorded, answer, count]

/-! ### Addresses and places -/

namespace Group

/-- The places in which the tracked groups are looked up, in their order. -/
def trackedLookups (targets : Int) : List (String × Int) :=
  [("rx_cnt", 0), ("redirect_err_cnt", 1)] ++
    (List.range targets.toNat).map (fun target => ("cpumap_enqueue_cnt", Int.ofNat target)) ++
    [("cpumap_kthread_cnt", 0)]

theorem lookups_tracked (targets : Int) :
    (tracked targets).map lookup = trackedLookups targets := by
  simp only [tracked, List.map_append, List.map_map]
  rfl

theorem lookup_injective : Function.Injective lookup := by
  intro first second same
  cases first <;> cases second
  case enqueue.enqueue target target' =>
    exact congrArg enqueue (Int.ofNat.inj (congrArg Prod.snd same))
  all_goals first | rfl | simp [lookup, address, counterMaps] at same

/-- No two tracked groups are looked up in the same place. -/
theorem lookups_tracked_nodup (targets : Int) : ((tracked targets).map lookup).Nodup :=
  (tracked_nodup targets).map lookup_injective

/-- The address of a tracked group finds its place. -/
theorem group?_address {targets : Int} (bound : targets ≤ (Nat.pow 2 63 : Nat)) {group : Group}
    (member : group ∈ tracked targets) :
    group.address.group? targets.toNat = .ok (some group) := by
  cases group with
  | enqueue target =>
    have below : target < targets.toNat := by simpa [tracked] using member
    have isBound : Nat.pow 2 63 = 9223372036854775808 := rfl
    have indexed : (target : Int) < 9223372036854775808 := by omega
    have covered : (target : Int) < max targets 0 := by omega
    have natural : ¬(target : Int) < 0 := by omega
    have above : ¬(target : Int) < -9223372036854775808 := by omega
    simp [Address.group?, address, natural, above, Int.not_le.mpr indexed, covered]
  | rx | redirectErr | kthread => rfl

end Group

namespace Snapshot

/-- A snapshot of so many targets, each of its samples with so many cores. -/
structure Sized (snapshot : Snapshot) (cores targets : Int) : Prop where
  count : snapshot.targetCount = targets.toNat
  width : ∀ group ∈ Group.tracked targets, (snapshot.sample group).cores.length = cores.toNat

/-- Groups have places of their own in a snapshot, where their addresses find them, and these make
up all of it. -/
structure MadeUpOf (snapshot : Snapshot) (groups : List Group) : Prop where
  found : snapshot.targetCount ≤ Nat.pow 2 63 → ∀ group ∈ groups,
    group.address.group? snapshot.targetCount = .ok (some group)
  own : ∀ group ∈ groups, ∀ sample, (snapshot.setSample group sample).sample group = sample
  apart : ∀ group ∈ groups, ∀ other ∈ groups, other ≠ group → ∀ sample,
    (snapshot.setSample group sample).sample other = snapshot.sample other
  whole : ∀ other : Snapshot, other.targetCount = snapshot.targetCount →
    (∀ group ∈ groups, other.sample group = snapshot.sample group) → other = snapshot

theorem madeUpOf_tracked {snapshot : Snapshot} {targets : Int}
    (count : snapshot.targetCount = targets.toNat) :
    snapshot.MadeUpOf (Group.tracked targets) := by
  refine ⟨fun bound group tracked => ?_, fun group tracked sample => ?_,
    fun group _ other _ different sample => ?_, fun other sameCount same => ?_⟩
  · rw [count] at bound ⊢
    exact Group.group?_address (by omega) tracked
  · exact sample_setSample_self snapshot group sample
      (covers_of_mem_tracked snapshot targets group count tracked)
  · exact sample_setSample_of_ne snapshot group other sample different
  · have rx : other.rx = snapshot.rx := same .rx (by simp [Group.tracked])
    have redirectErr : other.redirectErr = snapshot.redirectErr :=
      same .redirectErr (by simp [Group.tracked])
    have kthread : other.kthread = snapshot.kthread := same .kthread (by simp [Group.tracked])
    have enqueue : other.enqueue = snapshot.enqueue := by
      refine List.ext_getElem sameCount fun target bound bound' => ?_
      have tracked : Group.enqueue target ∈ Group.tracked targets := by
        have below : target < targets.toNat := count ▸ bound'
        simpa [Group.tracked] using below
      simpa [Snapshot.sample, bound, bound'] using same (.enqueue target) tracked
    cases other
    cases snapshot
    simp_all only

end Snapshot

namespace Store

variable {σ τ : Type}

/-! ### One collection -/

/-- The deliveries of a collection of groups, and the fault that ended it: either all groups were
read without a fault, or those up to the first one that came to a fault. -/
inductive Ended (side : Side) : List Group → List Delivery → Option Fault → Prop
  | through {groups : List Group} {made : List Delivery}
    (all : made.map Delivery.group = groups) (here : ∀ delivery ∈ made, delivery.side = side)
    (sound : ∀ delivery ∈ made, ∀ fault, delivery.reading ≠ .broken fault) :
    Ended side groups made none
  | broken (before : List Delivery) {group : Group} {after : List Group} {fault : Fault}
    (here : ∀ delivery ∈ before, delivery.side = side)
    (sound : ∀ delivery ∈ before, ∀ fault, delivery.reading ≠ .broken fault) :
    Ended side (before.map Delivery.group ++ group :: after)
      (before ++ [⟨side, group, .broken fault⟩]) (some fault)

theorem Ended.cons {side : Side} {groups : List Group} {made : List Delivery}
    {fault : Option Fault} (ended : Ended side groups made fault) (group : Group)
    {reading : Reading} (sound : ∀ fault, reading ≠ .broken fault) :
    Ended side (group :: groups) (⟨side, group, reading⟩ :: made) fault := by
  cases ended with
  | through all here soundRest =>
    refine .through (by simp [all]) ?_ ?_
    · simpa using here
    · simpa [sound] using soundRest
  | broken before here soundRest =>
    exact .broken (⟨side, group, reading⟩ :: before) (by simpa using here)
      (by simpa [sound] using soundRest)

/-- The collection with another state of the world after it. -/
def Collection.withState (collection : Collection σ) (state : τ) : Collection τ :=
  { collection with state }

/-- To record what a collection asks changes nothing of it, and what it asks belongs to its
deliveries, one after the other. -/
theorem collectGroups_recorded (world : World σ) (side : Side) (groups : List Group)
    (store : Store) (asked : List Exchange) (state : σ) :
    ∃ parts,
      List.Forall₂
        (fun exchanges delivery => delivery.group.Asked store.cores exchanges delivery.reading)
        parts (deliveriesOf world store.cores side groups state).1 ∧
      collectGroups world.recorded side groups store (asked, state) =
        (collectGroups world side groups store state).withState
          (asked ++ parts.flatten, (collectGroups world side groups store state).state) := by
  induction groups generalizing store asked state with
  | nil => exact ⟨[], .nil, by simp [collectGroups, Collection.withState]⟩
  | cons group rest inductionHypothesis =>
    obtain ⟨exchanges, reading, later, answered, plain, recorded⟩ :=
      world.read_recorded store.cores group asked state
    rcases reading.broken_or_sound with ⟨fault, rfl⟩ | sound
    · rw [collectGroups_of_broken plain, collectGroups_of_broken recorded,
        deliveriesOf_of_broken plain]
      exact ⟨[exchanges], .cons answered .nil, by simp [Collection.withState]⟩
    · obtain ⟨parts, related, tail⟩ := inductionHypothesis
        (store.deliver ⟨side, group, reading⟩) (asked ++ exchanges) later
      rw [deliver_cores] at related
      rw [collectGroups_of_sound sound plain, collectGroups_of_sound sound recorded, tail,
        deliveriesOf_of_sound sound plain]
      exact ⟨exchanges :: parts, .cons answered related, by simp [Collection.withState]⟩

theorem ended_collectGroups (world : World σ) (side : Side) (groups : List Group) (store : Store)
    (state : σ) :
    Ended side groups (deliveriesOf world store.cores side groups state).1
      (collectGroups world side groups store state).fault := by
  induction groups generalizing store state with
  | nil => exact .through rfl (List.forall_mem_nil _) (List.forall_mem_nil _)
  | cons group rest inductionHypothesis =>
    rcases answer : world.read store.cores group.address.map group.address.key state with
      ⟨reading, after⟩
    rcases reading.broken_or_sound with ⟨fault, rfl⟩ | sound
    · rw [collectGroups_of_broken answer, deliveriesOf_of_broken answer]
      exact .broken [] (List.forall_mem_nil _) (List.forall_mem_nil _)
    · have tail := inductionHypothesis (store.deliver ⟨side, group, reading⟩) after
      rw [deliver_cores] at tail
      rw [collectGroups_of_sound sound answer, deliveriesOf_of_sound sound answer]
      exact tail.cons group sound

/-- A collection warns of each reading that failed, and counts them. -/
theorem notices_collectGroups (world : World σ) (side : Side) (groups : List Group)
    (store : Store) (state : σ) :
    (collectGroups world side groups store state).notices =
        (deliveriesOf world store.cores side groups state).1.flatMap
          (fun delivery => noticesOf delivery.group.address delivery.reading) ∧
      (collectGroups world side groups store state).failed =
        (collectGroups world side groups store state).notices.length := by
  induction groups generalizing store state with
  | nil => exact ⟨rfl, rfl⟩
  | cons group rest inductionHypothesis =>
    rcases answer : world.read store.cores group.address.map group.address.key state with
      ⟨reading, after⟩
    rcases reading.broken_or_sound with ⟨fault, rfl⟩ | sound
    · rw [collectGroups_of_broken answer, deliveriesOf_of_broken answer]
      exact ⟨rfl, rfl⟩
    · obtain ⟨noticed, counted⟩ := inductionHypothesis (store.deliver ⟨side, group, reading⟩) after
      rw [deliver_cores] at noticed
      rw [collectGroups_of_sound sound answer, deliveriesOf_of_sound sound answer,
        List.flatMap_cons, ← noticed, List.length_append, ← counted]
      exact ⟨rfl, rfl⟩

/-! ### Places after deliveries -/

theorem sample_deliverAll_of_not_mem (store : Store) (deliveries : List Delivery) (side : Side)
    (group : Group) (absent : group ∉ deliveries.map Delivery.group) :
    ((store.deliverAll deliveries).snapshot side).sample group =
      (store.snapshot side).sample group := by
  induction deliveries generalizing store with
  | nil => rfl
  | cons delivery rest inductionHypothesis =>
    rw [List.map_cons, List.mem_cons, not_or] at absent
    exact (inductionHypothesis (store.deliver delivery) absent.2).trans
      (sample_deliver_of_ne store delivery side group absent.1)

/-- Deliveries to one side, each of another group, leave in the place of a group what was delivered
of it, or what it had. -/
theorem sample_deliverAll_of_mem (store : Store) (deliveries : List Delivery) (side : Side)
    {cores targets : Int} (count : (store.snapshot side).targetCount = targets.toNat)
    (distinct : (deliveries.map Delivery.group).Nodup)
    (here : ∀ delivery ∈ deliveries, delivery.side = side)
    (suit : ∀ delivery ∈ deliveries, delivery.group ∈ Group.tracked targets ∧
      delivery.reading.Fits cores ∧
      ((store.snapshot side).sample delivery.group).cores.length = cores.toNat)
    (delivery : Delivery) (member : delivery ∈ deliveries) :
    ((store.deliverAll deliveries).snapshot side).sample delivery.group =
      delivery.reading.sample?.getD ((store.snapshot side).sample delivery.group) := by
  induction deliveries generalizing store with
  | nil => cases member
  | cons head rest inductionHypothesis =>
    rw [List.map_cons, List.nodup_cons] at distinct
    show (((store.deliver head).deliverAll rest).snapshot side).sample delivery.group = _
    rcases List.mem_cons.mp member with rfl | later
    · obtain ⟨tracked, fits, width⟩ := suit delivery List.mem_cons_self
      rw [sample_deliverAll_of_not_mem _ _ _ _ distinct.1]
      obtain rfl := here delivery List.mem_cons_self
      exact sample_deliver_self store delivery.side delivery.group delivery.reading
        (Snapshot.covers_of_mem_tracked _ _ _ count tracked) fits width
    · have untouched : ∀ other ∈ rest,
          ((store.deliver head).snapshot side).sample other.group =
            (store.snapshot side).sample other.group := fun other inRest =>
        sample_deliver_of_ne store head side other.group fun same =>
          distinct.1 (same ▸ List.mem_map_of_mem inRest)
      rw [← untouched delivery later]
      refine inductionHypothesis (store.deliver head) ?_ distinct.2
        (fun other inRest => here other (List.mem_cons_of_mem _ inRest))
        (fun other inRest => ?_) later
      · rw [targetCount_deliver, count]
      · rw [untouched other inRest]
        exact suit other (List.mem_cons_of_mem _ inRest)

/-- Deliveries to one side change nothing but the snapshot of that side. -/
theorem deliverAll_eq_setSnapshot (store : Store) (deliveries : List Delivery) (side : Side)
    (here : ∀ delivery ∈ deliveries, delivery.side = side) :
    store.deliverAll deliveries =
      store.setSnapshot side ((store.deliverAll deliveries).snapshot side) := by
  induction deliveries generalizing store with
  | nil => cases side <;> rfl
  | cons delivery rest inductionHypothesis =>
    have head : ∀ snapshot : Snapshot,
        (store.deliver delivery).setSnapshot side snapshot = store.setSnapshot side snapshot := by
      intro snapshot
      obtain rfl := here delivery List.mem_cons_self
      rcases delivery with ⟨side, group, reading⟩
      cases reading <;> cases side <;> rfl
    have tail := inductionHypothesis (store.deliver delivery)
      fun other inRest => here other (List.mem_cons_of_mem _ inRest)
    rw [head] at tail
    exact tail

/-! ### The account -/

/-- The groups of the deliveries are the first of those that were to be read, and all of them
unless there was a fault. -/
theorem Ended.groups {side : Side} {groups : List Group} {made : List Delivery}
    {fault : Option Fault} (ended : Ended side groups made fault) :
    made.map Delivery.group <+: groups ∧ (fault = none → made.map Delivery.group = groups) := by
  cases ended with
  | through all here sound => exact ⟨all ▸ List.prefix_rfl, fun _ => all⟩
  | broken before here sound => exact ⟨by simp, nofun⟩

theorem Ended.here {side : Side} {groups : List Group} {made : List Delivery}
    {fault : Option Fault} (ended : Ended side groups made fault) :
    ∀ delivery ∈ made, delivery.side = side := by
  cases ended with
  | through all here sound => exact here
  | broken before here sound => simpa [or_imp, forall_and] using here

theorem Ended.sound {side : Side} {groups : List Group} {made : List Delivery}
    {fault : Option Fault} (ended : Ended side groups made fault) (through : fault = none) :
    ∀ delivery ∈ made, ∀ fault, delivery.reading ≠ .broken fault := by
  cases ended with
  | through all here sound => exact sound
  | broken before here sound => cases through

/-- What is looked up for deliveries are their groups. -/
theorem lookups_of_forall₂ {cores : Int} {parts : List (List Exchange)} {made : List Delivery}
    (asked : List.Forall₂
      (fun exchanges delivery => delivery.group.Asked cores exchanges delivery.reading)
      parts made) :
    parts.flatten.filterMap Exchange.lookup? =
      (made.map Delivery.group).map Group.lookup := by
  induction asked with
  | nil => rfl
  | cons head _ inductionHypothesis =>
    simp only [List.flatten_cons, List.filterMap_append, head.lookups, inductionHypothesis]
    rfl

/-- A collection into a side of a store, accounted for by its deliveries. -/
structure Accounts (store : Store) (side : Side) (made : List Delivery)
    (collection : Collection σ) : Prop where
  /-- The deliveries go through all tracked groups, or up to the first fault. -/
  ended : Ended side store.groups made collection.fault
  /-- The place of a group holds the values that were delivered of it, or what it held before. -/
  written : ∀ delivery ∈ made,
    (collection.store.snapshot side).sample delivery.group =
      delivery.reading.sample?.getD ((store.snapshot side).sample delivery.group)
  /-- Groups without a delivery keep what they had. -/
  kept : ∀ group ∉ made.map Delivery.group,
    (collection.store.snapshot side).sample group = (store.snapshot side).sample group
  /-- Nothing else changes, nor does the number of places. -/
  beside : collection.store = store.setSnapshot side (collection.store.snapshot side)
  places : (collection.store.snapshot side).targetCount = (store.snapshot side).targetCount
  /-- There is one warning for each group that failed, in their order. -/
  noticed : collection.notices =
    made.flatMap fun delivery => noticesOf delivery.group.address delivery.reading
  warned : ∀ notice ∈ collection.notices, notice.severity = .warning
  /-- Without a fault, the groups that kept what they had are counted, and so are the warnings. -/
  counted : collection.fault = none →
    collection.failed = made.countP (fun delivery => delivery.reading.sample? = none) ∧
      collection.failed = collection.notices.length

theorem severity_of_mem_noticesOf {address : Address} {reading : Reading} {notice : Notice}
    (member : notice ∈ noticesOf address reading) : notice.severity = .warning := by
  cases reading with
  | unread failure => rw [List.mem_singleton.mp member]; rfl
  | taken time values | broken fault => cases member

/-- Where no reading came to a fault, there are as many notices as readings without values. -/
theorem length_flatMap_noticesOf {made : List Delivery}
    (sound : ∀ delivery ∈ made, ∀ fault, delivery.reading ≠ .broken fault) :
    (made.flatMap fun delivery => noticesOf delivery.group.address delivery.reading).length =
      made.countP fun delivery => delivery.reading.sample? = none := by
  induction made with
  | nil => rfl
  | cons delivery rest inductionHypothesis =>
    have tail := inductionHypothesis fun other inRest => sound other (List.mem_cons_of_mem _ inRest)
    rw [List.flatMap_cons, List.length_append, List.countP_cons, tail, Nat.add_comm]
    cases reading : delivery.reading with
    | broken fault => exact absurd reading (sound delivery List.mem_cons_self fault)
    | taken time values | unread failure => simp [noticesOf, Reading.sample?]

theorem accounts_collectInto (world : World σ) (side : Side) (store : Store) (state : σ)
    (sized : (store.snapshot side).Sized store.cores store.targets) :
    Accounts store side (deliveriesOf world store.cores side store.groups state).1
      (collectInto world side store state) := by
  have ended := ended_collectGroups world side store.groups store state
  obtain ⟨sameStore, -⟩ := collectGroups_eq world side store.groups store state
  obtain ⟨noticed, counted⟩ := notices_collectGroups world side store.groups store state
  have suit := fun delivery member =>
    deliveriesOf_suit world store.cores side store.groups state delivery member
  have distinct : ((deliveriesOf world store.cores side store.groups state).1.map
      Delivery.group).Nodup := ended.groups.1.sublist.nodup (Group.tracked_nodup store.targets)
  refine ⟨ended, fun delivery member => ?_, fun group absent => ?_, ?_, ?_, noticed, ?_, ?_⟩
  · show ((collectGroups world side store.groups store state).store.snapshot side).sample _ = _
    rw [sameStore]
    exact sample_deliverAll_of_mem store _ side sized.count distinct ended.here
      (fun other inMade => ⟨(suit other inMade).1, (suit other inMade).2,
        sized.width other.group (suit other inMade).1⟩) delivery member
  · show ((collectGroups world side store.groups store state).store.snapshot side).sample _ = _
    rw [sameStore]
    exact sample_deliverAll_of_not_mem store _ side group absent
  · show (collectGroups world side store.groups store state).store =
      store.setSnapshot side
        ((collectGroups world side store.groups store state).store.snapshot side)
    rw [sameStore]
    exact deliverAll_eq_setSnapshot store _ side ended.here
  · show ((collectGroups world side store.groups store state).store.snapshot side).targetCount = _
    rw [sameStore]
    exact targetCount_deliverAll store _ side
  · show ∀ notice ∈ (collectGroups world side store.groups store state).notices, _
    rw [noticed]
    intro notice member
    obtain ⟨delivery, -, noted⟩ := List.mem_flatMap.mp member
    exact severity_of_mem_noticesOf noted
  · intro through
    have through : (collectGroups world side store.groups store state).fault = none := through
    exact ⟨counted.trans (noticed ▸ length_flatMap_noticesOf (ended.sound through)), counted⟩

/-- A collection asks for the tracked groups in their order, each in a place of its own and once, up
to the first fault. What it writes, keeps, counts and warns of follows from the answers alone. -/
theorem collectInto_asks_and_accounts (world : World σ) (side : Side) (store : Store) (state : σ)
    (sized : (store.snapshot side).Sized store.cores store.targets) :
    let collection := collectInto world side store state
    ∃ parts made,
      collectInto world.recorded side store ([], state) =
        collection.withState (parts.flatten, collection.state) ∧
      List.Forall₂
        (fun exchanges delivery => delivery.group.Asked store.cores exchanges delivery.reading)
        parts made ∧
      parts.flatten.filterMap Exchange.lookup? <+: Group.trackedLookups store.targets ∧
      (collection.fault = none →
        parts.flatten.filterMap Exchange.lookup? = Group.trackedLookups store.targets) ∧
      (Group.trackedLookups store.targets).Nodup ∧
      Accounts store side made collection ∧
      (store.snapshot side).MadeUpOf store.groups := by
  intro collection
  obtain ⟨parts, asked, recorded⟩ := collectGroups_recorded world side store.groups store [] state
  have accounts := accounts_collectInto world side store state sized
  obtain ⟨begun, all⟩ := accounts.ended.groups
  have lookups : store.groups.map Group.lookup = Group.trackedLookups store.targets :=
    Group.lookups_tracked store.targets
  refine ⟨parts, _, recorded, asked, ?_, fun through => ?_, ?_, accounts,
    Snapshot.madeUpOf_tracked sized.count⟩
  · rw [lookups_of_forall₂ asked, ← lookups]
    exact begun.map Group.lookup
  · rw [lookups_of_forall₂ asked, ← lookups, all through]
  · rw [← lookups]
    exact Group.lookups_tracked_nodup store.targets

/-- The second collection of two cores and one target in trouble: one group has too few values, and
there is no time for the last one. -/
theorem collectInto_asks_and_accounts_troubled :
    let before := collectInto .scripted .first (blank 2 1) troubledScript
    let collection := collectInto .scripted .first before.store before.state
    (before.store.snapshot .first).Sized 2 1 ∧
      (∃ asked made,
        (collectInto (World.scripted).recorded .first before.store ([], before.state)).state =
          (asked, collection.state) ∧
        asked.filterMap Exchange.lookup? <+:
          [("rx_cnt", 0), ("redirect_err_cnt", 1), ("cpumap_enqueue_cnt", 0),
            ("cpumap_kthread_cnt", 0)] ∧
        Accounts before.store .first made collection) ∧
      collection.fault = some (.error (.clock ⟨"no clock"⟩)) ∧
      collection.notices = [.readFailed "redirect_err_cnt" 1 (.wrongCount 2 1)] ∧
      (collection.store.snapshot .first).kthread = ⟨13, ⟨11, 0⟩, [⟨5, 0⟩, ⟨6, 0⟩]⟩ := by
  intro before collection
  have sized : (before.store.snapshot .first).Sized 2 1 := ⟨by decide, by decide⟩
  obtain ⟨parts, made, recorded, -, lookups, -, -, accounts, -⟩ :=
    collectInto_asks_and_accounts .scripted .first before.store before.state sized
  have named : Group.trackedLookups before.store.targets =
      [("rx_cnt", 0), ("redirect_err_cnt", 1), ("cpumap_enqueue_cnt", 0),
        ("cpumap_kthread_cnt", 0)] := by decide
  rw [named] at lookups
  refine ⟨sized, ⟨parts.flatten, made, ?_, lookups, accounts⟩, by decide, by decide, by decide⟩
  rw [recorded]
  rfl

end Store

end RedirectMonitor
