/-
This file says which deliveries are made to a store that is asked to collect and to swap.
Requests may swap its snapshots and collect into either of them in any order; each of them
makes the deliveries that the world dictates, and a fault only cuts a collection short.

The content is that the history of these deliveries is all that the records depend on: whatever
was asked, a record is the last sample that was delivered of its group to its side, and swaps
leave no trace in it.
-/

import RedirectMonitor.Proofs.Deliveries

namespace RedirectMonitor

/-! ### Scripted worlds -/

/-- What a lookup comes to in a script: an error, or values and what the clock says after them. -/
inductive Line where
  | refused (error : LookupError)
  | answered (values : List Counters) (clock : Except ClockFault Int)

/-- The lookups to come, and what the clock says now. -/
structure Script where
  lines : List Line
  clock : Except ClockFault Int := .error ⟨"not set"⟩

/-- The world whose lookups follow a script, so that any outcomes can come in any order. A script
that has run out refuses. -/
def World.scripted : World Script where
  lookup map key script :=
    match script.lines with
    | [] => (.error (.contained (.refused map key)), script)
    | .refused error :: lines => (.error error, { script with lines })
    | .answered values clock :: lines => (.ok values, { lines, clock })
  clock script := (script.clock, script)

namespace Store

/-! ### Collections -/

variable {σ : Type}

/-- The roles that the snapshots take turns in. -/
inductive Role where
  | current
  | previous
deriving DecidableEq, Repr

/-- The side that has a role. -/
def Role.side (newest : Side) : Role → Side
  | .current => newest
  | .previous => newest.other

/-- The deliveries of a collection: readings of some groups one after the other, directed into a
side, up to the first fault. With them comes the state of the world after them. -/
def deliveriesOf (world : World σ) (cores : Int) (side : Side) :
    List Group → σ → List Delivery × σ
  | [], state => ([], state)
  | group :: rest, state =>
    let (reading, state) := world.read cores group.address.map group.address.key state
    match reading with
    | .broken _ => ([⟨side, group, reading⟩], state)
    | .taken .. | .unread _ =>
      let (later, state) := deliveriesOf world cores side rest state
      (⟨side, group, reading⟩ :: later, state)

section OneReading

variable {world : World σ} {cores : Int} {side : Side} {group : Group} {rest : List Group}
  {store : Store} {state after : σ}

theorem deliveriesOf_of_broken {fault : Fault}
    (answer : world.read cores group.address.map group.address.key state =
      (.broken fault, after)) :
    deliveriesOf world cores side (group :: rest) state =
      ([⟨side, group, .broken fault⟩], after) := by
  simp only [deliveriesOf, answer]

theorem deliveriesOf_of_sound {reading : Reading} (sound : ∀ fault, reading ≠ .broken fault)
    (answer : world.read cores group.address.map group.address.key state = (reading, after)) :
    deliveriesOf world cores side (group :: rest) state =
      (⟨side, group, reading⟩ :: (deliveriesOf world cores side rest after).1,
        (deliveriesOf world cores side rest after).2) := by
  cases reading with
  | broken fault => exact absurd rfl (sound fault)
  | taken time values | unread failure => simp only [deliveriesOf, answer]

/-- A fault ends a collection and leaves the store as it is. -/
theorem collectGroups_of_broken {fault : Fault}
    (answer : world.read store.cores group.address.map group.address.key state =
      (.broken fault, after)) :
    collectGroups world side (group :: rest) store state =
      { store, state := after, fault := some fault } := by
  simp only [collectGroups, readGroup, answer]
  rfl

/-- After any other reading a collection goes on with what the delivery makes of the store. -/
theorem collectGroups_of_sound {reading : Reading} (sound : ∀ fault, reading ≠ .broken fault)
    (answer : world.read store.cores group.address.map group.address.key state =
      (reading, after)) :
    collectGroups world side (group :: rest) store state =
      let tail := collectGroups world side rest (store.deliver ⟨side, group, reading⟩) after
      { tail with
        failed := (noticesOf group.address reading).length + tail.failed
        notices := noticesOf group.address reading ++ tail.notices } := by
  cases reading with
  | broken fault => exact absurd rfl (sound fault)
  | taken time values | unread failure =>
    simp only [collectGroups, readGroup, answer]
    rfl

end OneReading

/-- A collection does to a store what its deliveries do. -/
theorem collectGroups_eq (world : World σ) (side : Side) (groups : List Group) (store : Store)
    (state : σ) :
    (collectGroups world side groups store state).store =
        store.deliverAll (deliveriesOf world store.cores side groups state).1 ∧
      (collectGroups world side groups store state).state =
        (deliveriesOf world store.cores side groups state).2 := by
  induction groups generalizing store state with
  | nil => exact ⟨rfl, rfl⟩
  | cons group rest inductionHypothesis =>
    rcases answer : world.read store.cores group.address.map group.address.key state with
      ⟨reading, after⟩
    rcases reading.broken_or_sound with ⟨fault, rfl⟩ | sound
    · rw [collectGroups_of_broken answer, deliveriesOf_of_broken answer]
      exact ⟨rfl, rfl⟩
    · rw [collectGroups_of_sound sound answer, deliveriesOf_of_sound sound answer]
      have tail := inductionHypothesis (store.deliver ⟨side, group, reading⟩) after
      rw [deliver_cores] at tail
      exact tail

theorem deliveriesOf_suit (world : World σ) (cores : Int) (side : Side) (groups : List Group)
    (state : σ) (delivery : Delivery)
    (member : delivery ∈ (deliveriesOf world cores side groups state).1) :
    delivery.group ∈ groups ∧ delivery.reading.Fits cores := by
  induction groups generalizing state with
  | nil => cases member
  | cons group rest inductionHypothesis =>
    have fits := world.read_fits cores group.address.map group.address.key state
    rcases answer : world.read cores group.address.map group.address.key state with
      ⟨reading, after⟩
    rw [answer] at fits
    rcases reading.broken_or_sound with ⟨fault, rfl⟩ | sound
    · rw [deliveriesOf_of_broken answer] at member
      rw [List.mem_singleton.mp member]
      exact ⟨List.mem_cons_self, fits⟩
    · rw [deliveriesOf_of_sound sound answer] at member
      rcases List.mem_cons.mp member with rfl | inRest
      · exact ⟨List.mem_cons_self, fits⟩
      · obtain ⟨tracked, fitsRest⟩ := inductionHypothesis after inRest
        exact ⟨List.mem_cons_of_mem _ tracked, fitsRest⟩

/-! ### Requests -/

/-- What can be asked of a store. -/
inductive Request where
  | collect
  | collectInto (role : Role)
  | swap
deriving DecidableEq, Repr

/-- A store and the state of the world after a request. A fault ends no more than its collection. -/
def serve (world : World σ) (store : Store) (state : σ) : Request → Store × σ
  | .collect =>
    let collection := store.collect world state
    (collection.store, collection.state)
  | .collectInto role =>
    let collection := collectInto world (role.side store.newest) store state
    (collection.store, collection.state)
  | .swap => (store.swap, state)

/-- A store and the state of the world after requests, one after the other. -/
def serveAll (world : World σ) : List Request → Store → σ → Store × σ
  | [], store, state => (store, state)
  | request :: rest, store, state =>
    let (store, state) := serve world store state request
    serveAll world rest store state

/-- The deliveries that requests make, given which side is the newest when they begin. -/
def history (world : World σ) (cores targets : Int) : List Request → Side → σ → List Delivery
  | [], _, _ => []
  | .collect :: rest, newest, state =>
    let (made, state) := deliveriesOf world cores newest (Group.tracked targets) state
    made ++ history world cores targets rest newest state
  | .collectInto role :: rest, newest, state =>
    let (made, state) := deliveriesOf world cores (role.side newest) (Group.tracked targets) state
    made ++ history world cores targets rest newest state
  | .swap :: rest, newest, state => history world cores targets rest newest.other state

theorem history_suit (world : World σ) (cores targets : Int) (requests : List Request)
    (newest : Side) (state : σ) (delivery : Delivery)
    (member : delivery ∈ history world cores targets requests newest state) :
    delivery.group ∈ Group.tracked targets ∧ delivery.reading.Fits cores := by
  induction requests generalizing newest state with
  | nil => cases member
  | cons request rest inductionHypothesis =>
    cases request with
    | collect | collectInto role =>
      rcases List.mem_append.mp member with made | later
      · exact deliveriesOf_suit world cores _ _ state delivery made
      · exact inductionHypothesis _ _ later
    | swap => exact inductionHypothesis _ _ member

/-- Which side is the newest has no say in what deliveries do. -/
theorem deliverAll_withNewest (store : Store) (newest : Side) (deliveries : List Delivery) :
    { store with newest }.deliverAll deliveries =
      { store.deliverAll deliveries with newest } := by
  induction deliveries generalizing store with
  | nil => rfl
  | cons delivery rest inductionHypothesis =>
    have head :
        { store with newest }.deliver delivery = { store.deliver delivery with newest } := by
      rcases delivery with ⟨side, group, reading⟩
      cases reading <;> cases side <;> rfl
    show ({ store with newest }.deliver delivery).deliverAll rest = _
    rw [head]
    exact inductionHypothesis (store.deliver delivery)

/-- Requests do to a store what the deliveries of its history do, but for which side is the newest
in the end. -/
theorem serveAll_eq (world : World σ) (requests : List Request) (store : Store) (state : σ) :
    ∃ newest, (serveAll world requests store state).1 =
      { store.deliverAll
          (history world store.cores store.targets requests store.newest state) with newest } := by
  induction requests generalizing store state with
  | nil => exact ⟨store.newest, rfl⟩
  | cons request rest inductionHypothesis =>
    have collected (side : Side) : ∃ newest,
        (serveAll world rest (collectInto world side store state).store
          (collectInto world side store state).state).1 =
        { store.deliverAll ((deliveriesOf world store.cores side store.groups state).1 ++
            history world store.cores store.targets rest store.newest
              (deliveriesOf world store.cores side store.groups state).2) with newest } := by
      obtain ⟨sameStore, sameState⟩ := collectGroups_eq world side store.groups store state
      obtain ⟨newest, follows⟩ := inductionHypothesis
        (store.deliverAll (deliveriesOf world store.cores side store.groups state).1)
        (deliveriesOf world store.cores side store.groups state).2
      rw [deliverAll_cores, deliverAll_targets, deliverAll_newest] at follows
      refine ⟨newest, ?_⟩
      unfold collectInto
      rw [sameStore, sameState, deliverAll_append]
      exact follows
    cases request with
    | collect => exact collected store.newest
    | collectInto role => exact collected (role.side store.newest)
    | swap =>
      obtain ⟨newest, follows⟩ := inductionHypothesis store.swap state
      refine ⟨newest, follows.trans ?_⟩
      show { { store with newest := store.newest.other }.deliverAll _ with newest } = _
      rw [deliverAll_withNewest]
      rfl

/-- Whatever is asked of a new store and whatever the world answers, each record holds the last
sample that was delivered of its group to its side, and is blank where there was none. -/
theorem records_hold_latest (world : World σ) (cores targets : Int) (requests : List Request)
    (state : σ) (side : Side) :
    let snapshot := (serveAll world requests (blank cores targets) state).1.snapshot side
    snapshot.targetCount = targets.toNat ∧
      ∀ group ∈ Group.tracked targets,
        snapshot.sample group = Delivery.latest side group (.blank cores.toNat)
            (history world cores targets requests .first state) ∧
          (snapshot.sample group).cores.length = cores.toNat ∧
          (snapshot.sample group).total = .sum (snapshot.sample group).cores := by
  intro snapshot
  have suit := fun delivery member => history_suit world cores targets requests .first state
    delivery member
  have sized := (wellSized_blank cores targets).deliverAll _ suit
  obtain ⟨newest, follows⟩ := serveAll_eq world requests (blank cores targets) state
  have same : snapshot = ((blank cores targets).deliverAll
      (history world cores targets requests .first state)).snapshot side := by
    show (serveAll world requests (blank cores targets) state).1.snapshot side = _
    rw [follows]
    cases side <;> rfl
  rw [same]
  have sizedTargets := sized.targets side
  have sizedCores := sized.cores side
  have sizedTotals := sized.totals side
  rw [deliverAll_targets] at sizedTargets
  rw [groups, deliverAll_targets] at sizedCores sizedTotals
  rw [deliverAll_cores] at sizedCores
  refine ⟨sizedTargets, fun group tracked =>
    ⟨?_, sizedCores group tracked, sizedTotals group tracked⟩⟩
  rw [sample_deliverAll _ (wellSized_blank cores targets) _ suit, sample_blank cores targets side
    group tracked]

/-- Two cores and one target in trouble: the first collection misses the target, the second one gets
too few values for one group and loses the clock at the last, and the third goes into the previous
snapshot and loses the clock half way. -/
def troubledScript : Script where
  lines :=
    [.answered [⟨3, 0⟩, ⟨4, 1⟩] (.ok 10), .answered [⟨0, 0⟩, ⟨2, 2⟩] (.ok 11),
      .refused (.contained (.refused "cpumap_enqueue_cnt" 0)), .answered [⟨5, 0⟩, ⟨6, 0⟩] (.ok 13),
      .answered [⟨7, 0⟩, ⟨8, 1⟩] (.ok 20), .answered [⟨9, 9⟩] (.ok 21),
      .answered [⟨1, 0⟩, ⟨2, 1⟩] (.ok 22), .answered [⟨6, 0⟩, ⟨7, 0⟩] (.error ⟨"no clock"⟩),
      .refused (.contained (.timedOut "rx_cnt" 0)), .answered [⟨1, 0⟩, ⟨3, 2⟩] (.ok 31),
      .answered [⟨4, 0⟩, ⟨4, 1⟩] (.error ⟨"no clock"⟩)]

theorem records_hold_latest_troubled :
    let store := (serveAll .scripted [.collect, .swap, .collect, .collectInto .previous]
      (blank 2 1) troubledScript).1
    (store.snapshot .second).sample (.enqueue 0) = ⟨22, ⟨3, 1⟩, [⟨1, 0⟩, ⟨2, 1⟩]⟩ ∧
      (store.snapshot .first).sample (.enqueue 0) = .blank 2 ∧
      (store.snapshot .first).sample .redirectErr = ⟨31, ⟨4, 2⟩, [⟨1, 0⟩, ⟨3, 2⟩]⟩ := by
  have holds (side : Side) (group : Group) (tracked : group ∈ Group.tracked 1) :=
    ((records_hold_latest .scripted 2 1 [.collect, .swap, .collect, .collectInto .previous]
      troubledScript side).2 group tracked).1
  exact ⟨(holds .second (.enqueue 0) (by decide)).trans (by decide),
    (holds .first (.enqueue 0) (by decide)).trans (by decide),
    (holds .first .redirectErr (by decide)).trans (by decide)⟩

end Store

end RedirectMonitor
