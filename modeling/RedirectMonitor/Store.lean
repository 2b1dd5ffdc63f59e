/-
Two snapshots that take turns. One of them is the newest; a swap exchanges the roles and
moves nothing. A collection directs one reading of every tracked group into a snapshot: a
reading with values overwrites the sample of its group, a failed one leaves it as it was
and is counted, and a fault ends the collection.
-/

import RedirectMonitor.World

namespace RedirectMonitor

/-- The two snapshots of a store. -/
inductive Side where
  | first
  | second
deriving DecidableEq, Repr

def Side.other : Side → Side
  | first => second
  | second => first

/-- Two snapshots for so many cores and redirect targets. -/
structure Store where
  cores : Int
  targets : Int
  first : Snapshot
  second : Snapshot
  newest : Side := .first
deriving DecidableEq, Repr

namespace Store

/-! ### Snapshots -/

/-- A store without any reading. -/
def blank (cores targets : Int) : Store :=
  let snapshot := Snapshot.blank cores.toNat targets.toNat
  { cores, targets, first := snapshot, second := snapshot }

/-- A new store, if there is memory for it. -/
def create (memory : Bool) (cores targets : Int) : Noted MonitorError Store := do
  if memory then
    .note (.allocated cores targets)
    pure (blank cores targets)
  else .lift (.error (.memory cores targets))

def groups (store : Store) : List Group := Group.tracked store.targets

def snapshot (store : Store) : Side → Snapshot
  | .first => store.first
  | .second => store.second

def setSnapshot (store : Store) (side : Side) (snapshot : Snapshot) : Store :=
  match side with
  | .first => { store with first := snapshot }
  | .second => { store with second := snapshot }

def current (store : Store) : Snapshot := store.snapshot store.newest

/-- The snapshot before the newest. -/
def previous (store : Store) : Snapshot := store.snapshot store.newest.other

/-- The store in which the snapshots have exchanged their roles. -/
def swap (store : Store) : Store := { store with newest := store.newest.other }

/-! ### Readings -/

/-- The store after a reading of a group was directed into a side. -/
def receive (store : Store) (side : Side) (group : Group) (reading : Reading) : Store :=
  match reading with
  | .taken .. =>
    let snapshot := store.snapshot side
    store.setSnapshot side (snapshot.setSample group ((snapshot.sample group).receive reading))
  | .unread _ | .broken _ => store

/-- What a reading of a group writes to the log. -/
def noticesOf (address : Address) : Reading → List Notice
  | .unread failure => [.readFailed address.map address.key failure]
  | .taken .. | .broken _ => []

/-- A collection so far: the store and the state of the world after it, how many readings failed,
what was written to the log, and the fault that ended it. -/
structure Collection (σ : Type) where
  store : Store
  state : σ
  failed : Nat := 0
  notices : List Notice := []
  fault : Option Fault := none

variable {σ : Type}

/-- One reading of a group, directed into a side. -/
def readGroup (world : World σ) (side : Side) (group : Group) (store : Store) (state : σ) :
    Collection σ :=
  let address := group.address
  let (reading, state) := world.read store.cores address.map address.key state
  { store := store.receive side group reading
    state
    failed := match reading with
      | .unread _ => 1
      | .taken .. | .broken _ => 0
    notices := noticesOf address reading
    fault := match reading with
      | .broken fault => some fault
      | .taken .. | .unread _ => none }

/-- Readings of some groups one after the other, directed into a side, up to the first fault. -/
def collectGroups (world : World σ) (side : Side) : List Group → Store → σ → Collection σ
  | [], store, state => { store, state }
  | group :: rest, store, state =>
    let head := readGroup world side group store state
    match head.fault with
    | some _ => head
    | none =>
      let tail := collectGroups world side rest head.store head.state
      { tail with failed := head.failed + tail.failed, notices := head.notices ++ tail.notices }

/-- Readings of all tracked groups, directed into a side. -/
def collectInto (world : World σ) (side : Side) (store : Store) (state : σ) : Collection σ :=
  collectGroups world side store.groups store state

/-- Readings of all tracked groups, directed into the newest snapshot. -/
def collect (world : World σ) (store : Store) (state : σ) : Collection σ :=
  collectInto world store.newest store state

end Store

end RedirectMonitor
