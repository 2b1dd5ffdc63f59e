/-
The counter groups that the monitor tracks. A group has an address, by which the counters
are looked up, and a place in a snapshot. The tracked groups are listed in the order in
which they are read.
-/

import RedirectMonitor.Counters
import RedirectMonitor.Text.Columns

namespace RedirectMonitor

/-- The name of a group, and the map and key under which its counters are found. -/
structure Address where
  name : String
  map : String
  key : Int
deriving DecidableEq, Repr

/-- A tracked counter group. -/
inductive Group where
  | rx
  | redirectErr
  | enqueue (target : Nat)
  | kthread
deriving DecidableEq, Repr

structure CounterMaps where
  rx : String := "rx_cnt"
  redirectErr : String := "redirect_err_cnt"
  enqueue : String := "cpumap_enqueue_cnt"
  kthread : String := "cpumap_kthread_cnt"

def counterMaps : CounterMaps := {}

/-- All counter maps, in the order in which they are looked for. -/
def counterMapNames : List String :=
  [counterMaps.rx, counterMaps.redirectErr, counterMaps.enqueue, counterMaps.kthread]

namespace Group

/-- Where the counters of a group are found. -/
def address : Group → Address
  | rx => ⟨"rx", counterMaps.rx, 0⟩
  | redirectErr => ⟨"redirect_err", counterMaps.redirectErr, 1⟩
  | enqueue target =>
    ⟨"enqueue[" ++ .ofList (Text.digits target) ++ "]", counterMaps.enqueue, target⟩
  | kthread => ⟨"kthread", counterMaps.kthread, 0⟩

/-- The tracked groups in the order in which they are read; a negative count is none. -/
def tracked (targets : Int) : List Group :=
  [rx, redirectErr] ++ (List.range targets.toNat).map enqueue ++ [kthread]

end Group

/-- Why an address has no place in a snapshot. -/
inductive PlaceError where
  | noTarget
  | keyBeyondIndex
  /-- Snapshots have nothing of this name. -/
  | noRecord (name : String)
  /-- Snapshots know the name of their weak references, but keep none. -/
  | noWeakReferences
deriving DecidableEq, Repr

def PlaceError.message : PlaceError → String
  | noTarget => "list index out of range"
  | keyBeyondIndex => "cannot fit 'int' into an index-sized integer"
  | noRecord name => "'Snapshot' object has no attribute '" ++ name ++ "'"
  | noWeakReferences =>
    "descriptor '__weakref__' for 'Snapshot' objects doesn't apply to a 'Snapshot' object"

/-- Names that a snapshot answers to with something other than a sample: its targets, its
measures, and the making of one. -/
def otherSnapshotNames : List String := ["enqueue", "core_count", "target_count", "allocate"]

/-- Names, but for the double underscores around each, under which a snapshot tells about
itself. -/
def reflectiveNames : List String :=
  ["annotations", "class", "dataclass_fields", "dataclass_params", "delattr", "dir", "doc", "eq",
    "format", "ge", "getattribute", "getstate", "gt", "hash", "init", "init_subclass", "le", "lt",
    "match_args", "module", "ne", "new", "reduce", "reduce_ex", "repr", "setattr", "sizeof",
    "slots", "str", "subclasshook"]

/-- Whether a snapshot answers to a name, though not with a sample. -/
def isOtherSnapshotName (name : String) : Bool :=
  otherSnapshotNames.contains name ||
    reflectiveNames.any fun reflective => name == "__" ++ reflective ++ "__"

namespace Address

/-- The group that has its place in a snapshot of so many targets at an address. In the map of
the targets the key tells the target, a negative one counting from the end; elsewhere the
name tells the group. Some names belong to a snapshot without being those of a group. -/
def group? (address : Address) (targets : Nat) : Except PlaceError (Option Group) :=
  if address.map = counterMaps.enqueue then
    let bound : Int := Nat.pow 2 63
    if address.key < -bound ∨ bound ≤ address.key then .error .keyBeyondIndex
    else
      let index := if address.key < 0 then address.key + targets else address.key
      if 0 ≤ index ∧ index < targets then .ok (some (.enqueue index.toNat))
      else .error .noTarget
  else if address.name = "rx" then .ok (some .rx)
  else if address.name = "redirect_err" then .ok (some .redirectErr)
  else if address.name = "kthread" then .ok (some .kthread)
  else if isOtherSnapshotName address.name then .ok none
  else if address.name = "__weakref__" then .error .noWeakReferences
  else .error (.noRecord address.name)

end Address

namespace Snapshot

/-- The sample of a group; blank for a target that the snapshot does not cover. -/
def sample (snapshot : Snapshot) : Group → Sample
  | .rx => snapshot.rx
  | .redirectErr => snapshot.redirectErr
  | .enqueue target => snapshot.enqueue.getD target {}
  | .kthread => snapshot.kthread

/-- The snapshot with another sample for one group. -/
def setSample (snapshot : Snapshot) (group : Group) (sample : Sample) : Snapshot :=
  match group with
  | .rx => { snapshot with rx := sample }
  | .redirectErr => { snapshot with redirectErr := sample }
  | .enqueue target => { snapshot with enqueue := snapshot.enqueue.set target sample }
  | .kthread => { snapshot with kthread := sample }

end Snapshot

end RedirectMonitor
