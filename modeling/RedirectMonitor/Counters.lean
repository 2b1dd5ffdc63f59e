/-
What the monitor counts. A counter pair holds the packets processed and dropped so far; a
sample is one reading of a counter group on all cores with the time of the reading; a
snapshot holds one sample for every tracked group.
-/

namespace RedirectMonitor

/-- Packets processed and dropped so far. -/
structure Counters where
  processed : Int := 0
  dropped : Int := 0
deriving DecidableEq, Repr, Inhabited

namespace Counters

/-- Both counts added. -/
def add (left right : Counters) : Counters :=
  ⟨left.processed + right.processed, left.dropped + right.dropped⟩

/-- The sum over a list. -/
def sum (counters : List Counters) : Counters := counters.foldr add {}

end Counters

/-- One reading of a counter group: when it was taken, in nanoseconds of the monotonic clock, the
sum over the cores, and the counters of each core. -/
structure Sample where
  time : Int := 0
  total : Counters := {}
  cores : List Counters := []
deriving DecidableEq, Repr, Inhabited

namespace Sample

/-- The sample before any reading. -/
def blank (cores : Nat) : Sample := { cores := List.replicate cores {} }

/-- A sample overwritten by a reading. Only cores that both have are written, and the total counts
just those; other cores keep what they had. -/
def record (sample : Sample) (time : Int) (values : List Counters) : Sample :=
  let written := values.take sample.cores.length
  { time
    total := .sum written
    cores := written ++ sample.cores.drop values.length }

end Sample

/-- One sample for every tracked group. -/
structure Snapshot where
  rx : Sample := {}
  redirectErr : Sample := {}
  kthread : Sample := {}
  enqueue : List Sample := []
deriving DecidableEq, Repr, Inhabited

namespace Snapshot

/-- The snapshot before any reading. -/
def blank (cores targets : Nat) : Snapshot :=
  { rx := .blank cores
    redirectErr := .blank cores
    kthread := .blank cores
    enqueue := List.replicate targets (.blank cores) }

/-- How many cores its samples cover. -/
def coreCount (snapshot : Snapshot) : Nat := snapshot.rx.cores.length

/-- How many redirect targets it covers. -/
def targetCount (snapshot : Snapshot) : Nat := snapshot.enqueue.length

end Snapshot

end RedirectMonitor
