/-
A rehearsed world, in which the monitor is tried out without a kernel and without the tool:
counter maps, a clock and a script. The maps hold counters under keys,
zeros where nothing was set; a lookup can be made to fail, and a run of the tool to come
to anything. The script lists what happens at the moments of a run, told by how many
moments of their kind came before; one of its acts asks the run to end, and one holds it.
-/

import RedirectMonitor.Activity.Surroundings
import RedirectMonitor.Bpftool.Output

namespace RedirectMonitor

/-- A map and a key in it. -/
abbrev MapKey := String × Int

/-- What can happen in a rehearsed world. -/
inductive Act where
  | set (place : MapKey) (pairs : List Counters)
  /-- Counters are added on one core, a negative one counting from the end. -/
  | bump (place : MapKey) (core : Int) (increase : Counters)
  | fail (place : MapKey)
  | unfail (place : MapKey)
  /-- The tool comes to this for the key. -/
  | run (place : MapKey) (outcome : Bpftool.Run)
  | unrun (place : MapKey)
  /-- The clock gets another time or another step. -/
  | clock (now step : Option Int)
  | clockFails (fails : Bool)
  /-- The run is asked to end. -/
  | cancel
  /-- The run is held: a lookup until it is released, a wait until the run is asked to end. -/
  | block
deriving Repr

/-- A run whose wait is held, and whether an end was asked for since, which ends the wait even if
it is taken back. -/
structure HeldWait where
  actor : Activity.Actor
  ends : Bool := false
deriving Repr

/-- An act and the moment of a run at which it happens. -/
structure Cue where
  moment : Moment
  /-- How many moments of this kind come before. -/
  count : Nat
  act : Act
deriving Repr

/-- A rehearsed world. -/
structure Rehearsal where
  /-- How many cores have zeros where nothing was set. -/
  cores : Nat
  maps : List (MapKey × List Counters) := []
  failing : List MapKey := []
  runs : List (MapKey × Bpftool.Run) := []
  now : Int := 1000000000
  step : Int := 1000000000
  clockFails : Bool := false
  lookups : Nat := 0
  renders : Nat := 0
  waits : Nat := 0
  script : List Cue := []
  /-- The report of this number, and each after it, ends the run. -/
  limit : Int := 8
  /-- The runs whose lookups are held until a release. -/
  heldLookups : List Activity.Actor := []
  /-- The runs whose lookups may go on. -/
  releasedLookups : List Activity.Actor := []
  /-- The waits that are held until an end is asked for. -/
  heldWaits : List HeldWait := []

namespace Rehearsal

/-! ### Acts -/

/-- The value at a place of a list. -/
def valueAt? {α : Type} (place : MapKey) (entries : List (MapKey × α)) : Option α :=
  (entries.find? fun entry => entry.1 == place).map (·.2)

/-- A list without the value at a place. -/
def withoutPlace {α : Type} (place : MapKey) (entries : List (MapKey × α)) : List (MapKey × α) :=
  entries.filter fun entry => entry.1 != place

/-- The counters under a place. -/
def pairs (world : Rehearsal) (place : MapKey) : List Counters :=
  (valueAt? place world.maps).getD (List.replicate world.cores {})

/-- The world with other counters under a place. -/
def setPairs (world : Rehearsal) (place : MapKey) (pairs : List Counters) : Rehearsal :=
  { world with maps := (place, pairs) :: withoutPlace place world.maps }

/-- Counters with an increase on one core. -/
def bumpCore (pairs : List Counters) (core : Int) (increase : Counters) : List Counters :=
  let index := if core < 0 then core + pairs.length else core
  if index < 0 then pairs else pairs.modify index.toNat (Counters.add · increase)

/-- The world after an act; to end or to hold a run does not change it. -/
def perform (world : Rehearsal) : Act → Rehearsal
  | .set place pairs => world.setPairs place pairs
  | .bump place core increase =>
    world.setPairs place (bumpCore (world.pairs place) core increase)
  | .fail place => { world with failing := place :: world.failing }
  | .unfail place => { world with failing := world.failing.filter (· != place) }
  | .run place outcome =>
    { world with runs := (place, outcome) :: withoutPlace place world.runs }
  | .unrun place => { world with runs := withoutPlace place world.runs }
  | .clock now step => { world with now := now.getD world.now, step := step.getD world.step }
  | .clockFails fails => { world with clockFails := fails }
  | .cancel | .block => world

/-! ### Reading -/

/-- The time of the clock, which moves on with every reading. -/
def readClock (world : Rehearsal) : Except ClockFault Int × Rehearsal :=
  if world.clockFails then (.error ⟨"no clock"⟩, world)
  else (.ok world.now, { world with now := world.now + world.step })

/-- A subsystem that answers with the counters themselves. -/
def lookup (map : String) (key : Int) (world : Rehearsal) :
    Except LookupError (List Counters) × Rehearsal :=
  if world.failing.contains (map, key) then (.error (.contained (.refused map key)), world)
  else (.ok (world.pairs (map, key)), world)

/-- What the tool says where a key is missing. -/
def missingKey : Bpftool.Run := .ended 255 [] (Utf8.encode "Error: key not found\n".toList)

/-- What a run of the tool for a place comes to. -/
def outcome (world : Rehearsal) (place : MapKey) (keyBytes : List Nat) : Bpftool.Run :=
  match valueAt? place world.runs with
  | some outcome => outcome
  | none =>
    if world.failing.contains place then missingKey
    else .ended 0 (Utf8.encode (Bpftool.outputText keyBytes (world.pairs place))) []

/-- A run of the tool, the map told by the last part of the path and the key by its bytes. -/
def runTool (words : List String) (world : Rehearsal) : Bpftool.Run × Rehearsal :=
  let map := ((PathName.ofString (words.getD 5 "")).parts.getLast?).getD []
  let keyBytes := (words.drop 7).map fun word => Text.valueOfDigits 10
    (((Text.digitsOfBase? 10 word.toList)).getD [])
  (world.outcome (.ofList map, Bpftool.littleEndian keyBytes) keyBytes, world)

/-- The rehearsed world without a tool. -/
def plain : World Rehearsal := { lookup, clock := readClock }

/-- The rehearsed world behind the tool. -/
def behind {limit : Type} (tool : Bpftool.Tool limit) : World Rehearsal :=
  .ofTool tool runTool readClock

/-! ### Moments -/

/-- The acts at a moment that has so many of its kind before it. -/
def cued (world : Rehearsal) (moment : Moment) (count : Nat) : List Act :=
  (world.script.filter fun cue => decide (cue.moment = moment) && cue.count == count).map Cue.act

/-- Whether acts ask the run to end. -/
def cancels (acts : List Act) : Bool := acts.any fun
  | .cancel => true
  | _ => false

/-- Whether acts hold the run. -/
def blocks (acts : List Act) : Bool := acts.any fun
  | .block => true
  | _ => false

/-- A lookup of a run is under way, or one that was held goes on. All acts of its moment happen
before it is held. -/
def signalLookup (actor : Activity.Actor) (world : Rehearsal) : Signal × Rehearsal :=
  if world.heldLookups.contains actor then ({ hangs := true }, world)
  else if world.releasedLookups.contains actor then
    ({}, { world with releasedLookups := world.releasedLookups.erase actor })
  else
    let acts := world.cued .lookup world.lookups
    let holds := blocks acts
    let heldLookups := if holds then actor :: world.heldLookups else world.heldLookups
    ({ cancels := cancels acts, hangs := holds },
      acts.foldl perform { world with lookups := world.lookups + 1, heldLookups := heldLookups })

/-- A report is out. -/
def signalRender (world : Rehearsal) : Signal × Rehearsal :=
  let acts := world.cued .render world.renders
  ({ cancels := cancels acts || decide (world.limit - 1 ≤ world.renders) },
    acts.foldl perform { world with renders := world.renders + 1 })

/-- A wait of a run has begun, or one that was held goes on. -/
def signalWait (actor : Activity.Actor) (cancelled : Bool) (world : Rehearsal) :
    Signal × Rehearsal :=
  match world.heldWaits.find? fun held => held.actor = actor with
  | some held =>
    if cancelled || held.ends then
      ({ cancels := true },
        { world with heldWaits := world.heldWaits.filter fun held => held.actor ≠ actor })
    else ({ hangs := true }, world)
  | none =>
    let acts := world.cued .wait world.waits
    let holds := blocks acts && !(cancelled || cancels acts)
    let heldWaits := if holds then { actor := actor } :: world.heldWaits else world.heldWaits
    ({ cancels := cancels acts, hangs := holds },
      acts.foldl perform { world with waits := world.waits + 1, heldWaits := heldWaits })

/-- An end was asked for: waits that are held will end. -/
def endWaits (world : Rehearsal) : Rehearsal :=
  { world with heldWaits := world.heldWaits.map fun held => { held with ends := true } }

/-- What the script has to say at a moment of a run. -/
def signal (actor : Activity.Actor) (moment : Moment) (cancelled : Bool) (world : Rehearsal) :
    Signal × Rehearsal :=
  let (signal, world) := match moment with
    | .lookup => world.signalLookup actor
    | .render => world.signalRender
    | .wait => world.signalWait actor cancelled
  (signal, if signal.cancels then world.endWaits else world)

/-- The lookups that are held may go on. -/
def release (world : Rehearsal) : Rehearsal :=
  { world with
    heldLookups := []
    releasedLookups := world.heldLookups ++ world.releasedLookups }

/-- Steps enough for a run over so many groups that nothing holds: the world ends it at its limit of
reports, and a report takes a collection and a few steps more. -/
def stepsEnough (world : Rehearsal) (groups : Nat) : Nat :=
  ((max world.limit 1).toNat + 2) * (groups + 4) + 8

/-! ### Readings outside a run -/

/-- The world after a lookup moment that belongs to no run. -/
def afterMoment (world : Rehearsal) : Rehearsal := (world.signalLookup .caller).2

/-- The rehearsed world without a tool, each lookup of which is a moment of the script. -/
def plainAlone : World Rehearsal :=
  { plain with lookup := fun map key world => lookup map key world.afterMoment }

/-- The rehearsed world behind the tool, each run of which is a moment of the script; where the
tool is not run, there is none. -/
def behindAlone {limit : Type} (tool : Bpftool.Tool limit) : World Rehearsal :=
  .ofTool tool (fun words world => runTool words world.afterMoment) readClock

end Rehearsal

end RedirectMonitor
