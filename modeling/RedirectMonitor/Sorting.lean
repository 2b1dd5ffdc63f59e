/-
Sorting by a comparison that may fail. The items are cut into ascending runs, and runs are
merged with their neighbours, so that the merges come near to a balanced tree over the
runs as they were found. The sort is stable. A comparison that fails ends it, and one that
is no order at all still leaves a rearrangement of the items.
-/

import RedirectMonitor.Sorting.Merge

namespace RedirectMonitor.Sorting

variable {α ε : Type}

/-- A run that waits to be merged. -/
structure Run (α : Type) where
  items : List α
  /-- How deep the boundary before the run lies in the balanced tree over all items. -/
  depth : Nat
deriving DecidableEq, Repr

/-- The runs that wait, the latest first. -/
structure Runs (α : Type) where
  waiting : List (Run α)
  /-- How patient the next merge is. -/
  patience : Nat
deriving DecidableEq, Repr

namespace Runs

/-- No runs yet. -/
def empty : Runs α := { waiting := [], patience := firstPatience }

/-- All items in their places. -/
def items (runs : Runs α) : List α :=
  runs.waiting.reverse.flatMap Run.items

/-- The latest two runs become one. -/
def mergeLatest (less : α → α → Except ε Bool) (runs : Runs α) : Except ε (Runs α) :=
  match runs.waiting with
  | latest :: earlier :: others => do
    let (patience, items) ← mergeRuns less runs.patience earlier.items latest.items
    pure { waiting := { earlier with items := items } :: others, patience := patience }
  | _ => .ok runs

/-- The two runs before the latest become one. -/
def mergeBeforeLatest (less : α → α → Except ε Bool) (runs : Runs α) : Except ε (Runs α) :=
  match runs.waiting with
  | latest :: others => do
    let merged ← mergeLatest less { runs with waiting := others }
    pure { merged with waiting := latest :: merged.waiting }
  | [] => .ok runs

/-- The runs after the latest are merged as long as the boundary between them lies deeper
than the one that follows, in at most so many turns. -/
def settle (less : α → α → Except ε Bool) (depth : Nat) :
    (turns : Nat) → Runs α → Except ε (Runs α)
  | 0, runs => .ok runs
  | turns + 1, runs =>
    match runs.waiting with
    | latest :: _ :: _ => do
      if depth < latest.depth then settle less depth turns (← runs.mergeLatest less)
      else pure runs
    | _ => .ok runs

/-- The depth of the boundary between two runs that end and begin at a place among so many
items: the tree halves the places again and again, and the boundary lies at the first halving
that puts the middles of the two runs on different sides. -/
def boundaryDepth (count place before after : Nat) : Nat :=
  let parted (depth : Nat) : Bool :=
    Nat.pow 2 depth * (2 * place - before) / count !=
      Nat.pow 2 depth * (2 * place + after) / count
  ((List.range count).find? parted).getD count

/-- The runs with one more, that of the items that follow them. -/
def add (less : α → α → Except ε Bool) (count : Nat) (runs : Runs α) (items : List α) :
    Except ε (Runs α) :=
  match runs.waiting with
  | [] => .ok { runs with waiting := [{ items := items, depth := 0 }] }
  | latest :: _ => do
    let depth := boundaryDepth count runs.items.length latest.items.length items.length
    let settled ← runs.settle less depth runs.waiting.length
    pure { settled with waiting := { items := items, depth := depth } :: settled.waiting }

/-- The runs of the items, in at most so many turns, after those found so far. -/
def ofItems (less : α → α → Except ε Bool) (count : Nat) :
    (turns : Nat) → Runs α → List α → Except ε (Runs α)
  | 0, runs, _ => .ok runs
  | turns + 1, runs, rest =>
    if rest.isEmpty then .ok runs
    else do
      let (items, rest) ← longRun less (leastRun count) rest
      ofItems less count turns (← runs.add less count items) rest

/-- The runs become one, in at most so many turns: always the latest two, unless the run
before them is shorter than the latest. -/
def unite (less : α → α → Except ε Bool) : (turns : Nat) → Runs α → Except ε (Runs α)
  | 0, runs => .ok runs
  | turns + 1, runs =>
    match runs.waiting with
    | latest :: _ :: earlier :: _ => do
      if earlier.items.length < latest.items.length then
        unite less turns (← runs.mergeBeforeLatest less)
      else unite less turns (← runs.mergeLatest less)
    | _ => runs.mergeLatest less

end Runs

/-- The items in ascending order, equal ones in the order given. -/
def sort (less : α → α → Except ε Bool) (items : List α) : Except ε (List α) := do
  let runs ← Runs.ofItems less items.length items.length .empty items
  let runs ← runs.unite less runs.waiting.length
  pure runs.items

end RedirectMonitor.Sorting
