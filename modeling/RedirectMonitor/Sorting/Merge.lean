/-
Merging two adjacent runs. Items of the left run that belong before the whole right one
stay where they are, and so do items of the right run that belong behind the whole left
one. Of what remains the shorter run is merged into the longer one, from the front if it is
the left one and from the rear if it is the right one. A merge takes the items in turns,
one at a time, until one run has given so many in a row that looking ahead for its next
item that has to wait is likely to pay. Equal items keep their order.
-/

import RedirectMonitor.Sorting.Run

namespace RedirectMonitor.Sorting

variable {α ε : Type}

/-! ### Looking ahead -/

/-- Splits off the items that lead by leaps, each twice as long as the one before and one
more, and by halving within the leap that goes too far. -/
def leapWithin (side : End) (leads : α → Except ε Bool) :
    (turns width : Nat) → List α → Except ε (List α × List α)
  | 0, _, items => .ok ([], items)
  | turns + 1, width, items =>
    match items.drop width with
    | [] => split side leads items
    | landing :: beyond => do
      if ← leads landing then
        let (leading, others) ← leapWithin side leads turns (2 * width + 1) beyond
        pure (items.take width ++ landing :: leading, others)
      else
        let (leading, others) ← split side leads (items.take width)
        pure (leading, others ++ landing :: beyond)

/-- The items that lead and the others, by leaps from the first item. Each leap leaves fewer
items, so that their count bounds the leaps. -/
def leap (side : End) (leads : α → Except ε Bool) : List α → Except ε (List α × List α)
  | [] => .ok ([], [])
  | first :: rest => do
    if ← leads first then
      let (leading, others) ← leapWithin side leads rest.length 0 rest
      pure (first :: leading, others)
    else pure ([], first :: rest)

/-! ### A merge as it goes on -/

/-- How a merge takes its items. -/
inductive Pace where
  /-- One at a time, when one run has given the last so many. -/
  | turns (byLong : Bool) (streak : Nat)
  /-- As many at a time as one run has before the next item of the other. -/
  | strides
deriving DecidableEq, Repr

/-- The pace at which a merge begins. -/
def Pace.start : Pace := .turns false 0

/-- Where a merge stands. -/
structure Merge (α : Type) where
  /-- The items merged so far, the last first. -/
  merged : List α
  /-- What is left of the shorter run, from the side at which the merge began. -/
  short : List α
  /-- What is left of the longer run, from the same side. -/
  long : List α
  pace : Pace
  /-- How many items in a row one run has to give before the merge takes strides. -/
  patience : Nat
deriving DecidableEq, Repr

/-- How many items one run has to give in a stride for the merge to go on with strides. -/
def leastStride : Nat := 7

/-- The patience of the first merge. -/
def firstPatience : Nat := leastStride

namespace Merge

/-- Whether an item of the long run comes before one of the short run, as seen from a side. The
short run is the left one from the front and the right one from the rear, so that of equal
items the short run's always comes first. -/
def longFirst (less : α → α → Except ε Bool) : End → (short long : α) → Except ε Bool
  | .front, short, long => less long short
  | .rear, short, long => less short long

/-- A merge at its beginning. The first item of the long run is known to come first. -/
def start (patience : Nat) (short : List α) : (long : List α) → Merge α
  | [] => { merged := [], short := short, long := [], pace := .start, patience := patience }
  | first :: long =>
    { merged := [first], short := short, long := long, pace := .start, patience := patience }

/-- Whether no comparison is left to make: the last item of the short run is known to come
behind the whole long run. -/
def isOver (merge : Merge α) : Bool :=
  merge.long.isEmpty || (merge.short.drop 1).isEmpty

/-- All items, the merged ones first, then the long run before the short one. -/
def items (merge : Merge α) : List α :=
  merge.merged.reverse ++ merge.long ++ merge.short

/-- The merge after one run has given one more item in a row. -/
def afterTurn (byLong : Bool) (streak : Nat) (merge : Merge α) : Merge α :=
  { merge with pace := if merge.patience ≤ streak then .strides else .turns byLong streak }

/-- One item moves. -/
def turn (less : α → α → Except ε Bool) (side : End) (byLong : Bool) (streak : Nat)
    (merge : Merge α) : Except ε (Merge α) :=
  match merge.short, merge.long with
  | first :: short, next :: long => do
    if ← longFirst less side first next then
      let merge := { merge with merged := next :: merge.merged, long := long }
      pure (merge.afterTurn true (if byLong then streak + 1 else 1))
    else
      let merge := { merge with merged := first :: merge.merged, short := short }
      pure (merge.afterTurn false (if byLong then 1 else streak + 1))
  | _, _ => .ok merge

/-- The short run gives all items that come before the next of the long run, and then that
one moves, unless the merge is over. With it goes how many items the short run gave. -/
def strideShort (less : α → α → Except ε Bool) (side : End) (merge : Merge α) :
    Except ε (Nat × Merge α) :=
  match merge.long with
  | [] => .ok (0, merge)
  | next :: long => do
    let (given, short) ←
      leap side (fun item => (longFirst less side item next).map not) merge.short
    let merge := { merge with merged := given.reverse ++ merge.merged, short := short }
    if merge.isOver then pure (given.length, merge)
    else pure (given.length, { merge with merged := next :: merge.merged, long := long })

/-- The long run gives all items that come before the next of the short run, and then that
one moves, unless the merge is over. With it goes how many items the long run gave. -/
def strideLong (less : α → α → Except ε Bool) (side : End) (merge : Merge α) :
    Except ε (Nat × Merge α) :=
  match merge.short with
  | [] => .ok (0, merge)
  | next :: short => do
    let (given, long) ← leap side (fun item => longFirst less side next item) merge.long
    let merge := { merge with merged := given.reverse ++ merge.merged, long := long }
    if merge.isOver then pure (given.length, merge)
    else pure (given.length, { merge with merged := next :: merge.merged, short := short })

/-- The merge after a stride of each run. A stride that pays makes the merge less patient,
and one that does not makes it more so and ends the strides. -/
def afterStrides (first second : Nat) (merge : Merge α) : Merge α :=
  if leastStride ≤ first ∨ leastStride ≤ second then
    { merge with patience := max 1 (merge.patience - 1) }
  else { merge with pace := .start, patience := merge.patience + 1 }

/-- Each run makes a stride, the left one first. -/
def strides (less : α → α → Except ε Bool) (side : End) (merge : Merge α) :
    Except ε (Merge α) := do
  let strideLeft := if side = .front then strideShort less side else strideLong less side
  let strideRight := if side = .front then strideLong less side else strideShort less side
  let (first, merge) ← strideLeft merge
  if merge.isOver then pure merge
  else
    let (second, merge) ← strideRight merge
    if merge.isOver then pure merge else pure (merge.afterStrides first second)

/-- One step of a merge. -/
def step (less : α → α → Except ε Bool) (side : End) (merge : Merge α) :
    Except ε (Merge α) :=
  match merge.pace with
  | .turns byLong streak => merge.turn less side byLong streak
  | .strides => merge.strides less side

/-- The merge after so many steps, or when it is over. -/
def steps (less : α → α → Except ε Bool) (side : End) :
    (turns : Nat) → Merge α → Except ε (Merge α)
  | 0, merge => .ok merge
  | turns + 1, merge => do
    if merge.isOver then pure merge else steps less side turns (← merge.step less side)

/-- The merge when it is over. Each step moves an item at least, so that the items left bound
the steps. -/
def finish (less : α → α → Except ε Bool) (side : End) (merge : Merge α) :
    Except ε (Merge α) :=
  merge.steps less side (merge.short.length + merge.long.length)

end Merge

/-! ### Two runs -/

/-- Two runs as one, and how patient the next merge is. -/
def mergeWhole (less : α → α → Except ε Bool) (patience : Nat) (left right : List α) :
    Except ε (Nat × List α) := do
  if left.length ≤ right.length then
    let merge ← (Merge.start patience left right).finish less .front
    pure (merge.patience, merge.items)
  else
    let merge ← (Merge.start patience right.reverse left.reverse).finish less .rear
    pure (merge.patience, merge.items.reverse)

/-- Two adjacent runs as one, without touching the items that are in their places, and how
patient the next merge is. -/
def mergeRuns (less : α → α → Except ε Bool) (patience : Nat) (left right : List α) :
    Except ε (Nat × List α) := do
  match right with
  | [] => pure (patience, left)
  | first :: _ =>
    let (before, left) ← leap .front (mayPrecede less · first) left
    match left.getLast? with
    | none => pure (patience, before ++ right)
    | some last =>
      let (behind, right) ← leap .rear (mayPrecede less last ·) right.reverse
      if right.isEmpty then pure (patience, before ++ left ++ behind.reverse)
      else
        let (patience, items) ← mergeWhole less patience left right.reverse
        pure (patience, before ++ items ++ behind.reverse)

end RedirectMonitor.Sorting
