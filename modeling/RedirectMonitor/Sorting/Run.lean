/-
Ascending runs under a comparison that may fail. The run in order at the front of a list
is taken as it stands, reversed if it strictly descends, and a run that is too short is
made longer by putting further items in place by binary search, each behind the items it
is not less than. Which comparisons are made, and in which order, decides which failure is
met first, and what becomes of items that the comparison does not order.
-/

namespace RedirectMonitor.Sorting

variable {α ε : Type}

/-- The end from which a sequence is given. -/
inductive End where
  | front
  | rear
deriving DecidableEq, Repr

/-- How many of so many items stand before the middle one. Of two middle items it is the one
nearer to the rear of the sequence, from whichever end it is given. -/
def End.middle : End → Nat → Nat
  | front, count => count / 2
  | rear, count => (count - 1) / 2

/-- Splits off the items that lead, by halving. Whatever stands before an item that leads is
taken to lead, and whatever stands behind one that does not is taken not to. -/
def splitWithin (side : End) (leads : α → Except ε Bool) :
    (turns : Nat) → List α → Except ε (List α × List α)
  | 0, items => .ok ([], items)
  | turns + 1, items =>
    match items.drop (side.middle items.length) with
    | [] => .ok ([], items)
    | middle :: above => do
      let below := items.take (side.middle items.length)
      if ← leads middle then
        let (leading, others) ← splitWithin side leads turns above
        pure (below ++ middle :: leading, others)
      else
        let (leading, others) ← splitWithin side leads turns below
        pure (leading, others ++ middle :: above)

/-- The items that lead and the others, by halving. Each turn leaves fewer items, so that
their count bounds the turns. -/
def split (side : End) (leads : α → Except ε Bool) (items : List α) :
    Except ε (List α × List α) :=
  splitWithin side leads items.length items

/-- Whether an item may stand before another, as equal items may. -/
def mayPrecede (less : α → α → Except ε Bool) (item other : α) : Except ε Bool :=
  (less other item).map not

/-- The sorted items with one more, behind all that it is not less than. -/
def insert (less : α → α → Except ε Bool) (sorted : List α) (item : α) :
    Except ε (List α) := do
  let (before, behind) ← split .front (mayPrecede less · item) sorted
  pure (before ++ item :: behind)

/-- The items after `previous` that each stand, by `follows`, to the item before them, and the
rest. -/
def run (follows : α → α → Except ε Bool) (previous : α) : List α → Except ε (List α × List α)
  | [] => .ok ([], [])
  | item :: rest => do
    if ← follows item previous then
      let (items, rest) ← run follows item rest
      pure (item :: items, rest)
    else pure ([], item :: rest)

/-- The run at the front in ascending order, and the rest. A descending run is strict, so that
reversing it exchanges no equal items. -/
def frontRun (less : α → α → Except ε Bool) : List α → Except ε (List α × List α)
  | first :: second :: rest => do
    if ← less second first then
      let (items, rest) ← run less second rest
      pure ((first :: second :: items).reverse, rest)
    else
      let (items, rest) ← run (fun item previous => mayPrecede less previous item) second rest
      pure (first :: second :: items, rest)
  | items => .ok (items, [])

/-- A run at the front of at least so many items, if there are so many, and the rest. -/
def longRun (less : α → α → Except ε Bool) (least : Nat) (items : List α) :
    Except ε (List α × List α) := do
  let (sorted, rest) ← frontRun less items
  let missing := least - sorted.length
  let sorted ← (rest.take missing).foldlM (insert less) sorted
  pure (sorted, rest.drop missing)

/-- The least length of a run among so many items: all of them if they are below 64, else
their count halved, rounding up in the end, until it is below 64. So the number of runs of this
length is a power of two or little less, which keeps the merges of them balanced. -/
def leastRun (count : Nat) : Nat :=
  let parts := Nat.pow 2 (count.log2 - 5)
  (count + parts - 1) / parts

end RedirectMonitor.Sorting
