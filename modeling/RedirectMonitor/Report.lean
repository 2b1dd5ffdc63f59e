/-
The report of one interval: rows of rates. Each group has a row for every core with
processed packets and a total row after them. The fixed groups always have their total
row; a redirect target without packets has no row at all.
-/

import RedirectMonitor.Rate

namespace RedirectMonitor

/-- A row of the report. Groups whose drops are not counted have none. -/
structure Row where
  label : String
  ident : String
  pps : Int
  dropPps : Option Int
  period : Binary64
deriving DecidableEq, Repr

namespace Row

/-- The row that shows a rate. -/
def ofRate (label ident : String) (withDrops : Bool) (rate : Rate) : Row :=
  { label, ident
    pps := rate.pps
    dropPps := if withDrops then some rate.dropPps else none
    period := rate.period }

end Row

namespace Report

open RedirectMonitor.Text

/-- The labels of the groups. -/
structure Labels where
  rx : String := "XDP-RX"
  enqueue : String := "cpumap-enqueue"
  kthread : String := "cpumap_kthread"
  redirectErr : String := "redirect_err"

/-- The labels that the report shows. -/
def labels : Labels := {}

/-- The identifier of an enqueue row: the core, right-aligned, and the target, left-aligned, each
in three columns around a colon. -/
def enqueueIdent (core : List Char) (target : Int) : String :=
  .ofList (padLeft 3 core ++ ':' :: padRight 3 (decimal target))

/-- The rows of the cores that processed packets. -/
def coreRows (label : String) (ident : Nat → String) (withDrops : Bool) (rates : List Rate) :
    List Row :=
  rates.zipIdx.filterMap fun (rate, core) =>
    if 0 < rate.pps then some (.ofRate label (ident core) withDrops rate) else none

/-- The rows of a fixed group. -/
def groupRows (label : String) (withDrops : Bool) (current previous : Sample) :
    Noted RateError (List Row) := do
  let rates ← Rate.cores current previous
  let total ← Rate.total current previous
  pure (coreRows label (fun core => .ofList (digits core)) withDrops rates ++
    [.ofRate label "total" withDrops total])

/-- The rows of a redirect target. -/
def targetRows (target : Nat) (current previous : Sample) : Noted RateError (List Row) := do
  let total ← Rate.total current previous
  if total.pps = 0 then pure []
  else
    let rates ← Rate.cores current previous
    pure (coreRows labels.enqueue (fun core => enqueueIdent (digits core) target) true rates ++
      [.ofRate labels.enqueue (enqueueIdent "sum".toList target) true total])

/-- The rows of all redirect targets that both snapshots cover. -/
def allTargetRows (current previous : List Sample) : Noted RateError (List Row) := do
  let rows ← (current.zip previous).zipIdx.mapM fun ((current, previous), target) =>
    targetRows target current previous
  pure rows.flatten

/-- The rows of a report. -/
def rows (current previous : Snapshot) : Noted RateError (List Row) := do
  let rx ← groupRows labels.rx false current.rx previous.rx
  let targets ← allTargetRows current.enqueue previous.enqueue
  let kthread ← groupRows labels.kthread true current.kthread previous.kthread
  let redirectErr ← groupRows labels.redirectErr true current.redirectErr previous.redirectErr
  pure (rx ++ targets ++ kthread ++ redirectErr)

end Report

end RedirectMonitor
