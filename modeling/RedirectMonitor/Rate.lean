/-
Rates between two samples. The seconds between them are the quotient of nanoseconds,
rounded once; a rate is the increase of a counter divided by these seconds in binary
floating point and cut to an integer. A counter that went down has started anew and gives
the rate zero, and so does a time that did not advance.
-/

import RedirectMonitor.Notice

namespace RedirectMonitor

/-- Why a rate or a period cannot be computed. -/
inductive RateError where
  /-- The seconds exceed the range of floating point numbers. -/
  | periodTooLarge
  /-- The increase exceeds the range of floating point numbers. -/
  | increaseTooLarge
  /-- The quotient is infinite. -/
  | rateInfinite
  /-- The quotient is no number, as the period is none. -/
  | rateNotANumber
deriving DecidableEq, Repr

def RateError.message : RateError → String
  | periodTooLarge => "integer division result too large for a float"
  | increaseTooLarge => "int too large to convert to float"
  | rateInfinite => "cannot convert float infinity to integer"
  | rateNotANumber => "cannot convert float NaN to integer"

/-- The rates of a counter pair over a period, and whether a counter went down. -/
structure Rate where
  pps : Int
  dropPps : Int
  period : Binary64
  reset : Bool
deriving DecidableEq, Repr

def nanosecondsPerSecond : Nat := 1000000000

namespace Sample

/-- The seconds from one sample to the next, zero unless time advanced. -/
def secondsSince (current previous : Sample) : Except RateError Binary64 :=
  let elapsed := current.time - previous.time
  if elapsed ≤ 0 then .ok .zero
  else match Binary64.ofQuotient? elapsed.toNat nanosecondsPerSecond with
    | some seconds => .ok seconds
    | none => .error .periodTooLarge

end Sample

namespace Rate

/-- A quotient cut to an integer. -/
def whole (quotient : Binary64) : Except RateError Int :=
  match quotient with
  | .nan => .error .rateNotANumber
  | .infinite _ => .error .rateInfinite
  | quotient => .ok (quotient.truncate?.getD 0)

/-- Events per second of one counter. -/
def perSecond (current previous : Int) (period : Binary64) : Except RateError Int :=
  if period.isNonpositive then .ok 0
  else
    let increase := current - previous
    if increase < 0 then .ok 0
    else match Binary64.ofInt? increase with
      | some increase => whole (increase.divide period)
      | none => .error .increaseTooLarge

end Rate

namespace Counters

def processedRate (current previous : Counters) (period : Binary64) : Except RateError Int :=
  Rate.perSecond current.processed previous.processed period

def droppedRate (current previous : Counters) (period : Binary64) : Except RateError Int :=
  Rate.perSecond current.dropped previous.dropped period

def wentDown (current previous : Counters) : Bool :=
  current.processed < previous.processed || current.dropped < previous.dropped

end Counters

namespace Rate

/-- The rates of a counter pair; a counter that went down is noted first. -/
def between (current previous : Counters) (period : Binary64) : Noted RateError Rate := do
  let reset := current.wentDown previous
  if reset then .note (.counterReset previous current)
  let processed ← .lift (current.processedRate previous period)
  let dropped ← .lift (current.droppedRate previous period)
  pure { pps := processed, dropPps := dropped, period, reset }

/-- The rates of a group over all cores. -/
def total (current previous : Sample) : Noted RateError Rate := do
  let period ← .lift (current.secondsSince previous)
  between current.total previous.total period

/-- The rates of a group on each core that both samples have. -/
def cores (current previous : Sample) : Noted RateError (List Rate) := do
  let period ← .lift (current.secondsSince previous)
  (current.cores.zip previous.cores).mapM fun (current, previous) =>
    between current previous period

end Rate

end RedirectMonitor
