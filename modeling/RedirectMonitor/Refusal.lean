/-
What the system refuses of its own accord. A call of a program has a time limit, and a wait
has a length; both are kept in integers of a fixed width, and what does not fit is refused.
-/

import RedirectMonitor.Quantity

namespace RedirectMonitor

/-- Something is refused, for a reason that the system gives. -/
structure Refusal where
  reason : String
deriving DecidableEq, Repr

namespace Refusal

/-- The longest time limit of a call in seconds: it is kept in milliseconds, in 32 bits with a
sign. -/
def longestLimit : Quantity := .real (.ofDecimal false 2147483647 (-3))

/-- Why a time limit cannot be kept, if it cannot. -/
def ofLimit? : Quantity → Option Refusal
  | .real .nan => some ⟨"cannot convert float NaN to integer"⟩
  | .real (.infinite false) => some ⟨"cannot convert float infinity to integer"⟩
  | limit =>
    if limit.compare? longestLimit = some .gt then some ⟨"timeout is too large"⟩ else none

/-- The longest wait in seconds: it is kept in nanoseconds, in 64 bits with a sign. -/
def longestWait : Quantity := .whole 9223372036

/-- Why a wait of an interval is refused, if it is. What is no number is no wait at all. -/
def ofWait? (interval : Quantity) : Option Refusal :=
  if interval.compare? longestWait = some .gt then
    some ⟨"timestamp too large to convert to C _PyTime_t"⟩
  else none

end Refusal

end RedirectMonitor
