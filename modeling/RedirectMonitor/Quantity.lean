/-
Numbers that are either integers or binary floating point numbers, such as intervals and
timeouts. A quantity keeps which of the two it is, since its text shows it, and all
comparisons are exact.
-/

import RedirectMonitor.Binary64.Decimal

namespace RedirectMonitor

/-- An integer or a binary floating point number. -/
inductive Quantity where
  | whole (value : Int)
  | real (value : Binary64)
deriving DecidableEq, Repr, Inhabited

namespace Quantity

/-- How two quantities compare; none if either is no number. -/
def compare? : Quantity → Quantity → Option Ordering
  | whole left, whole right => some (compare left right)
  | whole left, real right => (right.compareInt? left).map Ordering.swap
  | real left, whole right => left.compareInt? right
  | real left, real right => left.compare? right

/-- Whether the quantity is at most zero, which what is no number is not. -/
def isNonpositive : Quantity → Bool
  | whole value => value ≤ 0
  | real value => value.isNonpositive

/-- The decimal text of an integer, or the shortest text of a floating point number. -/
def text : Quantity → List Char
  | whole value => Text.decimal value
  | real value => value.shortest

end Quantity

end RedirectMonitor
