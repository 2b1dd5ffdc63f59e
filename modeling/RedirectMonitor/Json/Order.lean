/-
Order on JSON values. Numbers compare by value across their kinds, a boolean counting as
zero or one; texts compare by code points; arrays compare at the first items that are not
the same. No other two values have an order, and asking for one is an error that names the
kinds. Sameness, by contrast, is defined for all values, and finds `NaN` the same as
itself.
-/

import RedirectMonitor.Json
import RedirectMonitor.Quantity

namespace RedirectMonitor.Json

/-- The kinds of two values that have no order. -/
structure Unordered where
  left : Kind
  right : Kind
deriving DecidableEq, Repr

def quantity? : Json → Option Quantity
  | boolean value => some (.whole (if value then 1 else 0))
  | integer value => some (.whole value)
  | real value => some (.real value)
  | _ => none

/-- Whether two values count as the same number. -/
def sameNumber (left right : Json) : Bool :=
  match left.quantity?, right.quantity? with
  | some (.real .nan), some (.real .nan) => true
  | some left, some right => left.compare? right == some .eq
  | _, _ => false

mutual

/-- Whether two values are the same, objects regardless of the order of their members. -/
def same : Json → Json → Bool
  | null, null => true
  | string left, string right => left == right
  | array left, array right => sameItems left right
  | object left, object right => left.length == right.length && sameMembers left right
  | left, right => sameNumber left right

def sameItems : List Json → List Json → Bool
  | [], [] => true
  | left :: lefts, right :: rights => same left right && sameItems lefts rights
  | _, _ => false

/-- Whether each member has a member of the same key and value among others. -/
def sameMembers : List (Text.CodePoints × Json) → List (Text.CodePoints × Json) → Bool
  | [], _ => true
  | (name, value) :: rest, others =>
    (match member? name others with
      | some other => same value other
      | none => false) && sameMembers rest others

end

/-- Whether one text comes before another, by code points. -/
def textLess : Text.CodePoints → Text.CodePoints → Bool
  | [], right => !right.isEmpty
  | _ :: _, [] => false
  | left :: lefts, right :: rights => left < right || (left == right && textLess lefts rights)

/-- Whether one number comes before another; for other values the kinds that have no order. -/
def numberLess (left right : Json) : Except Unordered Bool :=
  match left.quantity?, right.quantity? with
  | some first, some second => .ok (first.compare? second == some .lt)
  | _, _ => .error ⟨left.kind, right.kind⟩

mutual

/-- Whether one value comes before another. -/
def less : Json → Json → Except Unordered Bool
  | string left, string right => .ok (textLess left right)
  | array left, array right => lessItems left right
  | left, right => numberLess left right

/-- Whether one array comes before another: at the first items that differ, else by length. -/
def lessItems : List Json → List Json → Except Unordered Bool
  | [], right => .ok (!right.isEmpty)
  | _ :: _, [] => .ok false
  | left :: lefts, right :: rights =>
    if same left right then lessItems lefts rights else less left right

end

end RedirectMonitor.Json
