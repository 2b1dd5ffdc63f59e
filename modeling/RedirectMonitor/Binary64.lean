/-
Binary floating point numbers of 64 bits as exact values. A finite number is a
sign, a significand and a shift: it stands for `significand * 2 ^ shift` units of
`2 ^ -1074`, the least positive number of the format. In these units every
magnitude is a natural number, so the arithmetic below is exact arithmetic on
`Nat` followed by one rounding, `round`, to the nearest number with ties to the
even significand.
-/

namespace RedirectMonitor

/-- A number of the 64-bit binary format. All quiet payloads count as one `nan`. -/
inductive Binary64 where
  | nan
  | infinite (negative : Bool)
  | finite (negative : Bool) (significand shift : Nat)
deriving DecidableEq, Repr, Inhabited

namespace Binary64

/-! ### Rounding -/

/-- The quotient rounded to the nearest natural number, a tie going to the even one. -/
def nearestEven (numerator denominator : Nat) : Nat :=
  let quotient := numerator / denominator
  let twice := 2 * (numerator % denominator)
  if twice < denominator then quotient
  else if denominator < twice then quotient + 1
  else if quotient % 2 = 0 then quotient else quotient + 1

/-- How many bits of a quotient of units lie below the 53 that a significand holds. -/
def droppedBits (numerator denominator : Nat) : Nat :=
  (numerator / denominator).log2 - 52

/-- The number nearest `numerator / denominator` units, or none past the greatest finite one. -/
def round (negative : Bool) (numerator denominator : Nat) : Option Binary64 :=
  let shift := droppedBits numerator denominator
  let significand := nearestEven numerator (denominator * Nat.pow 2 shift)
  let carried := significand = Nat.pow 2 53
  let shift := if carried then shift + 1 else shift
  let significand := if carried then Nat.pow 2 52 else significand
  if shift ≤ 2045 then some (finite negative significand shift) else none

def unitsPerOne : Nat := Nat.pow 2 1074

/-- The magnitude in units of `2 ^ -1074`; zero for what is not finite. -/
def units : Binary64 → Nat
  | finite _ significand shift => significand * Nat.pow 2 shift
  | _ => 0

def zero : Binary64 := finite false 0 0

/-! ### Conversions and quotients -/

/-- The number nearest an integer, or none where it would be infinite. -/
def ofInt? (value : Int) : Option Binary64 :=
  round (value < 0) (value.natAbs * unitsPerOne) 1

/-- The number nearest a quotient of natural numbers, or none where it would be infinite. -/
def ofQuotient? (numerator denominator : Nat) : Option Binary64 :=
  round false (numerator * unitsPerOne) denominator

/-- The quotient of a finite number by any number that is not zero. -/
def divide : Binary64 → Binary64 → Binary64
  | nan, _ => nan
  | _, nan => nan
  | infinite _, infinite _ => nan
  | infinite negative, finite negative' _ _ => infinite (negative != negative')
  | finite negative _ _, infinite negative' => finite (negative != negative') 0 0
  | finite negative significand shift, finite negative' significand' shift' =>
    let sign := negative != negative'
    let numerator := significand * Nat.pow 2 shift * unitsPerOne
    (round sign numerator (significand' * Nat.pow 2 shift')).getD (infinite sign)

/-- The integer part, the fraction being cut off; none for what is not finite. -/
def truncate? : Binary64 → Option Int
  | finite negative significand shift =>
    let whole : Int := (significand * Nat.pow 2 shift / unitsPerOne : Nat)
    some (if negative then -whole else whole)
  | _ => none

def negate : Binary64 → Binary64
  | nan => nan
  | infinite negative => infinite (!negative)
  | finite negative significand shift => finite (!negative) significand shift

/-! ### Order -/

/-- The signed value in units; both zeros give zero. -/
def signedUnits : Binary64 → Int
  | finite true significand shift => -((significand * Nat.pow 2 shift : Nat) : Int)
  | finite false significand shift => ((significand * Nat.pow 2 shift : Nat) : Int)
  | _ => 0

/-- How a number compares with an exact number of units; none for `nan`, which has no place. -/
def compareUnits : Binary64 → Int → Option Ordering
  | nan, _ => none
  | infinite true, _ => some .lt
  | infinite false, _ => some .gt
  | value, units => some (compare value.signedUnits units)

/-- How two numbers compare; none if either is `nan`. -/
def compare? : Binary64 → Binary64 → Option Ordering
  | nan, _ => none
  | value, infinite negative =>
    if value = infinite negative then some .eq
    else some (if negative then .gt else .lt)
  | _, nan => none
  | value, other => value.compareUnits other.signedUnits

/-- How a number compares with an integer, exactly and without rounding the integer. -/
def compareInt? (value : Binary64) (integer : Int) : Option Ordering :=
  value.compareUnits (integer * unitsPerOne)

/-- Whether the number is at most zero; `nan` is not. -/
def isNonpositive (value : Binary64) : Bool :=
  match value.compareInt? 0 with
  | some .lt | some .eq => true
  | _ => false

/-! ### Interchange bits -/

/-- The 64 bits of the interchange format, `nan` being the quiet one without a sign. -/
def toBits : Binary64 → Nat
  | nan => 0x7ff8000000000000
  | infinite negative => (if negative then Nat.pow 2 63 else 0) + 0x7ff0000000000000
  | finite negative significand shift =>
    (if negative then Nat.pow 2 63 else 0) +
      if significand < Nat.pow 2 52 then significand
      else (shift + 1) * Nat.pow 2 52 + (significand - Nat.pow 2 52)

/-- The number with these bits of the interchange format. -/
def ofBits (bits : Nat) : Binary64 :=
  let negative := bits / Nat.pow 2 63 % 2 = 1
  let biased := bits / Nat.pow 2 52 % Nat.pow 2 11
  let fraction := bits % Nat.pow 2 52
  if biased = 2047 then
    if fraction = 0 then infinite negative else nan
  else if biased = 0 then finite negative fraction 0
  else finite negative (Nat.pow 2 52 + fraction) (biased - 1)

end Binary64

end RedirectMonitor
