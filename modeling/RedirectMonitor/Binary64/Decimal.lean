/-
Decimal text of binary numbers and back. Reading rounds the exact decimal once; writing
with fixed places rounds the exact binary value once. The shortest text of a number is
found on decimal grids from coarse to fine: a grid point stands for the number when it
lies in the interval of reals that round to the number, and the first grid with such a
point next to the number gives the fewest digits that read back.
-/

import RedirectMonitor.Binary64
import RedirectMonitor.Text.Columns

namespace RedirectMonitor.Binary64

open RedirectMonitor.Text

/-! ### Reading -/

/-- The number nearest `digits * 10 ^ exponent`. Past every bound of the format the answer is
known from the size alone, so that no power of ten is built for a great exponent. -/
def ofDecimal (negative : Bool) (digits : Nat) (exponent : Int) : Binary64 :=
  if digits = 0 then finite negative 0 0
  else
    let size : Int := (Nat.toDigits 10 digits).length + exponent
    if 310 < size then infinite negative
    else if size < -330 then finite negative 0 0
    else
      let numerator := digits * Nat.pow 10 exponent.toNat
      let denominator := Nat.pow 10 (-exponent).toNat
      (round negative (numerator * unitsPerOne) denominator).getD (infinite negative)

/-! ### Fixed places -/

/-- The magnitude in units written with a number of places after the point, rounded half to even. -/
def fixedMagnitude (places units : Nat) : List Char :=
  let scaled := nearestEven (units * Nat.pow 10 places) unitsPerOne
  let fraction := digits (scaled % Nat.pow 10 places)
  digits (scaled / Nat.pow 10 places) ++ '.' ::
    (List.replicate (places - fraction.length) '0' ++ fraction)

/-- The number with a fixed number of places after the point. -/
def fixed (places : Nat) : Binary64 → List Char
  | nan => "nan".toList
  | infinite negative => (if negative then ['-'] else []) ++ "inf".toList
  | finite negative significand shift =>
    (if negative then ['-'] else []) ++ fixedMagnitude places (significand * Nat.pow 2 shift)

/-! ### Shortest text -/

/-- The least power of ten, counted down from `start`, that does not exceed the value
`numerator / denominator`; the search stops after `fuel` steps. -/
def decadeBelow (numerator denominator : Nat) : (fuel : Nat) → (start : Nat) → Nat
  | 0, step => step
  | fuel + 1, step =>
    if denominator ≤ numerator * Nat.pow 10 step then step
    else decadeBelow numerator denominator fuel (step + 1)

/-- The exponent of the first decimal digit of a positive number of units. -/
def decimalExponent (units : Nat) : Int :=
  if unitsPerOne ≤ units then ((digits (units / unitsPerOne)).length : Int) - 1
  else -(decadeBelow units unitsPerOne 330 1 : Nat)

/-- A point `digit * 10 ^ exponent` of a decimal grid. -/
structure GridPoint where
  digit : Nat
  exponent : Int
deriving DecidableEq, Repr

/-- The point of the grid `10 ^ exponent` that stands for the number, if one of the two
points beside the number does; of two the nearer, of two equally near the even one. -/
def gridPoint? (significand shift : Nat) (exponent : Int) : Option GridPoint :=
  let scale := Nat.pow 10 (-exponent).toNat
  let numerator := significand * Nat.pow 2 shift * scale
  let denominator := unitsPerOne * Nat.pow 10 exponent.toNat
  let above := 2 * Nat.pow 2 shift * scale
  let below := if significand = Nat.pow 2 52 ∧ 0 < shift then Nat.pow 2 shift * scale else above
  let closed := significand % 2 = 0
  let stands (digit : Nat) : Bool :=
    let point := 4 * digit * denominator
    let value := 4 * numerator
    if closed then point ≤ value + above && value ≤ point + below
    else point < value + above && value < point + below
  let low := numerator / denominator
  let twice := 2 * (numerator % denominator)
  let lowFirst := twice < denominator || (twice == denominator && low % 2 == 0)
  let nearer := if lowFirst then low else low + 1
  let other := if lowFirst then low + 1 else low
  if stands nearer then some ⟨nearer, exponent⟩
  else if stands other then some ⟨other, exponent⟩
  else none

/-- The first grid point from the coarsest grid on; the grid of 17 digits always has one. -/
def shortestPoint (significand shift : Nat) : GridPoint :=
  let top := decimalExponent (significand * Nat.pow 2 shift)
  ((List.range 17).findSome? fun (finer : Nat) =>
    gridPoint? significand shift (top - (finer : Int))).getD ⟨0, 0⟩

/-- The same digits without zeros at the end. -/
def stripZeros (text : List Char) : List Char :=
  (text.reverse.dropWhile (· == '0')).reverse

/-- Decimal digits and the exponent of the first of them, in positional notation from `10 ^ -4`
up to below `10 ^ 16` and in scientific notation elsewhere. -/
def positionalOrScientific (text : List Char) (exponent : Int) : List Char :=
  if -4 ≤ exponent ∧ exponent < 16 then
    if exponent < 0 then
      '0' :: '.' :: List.replicate (-exponent - 1).toNat '0' ++ text
    else
      let whole := text.take (exponent + 1).toNat
      let fraction := text.drop (exponent + 1).toNat
      whole ++ List.replicate ((exponent + 1).toNat - whole.length) '0' ++
        '.' :: (if fraction = [] then ['0'] else fraction)
  else
    let tail := text.drop 1
    let power := digits exponent.natAbs
    text.take 1 ++ (if tail = [] then [] else '.' :: tail) ++
      ['e', if exponent < 0 then '-' else '+'] ++
      List.replicate (2 - power.length) '0' ++ power

/-- The shortest decimal text that reads back as the number. -/
def shortest : Binary64 → List Char
  | nan => "nan".toList
  | infinite negative => (if negative then ['-'] else []) ++ "inf".toList
  | finite negative significand shift =>
    let sign := if negative then ['-'] else []
    if significand = 0 then sign ++ "0.0".toList
    else
      let point := shortestPoint significand shift
      let text := digits point.digit
      sign ++ positionalOrScientific (stripZeros text) (point.exponent + text.length - 1)

end RedirectMonitor.Binary64
