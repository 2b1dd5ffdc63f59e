/-
Numerals in text: integers in a base up to 16 and decimal reals. A numeral may stand
between blanks, may have a sign, may have digits of any script, and may have single
underscores between digits. The base sixteen also admits a prefix `0x`.
-/

import RedirectMonitor.Text.Blank
import RedirectMonitor.Text.DecimalDigit
import RedirectMonitor.Binary64.Decimal

namespace RedirectMonitor.Text

/-! ### Digits -/

/-- A character as numerals read it: blanks beyond ASCII become spaces, digits of every script
become ASCII digits, and what cannot belong to a numeral becomes a question mark. -/
def numeralCharacter (character : Char) : Char :=
  if character.toNat < 127 then character
  else if isBlank character then ' '
  else match decimalDigit? character with
    | some value => Char.ofNat ('0'.toNat + value)
    | none => '?'

/-- The value of an ASCII digit or letter as a digit of a base. -/
def digitOfBase? (base : Nat) (character : Char) : Option Nat :=
  let code := character.toNat
  let value :=
    if 0x30 ≤ code ∧ code ≤ 0x39 then code - 0x30
    else if 0x61 ≤ code ∧ code ≤ 0x7a then code - 0x61 + 10
    else if 0x41 ≤ code ∧ code ≤ 0x5a then code - 0x41 + 10
    else base
  if value < base then some value else none

/-- The digits of a text of at least one digit, single underscores between two of them skipped. -/
def digitsOfBase? (base : Nat) : List Char → Option (List Nat)
  | [] => none
  | [character] => (digitOfBase? base character).map ([·])
  | character :: '_' :: rest => do
    let value ← digitOfBase? base character
    let values ← digitsOfBase? base rest
    pure (value :: values)
  | character :: next :: rest => do
    let value ← digitOfBase? base character
    let values ← digitsOfBase? base (next :: rest)
    pure (value :: values)

/-- The number that digits stand for, the most significant first. -/
def valueOfDigits (base : Nat) (values : List Nat) : Nat :=
  values.foldl (fun total value => total * base + value) 0

/-! ### Integers -/

/-- A text without its sign, and whether the sign was a minus. -/
def takeSign : List Char → Bool × List Char
  | '-' :: rest => (true, rest)
  | '+' :: rest => (false, rest)
  | text => (false, text)

/-- A text without the prefix of the base sixteen and an underscore right after it. -/
def dropHexPrefix : List Char → List Char
  | '0' :: mark :: rest =>
    if mark == 'x' || mark == 'X' then
      match rest with
      | '_' :: rest => rest
      | rest => rest
    else '0' :: mark :: rest
  | text => text

/-- A natural number with a sign. -/
def signed (negative : Bool) (magnitude : Nat) : Int :=
  if negative then -(magnitude : Int) else magnitude

/-- How many decimal digits an integer in decimal may have. -/
def decimalDigitLimit : Nat := 4300

/-- The integer a decimal numeral stands for; none for any other text and past the digit limit. -/
def readDecimal? (text : List Char) : Option Int := do
  let (negative, text) := takeSign (trimWhere isAsciiBlank (text.map numeralCharacter))
  let values ← digitsOfBase? 10 text
  guard (values.length ≤ decimalDigitLimit)
  pure (signed negative (valueOfDigits 10 values))

/-- The integer a hexadecimal numeral stands for; none for any other text. -/
def readHexadecimal? (text : List Char) : Option Int := do
  let (negative, text) := takeSign (trimWhere isAsciiBlank (text.map numeralCharacter))
  let values ← digitsOfBase? 16 (dropHexPrefix text)
  pure (signed negative (valueOfDigits 16 values))

/-! ### Reals -/

/-- The values of the ASCII digits a text starts with, and the rest. -/
def leadingDigits : List Char → List Nat × List Char
  | [] => ([], [])
  | character :: rest =>
    match digitOfBase? 10 character with
    | some value =>
      let (values, rest) := leadingDigits rest
      (value :: values, rest)
    | none => ([], character :: rest)

/-- Whether each underscore stands between two ASCII digits; `before` tells whether a digit
precedes the text. -/
def underscoresBetweenDigits (before : Bool) : List Char → Bool
  | [] => true
  | '_' :: rest =>
    before && (match rest with
      | next :: _ => (digitOfBase? 10 next).isSome
      | [] => false) && underscoresBetweenDigits false rest
  | character :: rest => underscoresBetweenDigits (digitOfBase? 10 character).isSome rest

/-- The exponent part of a real, zero where there is none; none if anything else is left over. -/
def readExponent? : List Char → Option Int
  | [] => some 0
  | mark :: rest =>
    if mark == 'e' || mark == 'E' then
      let (negative, rest) := takeSign rest
      match leadingDigits rest with
      | ([], _) => none
      | (values, []) => some (signed negative (valueOfDigits 10 values))
      | _ => none
    else none

/-- An unsigned real in decimal: digits, a point and digits, at least one digit in all, and an
exponent. -/
def readUnsignedReal? (negative : Bool) (text : List Char) : Option Binary64 := do
  let (whole, rest) := leadingDigits text
  let (fraction, rest) := match rest with
    | '.' :: rest => leadingDigits rest
    | rest => ([], rest)
  guard (whole ++ fraction ≠ [])
  let exponent ← readExponent? rest
  pure (.ofDecimal negative (valueOfDigits 10 (whole ++ fraction))
    (exponent - (fraction.length : Int)))

/-- The number a decimal real stands for, the words for infinity and for no number included. -/
def readReal? (text : List Char) : Option Binary64 := do
  let text := trimWhere isAsciiBlank (text.map numeralCharacter)
  guard (underscoresBetweenDigits false text)
  let (negative, text) := takeSign (text.filter (· != '_'))
  let word := text.map Char.toLower
  if word = "inf".toList ∨ word = "infinity".toList then pure (.infinite negative)
  else if word = "nan".toList then pure .nan
  else readUnsignedReal? negative text

end RedirectMonitor.Text
