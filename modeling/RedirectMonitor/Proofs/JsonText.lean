/-
This file says what the JSON texts of a value are, in the words of the format and not of the
reader: which tokens spell a value without parts, and how arrays and objects are put together from
the texts of their parts, with blanks wherever two tokens meet. A character may be written as
itself or as an escape, a digit of an escape in either case, a number with or without a fraction
and an exponent.

The limits of the reader are part of what a text is measured by: containers that nest no deeper
than a number, and integers of no more digits than a numeral may have.
-/

import RedirectMonitor.Json.Reader

namespace RedirectMonitor.Json

open RedirectMonitor.Text

/-- Any number of the characters that may stand between two tokens. -/
def Blanks (text : List Char) : Prop := ∀ character ∈ text, character ∈ [' ', '\t', '\n', '\r']

instance (text : List Char) : Decidable (Blanks text) := List.decidableBAll _ text

/-! ### Texts -/

/-- The hexadecimal digits of a value, in lower and in upper case. -/
def hexadecimalDigits (value : Nat) : List Char :=
  [value.digitChar, value.digitChar.toUpper]

/-- The four hexadecimal digits of a number, the most significant first. -/
inductive SpelledQuad (code : Nat) : List Char → Prop
  | mk {first second third fourth : Char} (small : code < 0x10000)
      (first_spelled : first ∈ hexadecimalDigits (code / 0x1000))
      (second_spelled : second ∈ hexadecimalDigits (code / 0x100 % 0x10))
      (third_spelled : third ∈ hexadecimalDigits (code / 0x10 % 0x10))
      (fourth_spelled : fourth ∈ hexadecimalDigits (code % 0x10)) :
      SpelledQuad code [first, second, third, fourth]

/-- The letters of the short escapes, with the characters they stand for. -/
def letterEscapes : List (Char × Char) :=
  [('\x22', '\x22'), ('\\', '\\'), ('/', '/'), ('b', '\x08'), ('f', '\x0c'), ('n', '\n'),
    ('r', '\r'), ('t', '\t')]

/-- How a character may be written between quotes: as itself, as an escape of one letter, by the
digits of its code, or by those of two halves of a surrogate pair. -/
inductive SpelledCharacter (character : Char) : List Char → Prop
  | plain (printable : 0x20 ≤ character.toNat) (quote : character ≠ '\x22')
      (slash : character ≠ '\\') : SpelledCharacter character [character]
  | letter {letter : Char} (known : (letter, character) ∈ letterEscapes) :
      SpelledCharacter character ['\\', letter]
  | quad {digits : List Char} (four : SpelledQuad character.toNat digits) :
      SpelledCharacter character ('\\' :: 'u' :: digits)
  | pair {high low : List Char} (large : 0x10000 ≤ character.toNat)
      (first : SpelledQuad (0xd800 + (character.toNat - 0x10000) / 0x400) high)
      (second : SpelledQuad (0xdc00 + (character.toNat - 0x10000) % 0x400) low) :
      SpelledCharacter character ('\\' :: 'u' :: high ++ '\\' :: 'u' :: low)

/-- How a text may be written between quotes. -/
inductive SpelledText : List Char → List Char → Prop
  | nil : SpelledText [] []
  | cons {character : Char} {rest written others : List Char}
      (first : SpelledCharacter character written) (later : SpelledText rest others) :
      SpelledText (character :: rest) (written ++ others)

/-! ### Numbers -/

/-- The number that decimal digits stand for. -/
def numberOf (digits : List Char) : Nat := Nat.ofDigitChars 10 digits 0

/-- At least one decimal digit. -/
structure AreDigits (digits : List Char) : Prop where
  nonempty : digits ≠ []
  decimal : ∀ digit ∈ digits, digit.isDigit = true

/-- Decimal digits that start with a zero only where it is all there is. -/
structure AreWhole (digits : List Char) : Prop extends AreDigits digits where
  leading : digits.head? = some '0' → digits = ['0']

def minus (negative : Bool) : List Char := if negative then ['-'] else []

/-- The digits of a fraction, none where there is no fraction, and how they are written. -/
inductive SpelledFraction : List Char → List Char → Prop
  | none : SpelledFraction [] []
  | some {digits : List Char} (digit : AreDigits digits) : SpelledFraction digits ('.' :: digits)

/-- The signs of an exponent, with whether they are a minus. -/
def exponentSigns : List (Bool × List Char) := [(false, []), (false, ['+']), (true, ['-'])]

/-- An exponent, zero where there is none, and how it is written. -/
inductive SpelledExponent : Int → List Char → Prop
  | none : SpelledExponent 0 []
  | some {mark : Char} {negative : Bool} {sign digits : List Char} (known : mark ∈ ['e', 'E'])
      (signed : (negative, sign) ∈ exponentSigns) (digit : AreDigits digits) :
      SpelledExponent (Text.signed negative (numberOf digits)) (mark :: sign ++ digits)

/-- The texts of a value that holds no other value. -/
inductive SpelledScalar : Json → List Char → Prop
  | null : SpelledScalar .null ['n', 'u', 'l', 'l']
  | true : SpelledScalar (.boolean true) ['t', 'r', 'u', 'e']
  | false : SpelledScalar (.boolean false) ['f', 'a', 'l', 's', 'e']
  | text {content written : List Char} (spelled : SpelledText content written) :
      SpelledScalar (.string (codePoints content)) ('\x22' :: written ++ ['\x22'])
  | integer {negative : Bool} {digits : List Char} (whole : AreWhole digits)
      (short : digits.length ≤ decimalDigitLimit) :
      SpelledScalar (.integer (signed negative (numberOf digits))) (minus negative ++ digits)
  | real {negative : Bool} {digits fraction point mark : List Char} {exponent : Int}
      (whole : AreWhole digits) (fractional : SpelledFraction fraction point)
      (scaled : SpelledExponent exponent mark) (inexact : point ≠ [] ∨ mark ≠ []) :
      SpelledScalar
        (.real (.ofDecimal negative (numberOf (digits ++ fraction)) (exponent - fraction.length)))
        (minus negative ++ digits ++ point ++ mark)

/-! ### Containers -/

/-- At least one part, commas between the parts and blanks around each. -/
inductive Separated {α : Type} (spelled : α → List Char → Prop) : List α → List Char → Prop
  | last {item : α} {before written after : List Char} (blanks : Blanks before)
      (first : spelled item written) (blanks' : Blanks after) :
      Separated spelled [item] (before ++ written ++ after)
  | more {item : α} {items : List α} {before written after others : List Char}
      (blanks : Blanks before) (first : spelled item written) (blanks' : Blanks after)
      (later : Separated spelled items others) :
      Separated spelled (item :: items) (before ++ written ++ after ++ ',' :: others)

/-- What stands between two brackets: blanks, or parts with commas between them. -/
inductive Listed {α : Type} (spelled : α → List Char → Prop) : List α → List Char → Prop
  | none {text : List Char} (blanks : Blanks text) : Listed spelled [] text
  | some {items : List α} {text : List Char} (parts : Separated spelled items text) :
      Listed spelled items text

/-- A member: its name between quotes, a colon with blanks around it, and its value. -/
inductive SpelledMember (spelled : Json → List Char → Prop) :
    List Char × Json → List Char → Prop
  | mk {name written before after text : List Char} {value : Json}
      (named : SpelledText name written) (blanks : Blanks before) (blanks' : Blanks after)
      (valued : spelled value text) :
      SpelledMember spelled (name, value)
        ('\x22' :: written ++ '\x22' :: before ++ ':' :: after ++ text)

/-- The members that an object has where these are written: of a repeated name the last value
counts, in the place of the first. -/
def membersOf (written : List (List Char × Json)) : List (CodePoints × Json) :=
  written.foldl (fun members (name, value) => setMember (codePoints name) value members) []

inductive SpelledArray (spelled : Json → List Char → Prop) : Json → List Char → Prop
  | mk {items : List Json} {text : List Char} (listed : Listed spelled items text) :
      SpelledArray spelled (.array items) ('[' :: text ++ [']'])

inductive SpelledObject (spelled : Json → List Char → Prop) : Json → List Char → Prop
  | mk {members : List (List Char × Json)} {text : List Char}
      (listed : Listed (SpelledMember spelled) members text) :
      SpelledObject spelled (.object (membersOf members)) ('\x7b' :: text ++ ['\x7d'])

/-- The texts of a value whose containers nest no deeper than a number. -/
def Spelled : (depth : Nat) → Json → List Char → Prop
  | 0, value, text => SpelledScalar value text
  | depth + 1, value, text =>
    SpelledScalar value text ∨ SpelledArray (Spelled depth) value text ∨
      SpelledObject (Spelled depth) value text

/-- The whole texts of a value: blanks may stand before and after it. -/
inductive Written (value : Json) : List Char → Prop
  | mk {before text after : List Char} (blanks : Blanks before)
      (spelled : Spelled nestingLimit value text) (blanks' : Blanks after) :
      Written value (before ++ text ++ after)

end RedirectMonitor.Json
