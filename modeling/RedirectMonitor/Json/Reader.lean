/-
Reading JSON text. Every reader takes the text that is left and returns a value with what
is left after it; an error carries how much was left where it arose, from which its place
in the whole text is computed once at the end. The nesting limit is a parameter of the
value reader and its recursion; the loops over items and members are bounded by the length
of the whole text, since each turn consumes some of it.

Beyond strict JSON the reader admits the words `NaN`, `Infinity` and `-Infinity` and
surrogate escapes without a partner, and of a repeated key the last value counts.
-/

import RedirectMonitor.Json
import RedirectMonitor.Text.Numeral

namespace RedirectMonitor.Json

open RedirectMonitor.Text

/-! ### Errors -/

/-- What can be wrong with the syntax of a text. -/
inductive Flaw where
  | byteOrderMark
  | value
  | propertyName
  | colon
  | comma
  | controlCharacter
  | unterminatedText
  | escape
  | unicodeEscape
  | extraData
deriving DecidableEq, Repr

def Flaw.message : Flaw → String
  | byteOrderMark => "Unexpected UTF-8 BOM (decode using utf-8-sig)"
  | value => "Expecting value"
  | propertyName => "Expecting property name enclosed in double quotes"
  | colon => "Expecting ':' delimiter"
  | comma => "Expecting ',' delimiter"
  | controlCharacter => "Invalid control character at"
  | unterminatedText => "Unterminated string starting at"
  | escape => "Invalid \\escape"
  | unicodeEscape => "Invalid \\uXXXX escape"
  | extraData => "Extra data"

/-- A flaw with its place: line and column from one, and the count of characters before it. -/
structure SyntaxError where
  flaw : Flaw
  line : Nat
  column : Nat
  offset : Nat
deriving DecidableEq, Repr

def SyntaxError.message (error : SyntaxError) : String :=
  error.flaw.message ++ ": line " ++ toString error.line ++ " column " ++ toString error.column ++
    " (char " ++ toString error.offset ++ ")"

/-- Why a reader stopped. -/
inductive Stop where
  /-- A flaw, with the number of characters left at its place. -/
  | flawed (flaw : Flaw) (left : Nat)
  /-- An integer of more digits than a decimal numeral may have. -/
  | tooManyDigits (count : Nat)
  /-- A container below the nesting limit. -/
  | tooDeep (container : Kind)
deriving DecidableEq, Repr

/-- A value and the text after it. -/
abbrev Reading (α : Type) := α × List Char

/-! ### Blanks and words -/

def isJsonBlank (character : Char) : Bool :=
  character == ' ' || character == '\t' || character == '\n' || character == '\r'

def skipBlanks (text : List Char) : List Char := text.dropWhile isJsonBlank

/-- The text after a word, if it starts with the word. -/
def dropWord? (word : String) (text : List Char) : Option (List Char) :=
  if word.toList.isPrefixOf text then some (text.drop word.length) else none

/-! ### Texts -/

/-- The number four hexadecimal digits stand for. -/
def hexQuad? (first second third fourth : Char) : Option Nat := do
  let first ← digitOfBase? 16 first
  let second ← digitOfBase? 16 second
  let third ← digitOfBase? 16 third
  let fourth ← digitOfBase? 16 fourth
  pure (((first * 16 + second) * 16 + third) * 16 + fourth)

/-- The code point of an escape of one letter. -/
def letterEscape? : Char → Option Nat
  | '\x22' => some 0x22
  | '\\' => some 0x5c
  | '/' => some 0x2f
  | 'b' => some 0x08
  | 'f' => some 0x0c
  | 'n' => some 0x0a
  | 'r' => some 0x0d
  | 't' => some 0x09
  | _ => none

/-- Whether a number is the first half of a surrogate pair. -/
def isHighSurrogate (code : Nat) : Bool := 0xd800 ≤ code && code ≤ 0xdbff

/-- Whether a number is the second half of a surrogate pair. -/
def isLowSurrogate (code : Nat) : Bool := 0xdc00 ≤ code && code ≤ 0xdfff

def joinSurrogates (high low : Nat) : Nat :=
  0x10000 + (high - 0xd800) * 0x400 + (low - 0xdc00)

/-- A text in which neighbouring halves of a pair are joined, from the left. -/
def joinPairs : CodePoints → CodePoints
  | high :: low :: rest =>
    if isHighSurrogate high && isLowSurrogate low then joinSurrogates high low :: joinPairs rest
    else high :: joinPairs (low :: rest)
  | codes => codes

/-- One more code point in front of a text that was read. -/
def prepend (code : Nat) :
    Except Stop (Reading CodePoints) → Except Stop (Reading CodePoints)
  | .ok (codes, rest) => .ok (code :: codes, rest)
  | .error stop => .error stop

/-- The code points up to the closing quote, each half of a pair by itself. An escape of four
digits needs a character after it. -/
def readCodes : List Char → Except Stop (Reading CodePoints)
  | [] => .error (.flawed .unterminatedText 0)
  | '\x22' :: rest => .ok ([], rest)
  | ['\\'] => .error (.flawed .unterminatedText 0)
  | '\\' :: 'u' :: first :: second :: third :: fourth :: next :: rest =>
    match hexQuad? first second third fourth with
    | none => .error (.flawed .unicodeEscape (rest.length + 6))
    | some code => prepend code (readCodes (next :: rest))
  | '\\' :: 'u' :: rest => .error (.flawed .unicodeEscape (rest.length + 1))
  | '\\' :: letter :: rest =>
    match letterEscape? letter with
    | some code => prepend code (readCodes rest)
    | none => .error (.flawed .escape (rest.length + 2))
  | character :: rest =>
    if character.toNat ≤ 0x1f then .error (.flawed .controlCharacter (rest.length + 1))
    else prepend character.toNat (readCodes rest)

/-- A text that does not end is a flaw at its opening quote. -/
def blameOpening (opening : List Char) : Stop → Stop
  | .flawed .unterminatedText _ => .flawed .unterminatedText opening.length
  | stop => stop

/-- The text up to its closing quote, `opening` being all that is left at the opening quote. -/
def readText (opening text : List Char) : Except Stop (Reading CodePoints) :=
  match readCodes text with
  | .ok (codes, rest) => .ok (joinPairs codes, rest)
  | .error stop => .error (blameOpening opening stop)

/-! ### Numbers -/

/-- The digits of an integer part: a single zero, or digits that start with another one. -/
def integerPart : List Char → List Nat × List Char
  | '0' :: rest => ([0], rest)
  | text => leadingDigits text

/-- A fraction: a point that at least one digit follows. -/
def fractionPart (text : List Char) : Option (List Nat × List Char) :=
  match text with
  | '.' :: rest =>
    match leadingDigits rest with
    | ([], _) => none
    | (values, rest) => some (values, rest)
  | _ => none

/-- An exponent: the letter, perhaps a sign, and at least one digit. -/
def exponentPart (text : List Char) : Option (Int × List Char) :=
  match text with
  | mark :: rest =>
    if mark == 'e' || mark == 'E' then
      let (negative, rest) := takeSign rest
      match leadingDigits rest with
      | ([], _) => none
      | (values, rest) => some (signed negative (valueOfDigits 10 values), rest)
    else none
  | [] => none

/-- A text without its minus, and whether there was one. -/
def takeMinus : List Char → Bool × List Char
  | '-' :: rest => (true, rest)
  | text => (false, text)

/-- A number. A point or a letter `e` that no digit follows is left to what comes after. -/
def readNumber (text : List Char) : Except Stop (Reading Json) :=
  let (negative, digits) := takeMinus text
  match integerPart digits with
  | ([], _) => .error (.flawed .value text.length)
  | (whole, rest) =>
    match fractionPart rest, exponentPart rest with
    | some (fraction, rest), _ =>
      let (exponent, rest) := (exponentPart rest).getD (0, rest)
      .ok (.real (.ofDecimal negative (valueOfDigits 10 (whole ++ fraction))
        (exponent - (fraction.length : Int))), rest)
    | none, some (exponent, rest) =>
      .ok (.real (.ofDecimal negative (valueOfDigits 10 whole) exponent), rest)
    | none, none =>
      if decimalDigitLimit < whole.length then .error (.tooManyDigits whole.length)
      else .ok (.integer (signed negative (valueOfDigits 10 whole)), rest)

/-! ### Values -/

/-- A value that holds no other value. -/
def readScalar (text : List Char) : Except Stop (Reading Json) :=
  match text with
  | '\x22' :: rest => (readText text rest).map fun (codes, rest) => (.string codes, rest)
  | _ =>
    match dropWord? "null" text, dropWord? "true" text, dropWord? "false" text with
    | some rest, _, _ => .ok (.null, rest)
    | _, some rest, _ => .ok (.boolean true, rest)
    | _, _, some rest => .ok (.boolean false, rest)
    | _, _, _ =>
      match dropWord? "NaN" text, dropWord? "Infinity" text, dropWord? "-Infinity" text with
      | some rest, _, _ => .ok (.real .nan, rest)
      | _, some rest, _ => .ok (.real (.infinite false), rest)
      | _, _, some rest => .ok (.real (.infinite true), rest)
      | _, _, _ => readNumber text

/-- The items of an array from its first item on, the bracket after the last included. -/
def readItems (item : List Char → Except Stop (Reading Json)) : (turns : Nat) → List Char →
    Except Stop (Reading (List Json))
  | 0, text => .error (.flawed .value text.length)
  | turns + 1, text => do
    let (value, rest) ← item text
    match skipBlanks rest with
    | ']' :: rest => pure ([value], rest)
    | ',' :: rest => do
      let (values, rest) ← readItems item turns (skipBlanks rest)
      pure (value :: values, rest)
    | rest => .error (.flawed .comma rest.length)

/-- The key of a member, the colon and the blanks after it. -/
def readKey (text : List Char) : Except Stop (Reading CodePoints) :=
  match text with
  | '\x22' :: rest => do
    let (name, rest) ← readText text rest
    match skipBlanks rest with
    | ':' :: rest => pure (name, skipBlanks rest)
    | rest => .error (.flawed .colon rest.length)
  | _ => .error (.flawed .propertyName text.length)

/-- The members of an object from its first key on, added to those before, the brace included. -/
def readMembers (item : List Char → Except Stop (Reading Json)) :
    (turns : Nat) → List (CodePoints × Json) → List Char →
      Except Stop (Reading (List (CodePoints × Json)))
  | 0, _, text => .error (.flawed .propertyName text.length)
  | turns + 1, members, text => do
    let (name, rest) ← readKey text
    let (value, rest) ← item rest
    let members := setMember name value members
    match skipBlanks rest with
    | '}' :: rest => pure (members, rest)
    | ',' :: rest => readMembers item turns members (skipBlanks rest)
    | rest => .error (.flawed .comma rest.length)

/-- A value inside at most `depth` further containers, none of more than `turns` items. -/
def readValue (turns : Nat) : (depth : Nat) → List Char → Except Stop (Reading Json)
  | 0, text =>
    match text with
    | '[' :: _ => .error (.tooDeep .array)
    | '{' :: _ => .error (.tooDeep .object)
    | _ => readScalar text
  | depth + 1, text =>
    match text with
    | '[' :: rest =>
      match skipBlanks rest with
      | ']' :: rest => .ok (.array [], rest)
      | rest => (readItems (readValue turns depth) turns rest).map fun (items, rest) =>
          (.array items, rest)
    | '{' :: rest =>
      match skipBlanks rest with
      | '}' :: rest => .ok (.object [], rest)
      | rest => (readMembers (readValue turns depth) turns [] rest).map fun (members, rest) =>
          (.object members, rest)
    | _ => readScalar text

/-- How deep containers may nest. The limit is one of the whole stack, of which the reader has what
its callers leave; this is what they leave to a reader that is called near the bottom. Each call
between takes one level, a few in a run of the monitor. -/
def nestingLimit : Nat := 990

/-- A whole text: one value between blanks. -/
def readDocument (text : List Char) : Except Stop Json :=
  match text with
  | '\ufeff' :: _ => .error (.flawed .byteOrderMark text.length)
  | _ => do
    let (value, rest) ← readValue text.length nestingLimit (skipBlanks text)
    match skipBlanks rest with
    | [] => pure value
    | rest => .error (.flawed .extraData rest.length)

/-- The place of a flaw where so many characters of a text are left. -/
def locate (text : List Char) (flaw : Flaw) (left : Nat) : SyntaxError :=
  let before := text.take (text.length - left)
  { flaw
    line := before.count '\n' + 1
    column := (before.reverse.takeWhile (· != '\n')).length + 1
    offset := before.length }

end RedirectMonitor.Json
