/-
White space, and cutting text at it. A character is blank when Unicode 14 gives it
the bidirectional class of a separator or calls it a space separator; the program
trims the kernel's CPU lists, tool output and numerals by this class. The narrower
class `isAsciiBlank` is the one a numeral may be surrounded by.
-/

namespace RedirectMonitor.Text

/-- White space of Unicode: 29 characters, the separators U+001C to U+001F among them. -/
def isBlank (character : Char) : Bool :=
  let code := character.toNat
  (0x09 ≤ code && code ≤ 0x0d) || (0x1c ≤ code && code ≤ 0x20) || code == 0x85 ||
    code == 0xa0 || code == 0x1680 || (0x2000 ≤ code && code ≤ 0x200a) || code == 0x2028 ||
    code == 0x2029 || code == 0x202f || code == 0x205f || code == 0x3000

/-- Space, tab, line feed, vertical tab, form feed and carriage return. -/
def isAsciiBlank (character : Char) : Bool :=
  character == ' ' || (0x09 ≤ character.toNat && character.toNat ≤ 0x0d)

/-- The text without the characters of a class at its two ends. -/
def trimWhere (blank : Char → Bool) (text : List Char) : List Char :=
  ((text.dropWhile blank).reverse.dropWhile blank).reverse

/-- The text without white space at its two ends. -/
def trim (text : List Char) : List Char := trimWhere isBlank text

/-- The pieces between the occurrences of a separator, one more than there are separators. -/
def split (separator : Char) : List Char → List (List Char)
  | [] => [[]]
  | character :: rest =>
    if character == separator then [] :: split separator rest
    else match split separator rest with
      | [] => [[character]]
      | piece :: pieces => (character :: piece) :: pieces

/-- The maximal runs of characters that are not blank. -/
def fields : List Char → List (List Char)
  | [] => []
  | character :: rest =>
    if isBlank character then fields rest
    else match rest with
      | [] => [[character]]
      | next :: _ =>
        if isBlank next then [character] :: fields rest
        else match fields rest with
          | [] => [[character]]
          | field :: others => (character :: field) :: others

/-- Line ends of every kind made one line feed: CR LF and a single CR become LF. -/
def unifyLineEnds : List Char → List Char
  | [] => []
  | '\r' :: '\n' :: rest => '\n' :: unifyLineEnds rest
  | '\r' :: rest => '\n' :: unifyLineEnds rest
  | character :: rest => character :: unifyLineEnds rest

end RedirectMonitor.Text
