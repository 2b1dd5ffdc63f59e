/-
Quoted text as messages show it: between quotes, every character that is not printable
written as an escape. Texts that come out of JSON may hold surrogates without a partner,
so the quoted form is defined on code points.
-/

import RedirectMonitor.Text.Printable

namespace RedirectMonitor.Text

/-- A text as code points, in which a surrogate may stand alone. -/
abbrev CodePoints := List Nat

def codePoints (text : List Char) : CodePoints := text.map Char.toNat

/-- The character of a code point, the replacement character standing for a lone surrogate. -/
def charOfCode (code : Nat) : Char :=
  if code.isValidChar then Char.ofNat code else '\ufffd'

/-- The lower-case hexadecimal digits of a number, with zeros in front up to a width. -/
def hexadecimal (width number : Nat) : List Char :=
  let digits := Nat.toDigits 16 number
  List.replicate (width - digits.length) '0' ++ digits

/-- How a quoted text writes one code point. -/
def escape (quote : Nat) (code : Nat) : List Char :=
  if code = quote ∨ code = 0x5c then ['\\', charOfCode code]
  else if code = 0x0a then ['\\', 'n']
  else if code = 0x0d then ['\\', 'r']
  else if code = 0x09 then ['\\', 't']
  else if isPrintable code then [charOfCode code]
  else if code < 0x100 then ['\\', 'x'] ++ hexadecimal 2 code
  else if code < 0x10000 then ['\\', 'u'] ++ hexadecimal 4 code
  else ['\\', 'U'] ++ hexadecimal 8 code

/-- The quote of a text: double where it holds single quotes and no double one, else single. -/
def quoteOf (text : CodePoints) : Nat :=
  if text.contains 0x27 && !text.contains 0x22 then 0x22 else 0x27

/-- The text between quotes. -/
def quoted (text : CodePoints) : List Char :=
  let quote := quoteOf text
  charOfCode quote :: text.flatMap (escape quote) ++ [charOfCode quote]

end RedirectMonitor.Text
