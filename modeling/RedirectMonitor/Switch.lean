/-
The switches of the command line and what single words of it are. A switch is known by
one or two spellings. A word is read as a switch when it is a spelling, a spelling and an
attached value, a single-dash spelling with more characters behind it, or a beginning
that fits one long spelling only. Words that look like negative numbers or hold a space
are plain unless they are read as a switch, and so is every word after the mark `--`.
-/

import RedirectMonitor.Text.Blank
import RedirectMonitor.Text.Columns
import RedirectMonitor.Text.DecimalDigit

namespace RedirectMonitor

inductive Switch where
  | help
  | mapDirectory
  | interval
  | targets
  | program
  | readTimeout
  | liveView
  | debug
deriving DecidableEq, Repr

namespace Switch

/-- A word of the command line. -/
abbrev Word := List Char

/-! ### Spellings -/

/-- All spellings, in the order in which they are offered. -/
def spellings : List (Word × Switch) :=
  [("-h".toList, help), ("--help".toList, help), ("--map-dir".toList, mapDirectory),
    ("-s".toList, interval), ("--sec".toList, interval), ("--targets".toList, targets),
    ("--bpftool".toList, program), ("--read-timeout".toList, readTimeout),
    ("--tui".toList, liveView), ("-D".toList, debug), ("--debug".toList, debug)]

/-- The switch that a word spells out. -/
def ofSpelling? (word : Word) : Option Switch :=
  (spellings.find? fun entry => entry.1 == word).map (·.2)

def takesValue : Switch → Bool
  | mapDirectory | interval | targets | program | readTimeout => true
  | help | liveView | debug => false

/-- How messages name a switch: all its spellings between slashes. -/
def label (switch : Switch) : Word :=
  Text.join ['/'] ((spellings.filter fun entry => entry.2 == switch).map (·.1))

/-! ### Words -/

/-- The mark after which every word is plain. -/
def endMark : Word := ['-', '-']

/-- What a word is. -/
inductive Token where
  | plain (word : Word)
  | mark
  /-- A switch, whether it was spelled with a single dash, and the value attached to it. -/
  | switch (switch : Switch) (single : Bool) (attached : Option Word)
  /-- A word with a dash that is no switch. -/
  | unknown (word : Word)
deriving DecidableEq, Repr

/-- A word that could be a beginning of several spellings. -/
structure Ambiguous where
  word : Word
  candidates : List Word
deriving DecidableEq, Repr

/-- Whether a word is a spelling with a single dash. -/
def isSingle : Word → Bool
  | '-' :: '-' :: _ => false
  | _ => true

/-- A word cut at its first equals sign, if it has one. -/
def cutAtEquals? (word : Word) : Option (Word × Word) :=
  match word.dropWhile (· != '=') with
  | [] => none
  | _ :: value => some (word.takeWhile (· != '='), value)

/-- The spellings that a word could stand for without being one, each with its switch and the
value attached to the word. -/
def candidates (word : Word) : List (Word × Switch × Option Word) :=
  if isSingle word then
    (spellings.filter fun entry => entry.1 == word.take 2).map fun entry =>
      (entry.1, entry.2, some (word.drop 2))
  else
    let (start, attached) :=
      match cutAtEquals? word with
      | some (start, value) => (start, some value)
      | none => (word, none)
    (spellings.filter fun entry => start.isPrefixOf entry.1).map fun entry =>
      (entry.1, entry.2, attached)

/-- Whether a text is one or more decimal digits of any script. -/
def isDigits (text : Word) : Bool := text != [] && text.all fun c => (Text.decimalDigit? c).isSome

/-- A text without one line feed at its end. -/
def dropLineFeed (text : Word) : Word :=
  if text.getLast? = some '\n' then text.dropLast else text

/-- Whether a word looks like a negative number: a dash and digits, among them at most one point,
with digits behind it. A line feed at the end does not matter. -/
def isNegativeNumber : Word → Bool
  | '-' :: text =>
    let text := dropLineFeed text
    isDigits text ||
      match Text.split '.' text with
      | [whole, fraction] => (whole = [] || isDigits whole) && isDigits fraction
      | _ => false
  | _ => false

/-- What a word is that starts with a dash, is longer than that and is no spelling. -/
def classifyDashed (word : Word) : Except Ambiguous Token :=
  match candidates word with
  | [(spelling, switch, attached)] => .ok (.switch switch (isSingle spelling) attached)
  | [] => .ok (if isNegativeNumber word || word.contains ' ' then .plain word else .unknown word)
  | several => .error ⟨word, several.map (·.1)⟩

/-- The switch of a word that is a spelling, an equals sign and a value. -/
def withEquals? (word : Word) : Option Token := do
  let (spelling, value) ← cutAtEquals? word
  let switch ← ofSpelling? spelling
  pure (.switch switch (isSingle spelling) (some value))

/-- What a word is before the mark that ends the switches. -/
def classify (word : Word) : Except Ambiguous Token :=
  if word.head? ≠ some '-' then .ok (.plain word)
  else match ofSpelling? word with
    | some switch => .ok (.switch switch (isSingle word) none)
    | none =>
      if word = ['-'] then .ok (.plain word)
      else match withEquals? word with
        | some token => .ok token
        | none => classifyDashed word

/-- What the words of a command line are. -/
def tokens : List Word → Except Ambiguous (List Token)
  | [] => .ok []
  | word :: rest =>
    if word = endMark then .ok (.mark :: rest.map .plain)
    else do
      let token ← classify word
      let others ← tokens rest
      pure (token :: others)

end Switch

end RedirectMonitor
