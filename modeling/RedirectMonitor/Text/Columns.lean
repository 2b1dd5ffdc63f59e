/-
Numbers and names set in columns: the decimal text of an integer, with or without a
comma between thousands, and padding to a width counted in code points. A text longer
than its column keeps all its characters and pushes what follows to the right.
-/

namespace RedirectMonitor.Text

def digits (number : Nat) : List Char := Nat.toDigits 10 number

def decimal (number : Int) : List Char :=
  (if number < 0 then ['-'] else []) ++ digits number.natAbs

/-- Digits with a comma in front of every third one from the right, except at the start. -/
def groupThousands : List Char → List Char
  | [] => []
  | [digit] => [digit]
  | digit :: rest =>
    if rest.length % 3 = 0 then digit :: ',' :: groupThousands rest
    else digit :: groupThousands rest

def grouped (number : Int) : List Char :=
  (if number < 0 then ['-'] else []) ++ groupThousands (digits number.natAbs)

/-- The upper-case hexadecimal text of an integer. -/
def upperHexadecimal (number : Int) : List Char :=
  (if number < 0 then ['-'] else []) ++ (Nat.toDigits 16 number.natAbs).map Char.toUpper

/-- The text followed by spaces up to a width. -/
def padRight (width : Nat) (text : List Char) : List Char :=
  text ++ List.replicate (width - text.length) ' '

/-- The text with spaces in front up to a width. -/
def padLeft (width : Nat) (text : List Char) : List Char :=
  List.replicate (width - text.length) ' ' ++ text

/-- Texts one after the other with a separator between them. -/
def join (separator : List Char) : List (List Char) → List Char
  | [] => []
  | [text] => text
  | text :: rest => text ++ separator ++ join separator rest

end RedirectMonitor.Text
