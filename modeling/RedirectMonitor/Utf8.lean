/-
UTF-8. The bytes are read one at a time by a machine that knows which ranges the bytes
still due may lie in. What it finds is a list of pieces, each a character or a maximal
ill-formed part, so that strict decoding (the first ill-formed part is an error) and
lenient decoding (each ill-formed part becomes one replacement character) are two views
of the same pieces.
-/

namespace RedirectMonitor.Utf8

/-- Why a part of the bytes is ill-formed. -/
inductive Fault where
  /-- No sequence starts with this byte. -/
  | startByte
  /-- The byte after the part does not continue its sequence. -/
  | continuationByte
  /-- The bytes end within a sequence. -/
  | endOfData
deriving DecidableEq, Repr

def Fault.message : Fault → String
  | startByte => "invalid start byte"
  | continuationByte => "invalid continuation byte"
  | endOfData => "unexpected end of data"

/-- An ill-formed part: where it starts, its bytes, and what is wrong. -/
structure IllFormed where
  start : Nat
  bytes : List UInt8
  fault : Fault
deriving DecidableEq, Repr

/-- A character or an ill-formed part. -/
inductive Piece where
  | character (character : Char)
  | illFormed (part : IllFormed)
deriving Repr

/-- The range of a byte that continues a sequence. -/
def continuing : Nat × Nat := (0x80, 0xbf)

/-- What a first byte contributes to the code point, and the ranges of the bytes that must follow.
The ranges of the second byte exclude overlong forms, surrogates and what lies past U+10FFFF. -/
def lead? (byte : Nat) : Option (Nat × List (Nat × Nat)) :=
  if byte < 0x80 then some (byte, [])
  else if byte < 0xc2 then none
  else if byte < 0xe0 then some (byte - 0xc0, [continuing])
  else if byte < 0xf0 then
    let second :=
      if byte = 0xe0 then (0xa0, 0xbf) else if byte = 0xed then (0x80, 0x9f) else continuing
    some (byte - 0xe0, [second, continuing])
  else if byte < 0xf5 then
    let second :=
      if byte = 0xf0 then (0x90, 0xbf) else if byte = 0xf4 then (0x80, 0x8f) else continuing
    some (byte - 0xf0, [second, continuing, continuing])
  else none

/-- Where the machine stands: between sequences, or within one that started at `start`, with the
bytes taken so far, the bits they gave, and the ranges of the bytes still due. -/
inductive State where
  | between
  | within (start : Nat) (taken : List UInt8) (value : Nat) (due : Nat × Nat)
      (later : List (Nat × Nat))

/-- A byte where a sequence may start. -/
def begin (position : Nat) (byte : UInt8) : List Piece × State :=
  match lead? byte.toNat with
  | none => ([.illFormed ⟨position, [byte], .startByte⟩], .between)
  | some (value, []) => ([.character (Char.ofNat value)], .between)
  | some (value, due :: later) => ([], .within position [byte] value due later)

/-- A byte in any state. A byte out of range closes the ill-formed part before it and is then
read as a first byte itself. -/
def advance (position : Nat) (byte : UInt8) : State → List Piece × State
  | .between => begin position byte
  | .within start taken value (low, high) later =>
    if low ≤ byte.toNat ∧ byte.toNat ≤ high then
      let value := value * 64 + (byte.toNat - 0x80)
      match later with
      | [] => ([.character (Char.ofNat value)], .between)
      | due :: later => ([], .within start (taken ++ [byte]) value due later)
    else
      let (pieces, state) := begin position byte
      (.illFormed ⟨start, taken, .continuationByte⟩ :: pieces, state)

/-- The pieces of the bytes from a position on, the machine being in a given state. -/
def piecesFrom (position : Nat) (state : State) : List UInt8 → List Piece
  | [] => match state with
    | .between => []
    | .within start taken _ _ _ => [.illFormed ⟨start, taken, .endOfData⟩]
  | byte :: rest =>
    let (found, state) := advance position byte state
    found ++ piecesFrom (position + 1) state rest

def pieces (bytes : List UInt8) : List Piece := piecesFrom 0 .between bytes

/-- The text of the bytes, each ill-formed part replaced by U+FFFD. -/
def decodeLossy (bytes : List UInt8) : List Char :=
  (pieces bytes).map fun
    | .character character => character
    | .illFormed _ => '\ufffd'

/-- The text of well-formed bytes, or the first ill-formed part. -/
def decode (bytes : List UInt8) : Except IllFormed (List Char) :=
  (pieces bytes).mapM fun
    | .character character => .ok character
    | .illFormed part => .error part

/-- The wording of an ill-formed part: its byte or the positions of its bytes, and the fault. -/
def IllFormed.message (part : IllFormed) : String :=
  let place := match part.bytes with
    | [byte] =>
      let hexadecimal := Nat.toDigits 16 byte.toNat
      "byte 0x" ++ String.ofList (List.replicate (2 - hexadecimal.length) '0' ++ hexadecimal) ++
        " in position " ++ toString part.start
    | bytes => "bytes in position " ++ toString part.start ++ "-" ++
        toString (part.start + bytes.length - 1)
  "'utf-8' codec can't decode " ++ place ++ ": " ++ part.fault.message

def encode (text : List Char) : List UInt8 := text.flatMap String.utf8EncodeChar

end RedirectMonitor.Utf8
