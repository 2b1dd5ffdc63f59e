/-
This file says that decoding undoes encoding: the bytes of a text are read back as the text,
whatever its characters are and however the lenient reading treats bytes that are ill-formed.

The content is one character. Its first byte announces how many bytes follow and within which
ranges, and since a character is neither a surrogate nor past the last code point, the bytes it is
written as lie in those ranges. The bits that the bytes carry are the digits of the code point to
the base sixty-four.
-/

import Mathlib.Data.Nat.Basic
import RedirectMonitor.Utf8

namespace RedirectMonitor.Utf8

/-! ### Bytes -/

/-- A byte whose leading bits mark it as one that continues a sequence. -/
def tail (bits : Nat) : UInt8 := .ofNat (bits + 0x80)

theorem toNat_tail {bits : Nat} (small : bits < 64) : (tail bits).toNat = bits + 0x80 :=
  UInt8.toNat_ofNat_of_lt' (by show bits + 0x80 < 256; omega)

theorem piecesFrom_single {position : Nat} {byte : UInt8} {value : Nat}
    (announced : lead? byte.toNat = some (value, [])) (rest : List UInt8) :
    piecesFrom position .between (byte :: rest) =
      .character (Char.ofNat value) :: piecesFrom (position + 1) .between rest := by
  simp [piecesFrom, advance, begin, announced]

theorem piecesFrom_first {position : Nat} {byte : UInt8} {value : Nat} {due : Nat × Nat}
    {later : List (Nat × Nat)} (announced : lead? byte.toNat = some (value, due :: later))
    (rest : List UInt8) :
    piecesFrom position .between (byte :: rest) =
      piecesFrom (position + 1) (.within position [byte] value due later) rest := by
  simp [piecesFrom, advance, begin, announced]

theorem piecesFrom_tail {position start value bits low high : Nat} {taken : List UInt8}
    {due : Nat × Nat} {later : List (Nat × Nat)} (least : low ≤ bits + 0x80)
    (greatest : bits + 0x80 ≤ high) (small : bits < 64) (rest : List UInt8) :
    piecesFrom position (.within start taken value (low, high) (due :: later))
        (tail bits :: rest) =
      piecesFrom (position + 1)
        (.within start (taken ++ [tail bits]) (value * 64 + bits) due later) rest := by
  simp [piecesFrom, advance, toNat_tail small, least, greatest]

theorem piecesFrom_last {position start value bits low high : Nat} {taken : List UInt8}
    (least : low ≤ bits + 0x80) (greatest : bits + 0x80 ≤ high) (small : bits < 64)
    (rest : List UInt8) :
    piecesFrom position (.within start taken value (low, high) []) (tail bits :: rest) =
      .character (Char.ofNat (value * 64 + bits)) :: piecesFrom (position + 1) .between rest := by
  simp [piecesFrom, advance, toNat_tail small, least, greatest]

/-! ### Characters -/

theorem utf8EncodeChar_eq (character : Char) :
    String.utf8EncodeChar character =
      let code := character.toNat
      if code < 0x80 then [.ofNat code]
      else if code < 0x800 then [.ofNat (code / 64 + 0xc0), tail (code % 64)]
      else if code < 0x10000 then
        [.ofNat (code / 4096 + 0xe0), tail (code / 64 % 64), tail (code % 64)]
      else
        [.ofNat (code / 262144 + 0xf0), tail (code / 4096 % 64), tail (code / 64 % 64),
          tail (code % 64)] := by
  have valid : character.toNat < 0xd800 ∨ 0xdfff < character.toNat ∧ character.toNat < 0x110000 :=
    character.valid
  unfold String.utf8EncodeChar tail
  rw [Char.toNat_val]
  dsimp only
  split_ifs
  any_goals omega
  · rfl
  · rw [Nat.mod_eq_of_lt (by omega : character.toNat / 64 < 32)]
  · rw [Nat.mod_eq_of_lt (by omega : character.toNat / 4096 < 16)]
  · rw [Nat.mod_eq_of_lt (by omega : character.toNat / 262144 < 8)]

/-- The first of three bytes leaves no room for overlong forms and surrogates, and a code point of
three bytes is neither. -/
theorem lead?_three (code : Nat) (least : 0x800 ≤ code) (greatest : code < 0x10000)
    (valid : code < 0xd800 ∨ 0xdfff < code) :
    ∃ low high, lead? (code / 4096 + 0xe0) = some (code / 4096, [(low, high), continuing]) ∧
      low ≤ code / 64 % 64 + 0x80 ∧ code / 64 % 64 + 0x80 ≤ high := by
  rw [lead?, if_neg (by omega), if_neg (by omega), if_neg (by omega), if_pos (by omega)]
  dsimp only
  rw [Nat.add_sub_cancel]
  split_ifs with overlong surrogate
  · exact ⟨_, _, rfl, by omega, by omega⟩
  · exact ⟨_, _, rfl, by omega, by omega⟩
  · exact ⟨_, _, rfl, by omega, by omega⟩

/-- The first of four bytes leaves no room for overlong forms and for what lies past the last code
point. -/
theorem lead?_four (code : Nat) (least : 0x10000 ≤ code) (greatest : code < 0x110000) :
    ∃ low high,
      lead? (code / 262144 + 0xf0) = some (code / 262144, [(low, high), continuing, continuing]) ∧
        low ≤ code / 4096 % 64 + 0x80 ∧ code / 4096 % 64 + 0x80 ≤ high := by
  rw [lead?, if_neg (by omega), if_neg (by omega), if_neg (by omega), if_neg (by omega),
    if_pos (by omega)]
  dsimp only
  rw [Nat.add_sub_cancel]
  split_ifs with overlong past
  · exact ⟨_, _, rfl, by omega, by omega⟩
  · exact ⟨_, _, rfl, by omega, by omega⟩
  · exact ⟨_, _, rfl, by omega, by omega⟩

/-- A character is read from its bytes, whatever follows them. -/
theorem piecesFrom_encodeChar (position : Nat) (character : Char) (rest : List UInt8) :
    ∃ next, piecesFrom position .between (String.utf8EncodeChar character ++ rest) =
      .character character :: piecesFrom next .between rest := by
  have valid : character.toNat < 0xd800 ∨ 0xdfff < character.toNat ∧ character.toNat < 0x110000 :=
    character.valid
  have same := Char.ofNat_toNat character
  have first {number : Nat} (small : number < 256) : (UInt8.ofNat number).toNat = number :=
    UInt8.toNat_ofNat_of_lt' small
  rw [utf8EncodeChar_eq]
  generalize character.toNat = code at valid same
  dsimp only
  split_ifs with one two three
  · have announced : lead? (UInt8.ofNat code).toNat = some (code, []) := by
      rw [first (by omega)]
      exact if_pos one
    exact ⟨_, by rw [List.cons_append, piecesFrom_single announced, same, List.nil_append]⟩
  · have announced : lead? (UInt8.ofNat (code / 64 + 0xc0)).toNat =
        some (code / 64, [continuing]) := by
      rw [first (by omega), lead?, if_neg (by omega), if_neg (by omega), if_pos (by omega),
        Nat.add_sub_cancel]
    have whole : code / 64 * 64 + code % 64 = code := by omega
    simp only [List.cons_append, List.nil_append]
    rw [piecesFrom_first announced, continuing, piecesFrom_last (by omega) (by omega) (by omega),
      whole, same]
    exact ⟨_, rfl⟩
  · obtain ⟨low, high, announced, least, greatest⟩ :=
      lead?_three code (by omega) three (by omega)
    rw [← first (by omega : code / 4096 + 0xe0 < 256)] at announced
    have whole : (code / 4096 * 64 + code / 64 % 64) * 64 + code % 64 = code := by omega
    simp only [List.cons_append, List.nil_append]
    rw [piecesFrom_first announced, piecesFrom_tail least greatest (by omega), continuing,
      piecesFrom_last (by omega) (by omega) (by omega), whole, same]
    exact ⟨_, rfl⟩
  · obtain ⟨low, high, announced, least, greatest⟩ :=
      lead?_four code (by omega) (by omega)
    rw [← first (by omega : code / 262144 + 0xf0 < 256)] at announced
    have whole : ((code / 262144 * 64 + code / 4096 % 64) * 64 + code / 64 % 64) * 64 + code % 64 =
        code := by omega
    simp only [List.cons_append, List.nil_append]
    rw [piecesFrom_first announced, piecesFrom_tail least greatest (by omega), continuing,
      piecesFrom_tail (by omega) (by omega) (by omega),
      piecesFrom_last (by omega) (by omega) (by omega), whole, same]
    exact ⟨_, rfl⟩

theorem pieces_encode (text : List Char) : pieces (encode text) = text.map .character := by
  have reads (position : Nat) :
      piecesFrom position .between (encode text) = text.map Piece.character := by
    induction text generalizing position with
    | nil => rfl
    | cons character rest inductionHypothesis =>
      obtain ⟨next, found⟩ := piecesFrom_encodeChar position character (encode rest)
      show piecesFrom position .between (String.utf8EncodeChar character ++ encode rest) = _
      rw [found, inductionHypothesis, List.map_cons]
  exact reads 0

/-- The bytes of a text are read back as the text. -/
theorem decodeLossy_encode (text : List Char) : decodeLossy (encode text) = text := by
  unfold decodeLossy
  rw [pieces_encode, List.map_map]
  exact List.map_id text

/-- The bytes of a text are well-formed. -/
theorem decode_encode (text : List Char) : decode (encode text) = .ok text := by
  unfold decode
  rw [pieces_encode]
  induction text with
  | nil => rfl
  | cons character rest inductionHypothesis =>
    rw [List.map_cons, List.mapM_cons, inductionHypothesis]
    rfl

end RedirectMonitor.Utf8
