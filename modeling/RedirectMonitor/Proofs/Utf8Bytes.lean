/-
This file says which bytes are read as a text: those that some text is written as, and no others.

The content is that the machine lets nothing else pass. Within a sequence it takes a byte only if it
lies in the range that is due, so what it has taken when a sequence ends carries the digits of a
code point to the base sixty-four. The ranges of a second byte leave out overlong forms, surrogates
and what lies past the last code point, and so the code point is a character whose bytes these are.
-/

import RedirectMonitor.Proofs.JsonProgress
import RedirectMonitor.Proofs.Utf8Text

namespace RedirectMonitor.Utf8

/-! ### Sequences -/

/-- What a first byte announces, by the number of bytes that follow it. -/
theorem lead?_some {byte value : Nat} {ranges : List (Nat × Nat)}
    (announced : lead? byte = some (value, ranges)) :
    (ranges = [] ∧ byte < 0x80 ∧ byte = value) ∨
    (ranges = [continuing] ∧ byte = value + 0xc0 ∧ 2 ≤ value ∧ value < 0x20) ∨
    (∃ low high, ranges = [(low, high), continuing] ∧ 0x80 ≤ low ∧ high ≤ 0xbf ∧
      byte = value + 0xe0 ∧ value < 0x10 ∧ (value = 0 → 0xa0 ≤ low) ∧
      (value = 0xd → high ≤ 0x9f)) ∨
    (∃ low high, ranges = [(low, high), continuing, continuing] ∧ 0x80 ≤ low ∧ high ≤ 0xbf ∧
      byte = value + 0xf0 ∧ value < 5 ∧ (value = 0 → 0x90 ≤ low) ∧
      (value = 4 → high ≤ 0x8f)) := by
  unfold lead? continuing at announced
  dsimp only at announced
  split_ifs at announced with one low two three overlong surrogate four overlong' past <;>
    obtain ⟨rfl, rfl⟩ := Prod.mk.inj (Option.some.inj announced)
  · exact .inl ⟨rfl, one, rfl⟩
  · exact .inr (.inl ⟨rfl, by omega, by omega, by omega⟩)
  all_goals first
    | exact .inr (.inr (.inl ⟨_, _, rfl, by omega, by omega, by omega, by omega, by omega,
        by omega⟩))
    | exact .inr (.inr (.inr ⟨_, _, rfl, by omega, by omega, by omega, by omega, by omega,
        by omega⟩))

/-- Where a byte is due and the bytes are well-formed, one within its range comes. -/
theorem exists_tail {position start value low high : Nat} {taken bytes : List UInt8}
    {later : List (Nat × Nat)} {text : List Char} (least : 0x80 ≤ low) (most : high ≤ 0xbf)
    (whole : piecesFrom position (.within start taken value (low, high) later) bytes =
      text.map .character) :
    ∃ bits rest, bits < 64 ∧ bytes = tail bits :: rest ∧ low ≤ bits + 0x80 ∧
      bits + 0x80 ≤ high := by
  cases bytes with
  | nil => cases text <;> cases whole
  | cons byte rest =>
    by_cases inside : low ≤ byte.toNat ∧ byte.toNat ≤ high
    · have same : tail (byte.toNat - 0x80) = byte := by
        rw [tail, Nat.sub_add_cancel (by omega), UInt8.ofNat_toNat]
      exact ⟨byte.toNat - 0x80, rest, by omega, by rw [same], by omega, by omega⟩
    · rw [piecesFrom, advance, if_neg inside] at whole
      cases text <;> cases whole

theorem utf8EncodeChar_one {character : Char} (small : character.toNat < 0x80) :
    String.utf8EncodeChar character = [.ofNat character.toNat] := by
  rw [utf8EncodeChar_eq]
  exact if_pos small

theorem utf8EncodeChar_two {character : Char} {lead bits : Nat} (six : bits < 64)
    (same : character.toNat = lead * 64 + bits) (least : 0x80 ≤ character.toNat)
    (small : character.toNat < 0x800) :
    String.utf8EncodeChar character = [.ofNat (lead + 0xc0), tail bits] := by
  have first : character.toNat / 64 = lead := by omega
  have last : character.toNat % 64 = bits := by omega
  rw [utf8EncodeChar_eq]
  dsimp only
  rw [if_neg (by omega), if_pos small, first, last]

theorem utf8EncodeChar_three {character : Char} {lead bits bits' : Nat} (six : bits < 64)
    (six' : bits' < 64) (same : character.toNat = (lead * 64 + bits) * 64 + bits')
    (least : 0x800 ≤ character.toNat) (small : character.toNat < 0x10000) :
    String.utf8EncodeChar character = [.ofNat (lead + 0xe0), tail bits, tail bits'] := by
  have first : character.toNat / 4096 = lead := by omega
  have second : character.toNat / 64 % 64 = bits := by omega
  have last : character.toNat % 64 = bits' := by omega
  rw [utf8EncodeChar_eq]
  dsimp only
  rw [if_neg (by omega), if_neg (by omega), if_pos small, first, second, last]

theorem utf8EncodeChar_four {character : Char} {lead bits bits' bits'' : Nat} (six : bits < 64)
    (six' : bits' < 64) (six'' : bits'' < 64)
    (same : character.toNat = ((lead * 64 + bits) * 64 + bits') * 64 + bits'')
    (least : 0x10000 ≤ character.toNat) :
    String.utf8EncodeChar character =
      [.ofNat (lead + 0xf0), tail bits, tail bits', tail bits''] := by
  have first : character.toNat / 262144 = lead := by omega
  have second : character.toNat / 4096 % 64 = bits := by omega
  have third : character.toNat / 64 % 64 = bits' := by omega
  have last : character.toNat % 64 = bits'' := by omega
  rw [utf8EncodeChar_eq]
  dsimp only
  rw [if_neg (by omega), if_neg (by omega), if_neg (by omega), first, second, third, last]

theorem exists_toNat_eq {code : Nat} (valid : code < 0xd800 ∨ 0xdfff < code ∧ code < 0x110000) :
    ∃ character : Char, character.toNat = code :=
  ⟨Char.ofNatAux code valid, rfl⟩

theorem ofNat_eq {byte : UInt8} {number : Nat} (same : byte.toNat = number) :
    UInt8.ofNat number = byte := by
  rw [← same, UInt8.ofNat_toNat]

/-- Well-formed bytes start with those of a character. -/
theorem exists_encodeChar {position : Nat} {byte : UInt8} {bytes : List UInt8} {text : List Char}
    (whole : piecesFrom position .between (byte :: bytes) = text.map .character) :
    ∃ character rest, byte :: bytes = String.utf8EncodeChar character ++ rest := by
  cases announced : lead? byte.toNat with
  | none =>
    rw [piecesFrom, advance, begin, announced] at whole
    cases text <;> cases whole
  | some found =>
    obtain ⟨lead, ranges⟩ := found
    -- One case for each number of bytes, and in each the bytes that are due come one by one.
    rcases lead?_some announced with ⟨rfl, small, number⟩ | ⟨rfl, number, least, small⟩ |
      ⟨low, high, rfl, least, most, number, small, overlong, surrogate⟩ |
      ⟨low, high, rfl, least, most, number, small, overlong, past⟩
    · obtain ⟨character, code⟩ : ∃ character : Char, character.toNat = lead :=
        exists_toNat_eq (by omega)
      rw [← code] at number
      refine ⟨character, bytes, ?_⟩
      rw [utf8EncodeChar_one (by omega), ofNat_eq number]
      rfl
    · rw [piecesFrom_first announced] at whole
      obtain ⟨bits, rest, six, rfl, -, -⟩ := exists_tail (le_refl _) (le_refl _) whole
      obtain ⟨character, code⟩ : ∃ character : Char, character.toNat = lead * 64 + bits :=
        exists_toNat_eq (by omega)
      refine ⟨character, rest, ?_⟩
      rw [utf8EncodeChar_two six code (by omega) (by omega), ofNat_eq number]
      rfl
    · rw [piecesFrom_first announced] at whole
      obtain ⟨bits, rest, six, rfl, low, high⟩ := exists_tail least most whole
      rw [piecesFrom_tail low high six] at whole
      obtain ⟨bits', rest, six', rfl, -, -⟩ := exists_tail (le_refl _) (le_refl _) whole
      obtain ⟨character, code⟩ :
          ∃ character : Char, character.toNat = (lead * 64 + bits) * 64 + bits' :=
        exists_toNat_eq (by omega)
      refine ⟨character, rest, ?_⟩
      rw [utf8EncodeChar_three six six' code (by omega) (by omega), ofNat_eq number]
      rfl
    · rw [piecesFrom_first announced] at whole
      obtain ⟨bits, rest, six, rfl, low, high⟩ := exists_tail least most whole
      rw [piecesFrom_tail low high six] at whole
      obtain ⟨bits', rest, six', rfl, low, high⟩ := exists_tail (le_refl _) (le_refl _) whole
      rw [continuing, piecesFrom_tail low high six'] at whole
      obtain ⟨bits'', rest, six'', rfl, -, -⟩ := exists_tail (le_refl _) (le_refl _) whole
      obtain ⟨character, code⟩ :
          ∃ character : Char, character.toNat = ((lead * 64 + bits) * 64 + bits') * 64 + bits'' :=
        exists_toNat_eq (by omega)
      refine ⟨character, rest, ?_⟩
      rw [utf8EncodeChar_four six six' six'' code (by omega), ofNat_eq number]
      rfl

/-! ### Texts -/

/-- Bytes in which nothing is ill-formed are those of their characters. -/
theorem encode_of_piecesFrom {position : Nat} {bytes : List UInt8} {text : List Char}
    (whole : piecesFrom position .between bytes = text.map .character) : encode text = bytes := by
  induction text generalizing position bytes with
  | nil =>
    cases bytes with
    | nil => rfl
    | cons byte bytes =>
      obtain ⟨character, rest, same⟩ := exists_encodeChar whole
      obtain ⟨next, found⟩ := piecesFrom_encodeChar position character rest
      rw [same, found] at whole
      cases whole
  | cons first text inductionHypothesis =>
    cases bytes with
    | nil => cases whole
    | cons byte bytes =>
      obtain ⟨character, rest, same⟩ := exists_encodeChar whole
      obtain ⟨next, found⟩ := piecesFrom_encodeChar position character rest
      rw [same, found] at whole
      obtain ⟨head, others⟩ := List.cons.inj whole
      rw [same, ← Piece.character.inj head]
      show _ ++ encode text = _
      rw [inductionHypothesis others]

/-- Strict decoding gives a text for the bytes of this text, and for no other bytes. -/
theorem decode_eq_ok_iff {bytes : List UInt8} {text : List Char} :
    decode bytes = .ok text ↔ encode text = bytes := by
  constructor
  · intro decoded
    have whole : pieces bytes = text.map .character := by
      unfold decode at decoded
      generalize pieces bytes = found at decoded ⊢
      induction found generalizing text with
      | nil =>
        obtain rfl := Except.ok.inj decoded
        rfl
      | cons piece found inductionHypothesis =>
        rw [List.mapM_cons] at decoded
        obtain ⟨character, first, decoded⟩ := bind_eq_ok_iff.mp decoded
        obtain ⟨rest, later, decoded⟩ := bind_eq_ok_iff.mp decoded
        obtain rfl := Except.ok.inj decoded
        cases piece with
        | illFormed part => cases first
        | character character' =>
          obtain rfl := Except.ok.inj first
          rw [inductionHypothesis later, List.map_cons]
    exact encode_of_piecesFrom whole
  · rintro rfl
    exact decode_encode text

/-- Strict decoding fails for the bytes of no text. -/
theorem decode_error_iff {bytes : List UInt8} :
    (∃ part, decode bytes = .error part) ↔ ¬∃ text, encode text = bytes := by
  cases decoded : decode bytes with
  | error part =>
    refine iff_of_true ⟨part, rfl⟩ fun ⟨text, same⟩ => ?_
    rw [decode_eq_ok_iff.mpr same] at decoded
    cases decoded
  | ok text =>
    refine iff_of_false ?_ fun none => none ⟨text, decode_eq_ok_iff.mp decoded⟩
    rintro ⟨part, ⟨⟩⟩

end RedirectMonitor.Utf8
