/-
This file says that the reader of JSON reads every text of a value without parts as that value,
with any text behind it that does not go on with it.

The content is that each token shows its end: a text ends at its closing quote, since a quote
within it is an escape, and the digits of a number end where no digit follows. Halves of a
surrogate pair are read one by one and joined afterwards; no character is itself the first half of
a pair, so that nothing else is joined.
-/

import RedirectMonitor.Proofs.JsonProgress
import RedirectMonitor.Proofs.JsonText

namespace RedirectMonitor.Json

open RedirectMonitor.Text

/-! ### Blanks -/

theorem isJsonBlank_iff (character : Char) :
    isJsonBlank character = true ↔ character ∈ [' ', '\t', '\n', '\r'] := by
  simp [isJsonBlank, or_assoc]

theorem skipBlanks_append {blanks : List Char} (blank : Blanks blanks) (text : List Char) :
    skipBlanks (blanks ++ text) = skipBlanks text :=
  List.dropWhile_append_of_pos fun character member =>
    (isJsonBlank_iff character).mpr (blank character member)

theorem skipBlanks_blanks {blanks : List Char} (blank : Blanks blanks) :
    skipBlanks blanks = [] := by
  rw [← List.append_nil blanks, skipBlanks_append blank]
  rfl

theorem skipBlanks_cons {first : Char} (solid : isJsonBlank first = false) (rest : List Char) :
    skipBlanks (first :: rest) = first :: rest :=
  List.dropWhile_cons_of_neg (by simp [solid])

/-! ### Texts -/

theorem digitOfBase?_hexadecimal : ∀ value < 16, ∀ digit ∈ hexadecimalDigits value,
    digitOfBase? 16 digit = some value := by
  have checked : ∀ value < 16,
      (hexadecimalDigits value).all (digitOfBase? 16 · = some value) = true := by
    decide
  exact fun value small digit member =>
    of_decide_eq_true (List.all_eq_true.mp (checked value small) digit member)

theorem hexQuad?_of_spelled {code : Nat} {first second third fourth : Char}
    (spelled : SpelledQuad code [first, second, third, fourth]) :
    hexQuad? first second third fourth = some code := by
  obtain ⟨small, one, two, three, four⟩ := spelled
  unfold hexQuad?
  rw [digitOfBase?_hexadecimal _ (by omega) _ one, digitOfBase?_hexadecimal _ (by omega) _ two,
    digitOfBase?_hexadecimal _ (by omega) _ three, digitOfBase?_hexadecimal _ (by omega) _ four]
  have whole : ((code / 0x1000 * 16 + code / 0x100 % 0x10) * 16 + code / 0x10 % 0x10) * 16 +
      code % 0x10 = code := by omega
  simpa using whole

/-- An escape of four digits is read as its code, given that a character follows it. -/
theorem readCodes_quad {code : Nat} {digits : List Char} (spelled : SpelledQuad code digits)
    {text : List Char} (more : text ≠ []) :
    readCodes ('\\' :: 'u' :: digits ++ text) = prepend code (readCodes text) := by
  obtain ⟨next, rest, rfl⟩ := List.exists_cons_of_ne_nil more
  cases spelled with
  | mk small one two three four =>
    have quad := hexQuad?_of_spelled ⟨small, one, two, three, four⟩
    simp only [List.cons_append, List.nil_append]
    rw [readCodes, quad]

theorem readCodes_letter : ∀ escape ∈ letterEscapes, ∀ text,
    readCodes ('\\' :: escape.1 :: text) = prepend escape.2.toNat (readCodes text) := by
  simp only [letterEscapes, List.forall_mem_cons, List.not_mem_nil, false_implies, implies_true,
    and_true]
  refine ⟨?_, ?_, ?_, ?_, ?_, ?_, ?_, ?_⟩ <;> intro text <;> rfl

theorem readCodes_plain {character : Char} (printable : 0x20 ≤ character.toNat)
    (quote : character ≠ '\x22') (slash : character ≠ '\\') (text : List Char) :
    readCodes (character :: text) = prepend character.toNat (readCodes text) := by
  rw [readCodes.eq_def]
  split
  all_goals simp_all
  omega

theorem not_isHighSurrogate (character : Char) : isHighSurrogate character.toNat = false := by
  have valid : character.toNat < 0xd800 ∨ 0xdfff < character.toNat ∧ character.toNat < 0x110000 :=
    character.valid
  simp only [isHighSurrogate, Bool.and_eq_false_iff, decide_eq_false_iff_not]
  omega

theorem joinPairs_cons (character : Char) (codes : CodePoints) :
    joinPairs (character.toNat :: codes) = character.toNat :: joinPairs codes := by
  cases codes with
  | nil => rfl
  | cons next rest => simp [joinPairs, not_isHighSurrogate]

theorem joinPairs_pair {code : Nat} (large : 0x10000 ≤ code) (small : code < 0x110000)
    (codes : CodePoints) :
    joinPairs
        ((0xd800 + (code - 0x10000) / 0x400) :: (0xdc00 + (code - 0x10000) % 0x400) :: codes) =
      code :: joinPairs codes := by
  have high : isHighSurrogate (0xd800 + (code - 0x10000) / 0x400) = true := by
    simp only [isHighSurrogate, Bool.and_eq_true, decide_eq_true_eq]
    omega
  have low : isLowSurrogate (0xdc00 + (code - 0x10000) % 0x400) = true := by
    simp only [isLowSurrogate, Bool.and_eq_true, decide_eq_true_eq]
    omega
  have joined : joinSurrogates (0xd800 + (code - 0x10000) / 0x400)
      (0xdc00 + (code - 0x10000) % 0x400) = code := by
    unfold joinSurrogates
    omega
  rw [joinPairs, high, low, joined]
  rfl

/-- A character is read as its code, or as two halves that are joined to it. -/
theorem readCodes_character {character : Char} {written : List Char}
    (spelled : SpelledCharacter character written) {text : List Char} (more : text ≠ [])
    {codes : CodePoints} {after : List Char} (read : readCodes text = .ok (codes, after)) :
    ∃ halves, readCodes (written ++ text) = .ok (halves, after) ∧
      joinPairs halves = character.toNat :: joinPairs codes := by
  cases spelled with
  | plain printable quote slash =>
    refine ⟨character.toNat :: codes, ?_, joinPairs_cons character codes⟩
    rw [List.singleton_append, readCodes_plain printable quote slash, read]
    rfl
  | letter known =>
    refine ⟨character.toNat :: codes, ?_, joinPairs_cons character codes⟩
    have found := readCodes_letter _ known text
    rw [read] at found
    exact found
  | quad four =>
    refine ⟨character.toNat :: codes, ?_, joinPairs_cons character codes⟩
    rw [readCodes_quad four more, read]
    rfl
  | pair large first second =>
    have valid : character.toNat < 0xd800 ∨ 0xdfff < character.toNat ∧ character.toNat < 0x110000 :=
      character.valid
    refine ⟨_, ?_, joinPairs_pair large (by omega) codes⟩
    rw [List.append_assoc, readCodes_quad first (by simp), readCodes_quad second more, read]
    rfl

/-- A text is read up to its closing quote. -/
theorem readText_of_spelled {content written : List Char} (spelled : SpelledText content written)
    (opening after : List Char) :
    readText opening (written ++ '\x22' :: after) = .ok (codePoints content, after) := by
  have read : ∃ codes, readCodes (written ++ '\x22' :: after) = .ok (codes, after) ∧
      joinPairs codes = codePoints content := by
    induction spelled with
    | nil => exact ⟨[], rfl, rfl⟩
    | cons first later inductionHypothesis =>
      obtain ⟨codes, read, joined⟩ := inductionHypothesis
      obtain ⟨halves, read', joined'⟩ := readCodes_character first (by simp) read
      rw [List.append_assoc]
      exact ⟨halves, read', by rw [joined', joined]; rfl⟩
  obtain ⟨codes, found, joined⟩ := read
  unfold readText
  rw [found]
  exact congrArg (fun codes => Except.ok (codes, after)) joined

/-! ### Numbers -/

/-- What may follow a number without changing it: the end, a blank, or the token after a value. -/
def Ends (rest : List Char) : Prop :=
  ∀ character ∈ rest.head?, character ∈ [' ', '\t', '\n', '\r', ',', ']', '\x7d']

/-- The value of a decimal digit. -/
def digitValue (digit : Char) : Nat := digit.toNat - '0'.toNat

theorem digitOfBase?_digit {digit : Char} (decimal : digit.isDigit = true) :
    digitOfBase? 10 digit = some (digitValue digit) := by
  obtain ⟨least, greatest⟩ : 48 ≤ digit.toNat ∧ digit.toNat ≤ 57 :=
    Char.isDigit_iff_toNat.mp decimal
  have zero : '0'.toNat = 48 := rfl
  have small : digit.toNat - 48 < 10 := by omega
  simp [digitOfBase?, digitValue, zero, least, greatest, small]

theorem leadingDigits_append {digits : List Char} (decimal : ∀ digit ∈ digits, digit.isDigit = true)
    {rest : List Char} (ended : startsWithDigit rest = false) :
    leadingDigits (digits ++ rest) = (digits.map digitValue, rest) := by
  induction digits with
  | nil =>
    cases rest with
    | nil => rfl
    | cons character rest =>
      have none : digitOfBase? 10 character = none := by
        rw [← Option.isNone_iff_eq_none, ← Option.not_isSome, isSome_digitOfBase?_ten]
        simpa [startsWithDigit] using ended
      rw [List.nil_append, leadingDigits, none]
      rfl
  | cons digit digits inductionHypothesis =>
    rw [List.cons_append, leadingDigits,
      digitOfBase?_digit (decimal digit List.mem_cons_self),
      inductionHypothesis fun other member => decimal other (List.mem_cons_of_mem _ member)]
    rfl

theorem valueOfDigits_map (digits : List Char) :
    valueOfDigits 10 (digits.map digitValue) = numberOf digits := by
  unfold valueOfDigits numberOf Nat.ofDigitChars
  rw [List.foldl_map]
  simp only [digitValue, Nat.mul_comm]

theorem Ends.plain {rest : List Char} (ended : Ends rest) :
    startsWithDigit rest = false ∧ startsWithFraction rest = false ∧
      startsWithExponent rest = false := by
  cases rest with
  | nil => exact ⟨rfl, rfl, rfl⟩
  | cons character rest =>
    have known := ended character rfl
    simp only [List.mem_cons, List.not_mem_nil, or_false] at known
    rcases known with rfl | rfl | rfl | rfl | rfl | rfl | rfl <;> exact ⟨rfl, rfl, rfl⟩

theorem takeMinus_append (negative : Bool) {digits : List Char} (digit : AreDigits digits)
    (more : List Char) :
    takeMinus (minus negative ++ (digits ++ more)) = (negative, digits ++ more) := by
  obtain ⟨first, others, rfl⟩ := List.exists_cons_of_ne_nil digit.nonempty
  have decimal := digit.decimal first List.mem_cons_self
  cases negative with
  | true => rfl
  | false =>
    show takeMinus (first :: (others ++ more)) = (false, first :: (others ++ more))
    unfold takeMinus
    split
    · rename_i same
      rw [(List.cons.inj same).1] at decimal
      cases decimal
    · rfl

theorem integerPart_append {digits : List Char} (whole : AreWhole digits) {more : List Char}
    (ended : startsWithDigit more = false) :
    integerPart (digits ++ more) = (digits.map digitValue, more) := by
  unfold integerPart
  split
  · rename_i rest same
    obtain ⟨first, others, rfl⟩ := List.exists_cons_of_ne_nil whole.nonempty
    obtain ⟨rfl, rfl⟩ := List.cons.inj same
    rw [whole.leading rfl]
    obtain rfl := (List.cons.inj (whole.leading rfl)).2
    rfl
  · exact leadingDigits_append whole.decimal ended

theorem map_digitValue_ne_nil {digits : List Char} (digit : AreDigits digits) :
    digits.map digitValue ≠ [] := by
  simpa using digit.nonempty

theorem fractionPart_append {digits : List Char} (digit : AreDigits digits) {more : List Char}
    (ended : startsWithDigit more = false) :
    fractionPart ('.' :: digits ++ more) = some (digits.map digitValue, more) := by
  simp only [List.cons_append, fractionPart]
  rw [leadingDigits_append digit.decimal ended]
  split
  · rename_i none
    exact absurd (Prod.mk.inj none).1 (map_digitValue_ne_nil digit)
  · rename_i same
    rw [same]

theorem takeSign_append {negative : Bool} {sign digits : List Char}
    (known : (negative, sign) ∈ exponentSigns) (digit : AreDigits digits) (rest : List Char) :
    takeSign (sign ++ (digits ++ rest)) = (negative, digits ++ rest) := by
  obtain ⟨first, others, rfl⟩ := List.exists_cons_of_ne_nil digit.nonempty
  have decimal := digit.decimal first List.mem_cons_self
  simp only [exponentSigns, List.mem_cons, Prod.mk.injEq, List.not_mem_nil, or_false] at known
  rcases known with ⟨rfl, rfl⟩ | ⟨rfl, rfl⟩ | ⟨rfl, rfl⟩
  · show takeSign (first :: (others ++ rest)) = (false, first :: (others ++ rest))
    unfold takeSign
    split
    · rename_i same
      rw [(List.cons.inj same).1] at decimal
      cases decimal
    · rename_i same
      rw [(List.cons.inj same).1] at decimal
      cases decimal
    · rfl
  · rfl
  · rfl

/-- An exponent is read with any text behind it that does not go on with it; where there is none,
nothing is read. -/
theorem exponentPart_append {exponent : Int} {mark rest : List Char}
    (scaled : SpelledExponent exponent mark) (ended : Ends rest) :
    (mark = [] ∧ exponent = 0 ∧ exponentPart (mark ++ rest) = none) ∨
      exponentPart (mark ++ rest) = some (exponent, rest) := by
  cases scaled with
  | none => exact .inl ⟨rfl, rfl, (exponentPart_eq_none_iff rest).mpr ended.plain.2.2⟩
  | @some letter negative sign digits known signed digit =>
    right
    have e : (letter == 'e' || letter == 'E') = true := by simpa using known
    rw [List.cons_append, List.cons_append, List.append_assoc, exponentPart, if_pos e,
      takeSign_append signed digit rest]
    dsimp only
    rw [leadingDigits_append digit.decimal ended.plain.1]
    split
    · rename_i none
      exact absurd (Prod.mk.inj none).1 (map_digitValue_ne_nil digit)
    · rename_i same
      obtain ⟨rfl, rfl⟩ := Prod.mk.inj same
      rw [valueOfDigits_map]

/-- No digit and no point stands where an exponent may. -/
theorem SpelledExponent.plain {exponent : Int} {mark rest : List Char}
    (scaled : SpelledExponent exponent mark) (ended : Ends rest) :
    startsWithDigit (mark ++ rest) = false ∧ startsWithFraction (mark ++ rest) = false := by
  cases scaled with
  | none => exact ⟨ended.plain.1, ended.plain.2.1⟩
  | some known signed digit =>
    simp only [List.mem_cons, List.not_mem_nil, or_false] at known
    rcases known with rfl | rfl <;> exact ⟨rfl, rfl⟩

/-- No digit stands where a fraction or an exponent may. -/
theorem SpelledFraction.plain {fraction point more : List Char}
    (fractional : SpelledFraction fraction point) (noDigit : startsWithDigit more = false) :
    startsWithDigit (point ++ more) = false := by
  cases fractional with
  | none => exact noDigit
  | some digit => rfl

theorem readNumber_integer (negative : Bool) {digits rest : List Char} (whole : AreWhole digits)
    (short : digits.length ≤ decimalDigitLimit) (ended : Ends rest) :
    readNumber (minus negative ++ (digits ++ rest)) =
      .ok (.integer (signed negative (numberOf digits)), rest) := by
  obtain ⟨noDigit, noFraction, noExponent⟩ := ended.plain
  unfold readNumber
  rw [takeMinus_append negative whole.toAreDigits]
  dsimp only
  rw [integerPart_append whole noDigit]
  split
  · rename_i none
    exact absurd (Prod.mk.inj none).1 (map_digitValue_ne_nil whole.toAreDigits)
  · rename_i same
    obtain ⟨rfl, rfl⟩ := Prod.mk.inj same
    rw [(fractionPart_eq_none_iff rest).mpr noFraction,
      (exponentPart_eq_none_iff rest).mpr noExponent, valueOfDigits_map, List.length_map,
      if_neg (Nat.not_lt.mpr short)]

theorem readNumber_real (negative : Bool) {digits fraction point mark rest : List Char}
    {exponent : Int} (whole : AreWhole digits) (fractional : SpelledFraction fraction point)
    (scaled : SpelledExponent exponent mark) (inexact : point ≠ [] ∨ mark ≠ [])
    (ended : Ends rest) :
    readNumber (minus negative ++ (digits ++ (point ++ (mark ++ rest)))) =
      .ok (.real (.ofDecimal negative (numberOf (digits ++ fraction))
        (exponent - fraction.length)), rest) := by
  obtain ⟨noDigit, noFraction⟩ := scaled.plain ended
  unfold readNumber
  rw [takeMinus_append negative whole.toAreDigits]
  dsimp only
  rw [integerPart_append whole (fractional.plain noDigit)]
  split
  · rename_i none
    exact absurd (Prod.mk.inj none).1 (map_digitValue_ne_nil whole.toAreDigits)
  · rename_i same
    obtain ⟨rfl, rfl⟩ := Prod.mk.inj same
    cases fractional with
    | none =>
      rcases exponentPart_append scaled ended with ⟨rfl, -, -⟩ | read
      · simp at inexact
      · rw [List.nil_append, (fractionPart_eq_none_iff _).mpr noFraction, read, valueOfDigits_map]
        simp
    | some digit =>
      rw [fractionPart_append digit noDigit]
      dsimp only
      rw [← List.map_append, valueOfDigits_map, List.length_map]
      rcases exponentPart_append scaled ended with ⟨rfl, rfl, none⟩ | read
      · rw [none]
        rfl
      · rw [read]
        rfl

/-! ### Values without parts -/

/-- Where a number starts, no word and no text does. -/
theorem readScalar_number {text : List Char}
    (starts : (integerPart (takeMinus text).2).1 ≠ []) : readScalar text = readNumber text := by
  have noWord {word : String} (known : word ∈ words) : dropWord? word text = none := by
    cases found : dropWord? word text with
    | none => rfl
    | some rest => exact absurd (integerPart_of_dropWord? known found) starts
  unfold readScalar
  split
  · exact absurd rfl starts
  · rw [noWord (by decide), noWord (by decide), noWord (by decide), noWord (by decide),
      noWord (by decide), noWord (by decide)]

theorem readScalar_of_spelled {value : Json} {text : List Char} (spelled : SpelledScalar value text)
    {rest : List Char} (ended : Ends rest) : readScalar (text ++ rest) = .ok (value, rest) := by
  cases spelled with
  | null => rfl
  | true => rfl
  | false => rfl
  | text spelled =>
    rw [List.cons_append, List.cons_append, List.append_assoc, readScalar, List.singleton_append,
      readText_of_spelled spelled]
    rfl
  | @integer negative digits whole short =>
    have starts : (integerPart (takeMinus (minus negative ++ (digits ++ rest))).2).1 ≠ [] := by
      rw [takeMinus_append negative whole.toAreDigits, integerPart_append whole ended.plain.1]
      exact map_digitValue_ne_nil whole.toAreDigits
    rw [List.append_assoc, readScalar_number starts, readNumber_integer negative whole short ended]
  | @real negative digits fraction point mark exponent whole fractional scaled inexact =>
    have plain := fractional.plain (scaled.plain ended).1
    have starts : (integerPart
        (takeMinus (minus negative ++ (digits ++ (point ++ (mark ++ rest))))).2).1 ≠ [] := by
      rw [takeMinus_append negative whole.toAreDigits, integerPart_append whole plain]
      exact map_digitValue_ne_nil whole.toAreDigits
    simp only [List.append_assoc]
    rw [readScalar_number starts,
      readNumber_real negative whole fractional scaled inexact ended]

end RedirectMonitor.Json
