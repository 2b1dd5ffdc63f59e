/-
This file says that whole numbers survive being written and read as binary floating point numbers. A
whole number of less than 53 bits is a number of the format, without rounding.

The content is that its text is what one expects, its digits with a zero behind a point, and that
this text and the digits alone are both read back as the number. The text is found on decimal grids,
from coarse to fine. Near a whole number of this size only the number itself is a whole number that
rounds to it, so the first grid that has a point for it has the number, less some zeros at its end,
and the text puts them back.
-/

import RedirectMonitor.Proofs.CpuLists
import RedirectMonitor.Proofs.PrintedCounters
import RedirectMonitor.Proofs.RoundingError

namespace RedirectMonitor

namespace Binary64

open RedirectMonitor.Text

/-! ### Whole numbers of the format -/

section Scaling

variable {factor : Nat} (positive : 0 < factor) (numerator denominator : Nat)

include positive

theorem nearestEven_mul :
    nearestEven (factor * numerator) (factor * denominator) =
      nearestEven numerator denominator := by
  unfold nearestEven
  simp only [Nat.mul_div_mul_left _ _ positive, Nat.mul_mod_mul_left, Nat.mul_left_comm 2 factor,
    Nat.mul_lt_mul_left positive]

/-- A quotient is rounded the same whatever fraction it is given as. -/
theorem round_mul (negative : Bool) :
    round negative (factor * numerator) (factor * denominator) =
      round negative numerator denominator := by
  have bits : droppedBits (factor * numerator) (factor * denominator) =
      droppedBits numerator denominator := by
    rw [droppedBits, droppedBits, Nat.mul_div_mul_left _ _ positive]
  unfold round
  simp only [bits, Nat.mul_assoc, nearestEven_mul positive]

end Scaling

theorem ofInt?_natCast (number : Nat) :
    ofInt? (number : Int) = round false (number * unitsPerOne) 1 := by
  rw [ofInt?, decide_eq_false (by omega), Int.natAbs_natCast]

/-- A whole number of less than 53 bits is a number of the format, with its last place at or behind
the point. -/
theorem exists_ofInt?_exact {number : Nat} (short : number < 2 ^ 53) :
    ∃ significand shift, ofInt? (number : Int) = some (finite false significand shift) ∧
      significand * 2 ^ shift = number * unitsPerOne ∧ 2 ^ shift ≤ unitsPerOne := by
  obtain ⟨unitBits, same⟩ : ∃ unitBits, 1074 = unitBits := ⟨_, rfl⟩
  have unit : unitsPerOne = 2 ^ unitBits := unitsPerOne_eq same
  have exact : rounded (number * unitsPerOne) 1 = number * unitsPerOne := by
    simpa only [Nat.mul_one, unit] using rounded_exact unitBits short Nat.one_pos
  have below := div_lt_of_droppedBits (number * unitsPerOne) 1
  have few : droppedBits (number * unitsPerOne) 1 ≤ unitBits := by
    rcases Nat.eq_zero_or_pos (droppedBits (number * unitsPerOne) 1) with none | drops
    · omega
    · have apart := le_div_of_droppedBits_pos drops
      have size : number * unitsPerOne < 2 ^ (53 + unitBits) := by
        rw [Nat.pow_add, ← unit]
        exact Nat.mul_lt_mul_of_pos_right short unitsPerOne_pos
      rw [Nat.div_one] at apart
      have := (Nat.pow_lt_pow_iff_right (by decide)).mp (apart.trans_lt size)
      omega
  rw [ofInt?_natCast, round]
  rw [rounded] at exact
  rw [Nat.div_one] at below
  generalize droppedBits (number * unitsPerOne) 1 = shift at *
  have notCarried : nearestEven (number * unitsPerOne) (1 * Nat.pow 2 shift) ≠ Nat.pow 2 53 := by
    intro carried
    rw [carried, Nat.pow_eq, Nat.pow_eq, ← Nat.pow_add] at exact
    rw [← exact, Nat.add_comm] at below
    exact Nat.lt_irrefl _ below
  refine ⟨nearestEven (number * unitsPerOne) (1 * Nat.pow 2 shift), shift, ?_, exact,
    unit ▸ Nat.pow_le_pow_right (by decide) few⟩
  simp only [notCarried, if_false]
  exact if_pos (by omega)

end Binary64

namespace Text

open RedirectMonitor.Binary64

/-! ### Reading -/

theorem underscoresBetweenDigits_of_not_mem {text : List Char} (free : '_' ∉ text) (before : Bool) :
    underscoresBetweenDigits before text = true := by
  induction text generalizing before with
  | nil => rfl
  | cons character text inductionHypothesis =>
    have different : character ≠ '_' := fun same => free (same ▸ List.mem_cons_self)
    rw [underscoresBetweenDigits]
    · exact inductionHypothesis (fun member => free (List.mem_cons_of_mem _ member)) _
    · exact fun same => absurd same different

/-- The characters of a real without sign and exponent. -/
def IsPlain (text : List Char) : Prop :=
  ∀ character ∈ text, character.isDigit = true ∨ character = '.'

theorem IsPlain.not_mem {text : List Char} (plain : IsPlain text) {character : Char}
    (other : character.isDigit = false) (notPoint : character ≠ '.') : character ∉ text :=
  fun member => by
    rcases plain character member with digit | point
    · rw [other] at digit
      cases digit
    · exact notPoint point

theorem numeral_of_isPlain {text : List Char} (plain : IsPlain text) :
    trimWhere isAsciiBlank (text.map numeralCharacter) = text := by
  have same : ∀ character ∈ text,
      numeralCharacter character = character ∧ isAsciiBlank character = false := by
    intro character member
    rcases plain character member with digit | rfl
    · exact PossibleCpus.plain_of_isDigit digit
    · exact ⟨rfl, rfl⟩
  have ascii : text.map numeralCharacter = text :=
    (List.map_congr_left fun character member => (same character member).1).trans (List.map_id text)
  rw [ascii, trimWhere_eq_self fun character member => (same character member).2]

theorem toLower_of_isDigit {character : Char} (digit : character.isDigit = true) :
    character.toLower = character := by
  have bounds : 48 ≤ character.toNat ∧ character.toNat ≤ 57 := Char.isDigit_iff_toNat.mp digit
  refine Char.toLower_eq_of_not_isUpper fun upper => ?_
  simp only [Char.isUpper, UInt32.le_iff_toNat_le, decide_eq_true_eq] at upper
  have letter : 65 ≤ character.toNat := upper.1
  omega

/-- What has only digits and points in it is read as it stands, without a sign. -/
theorem readReal?_of_isPlain {text : List Char} (plain : IsPlain text) :
    readReal? text = readUnsignedReal? false text := by
  have joined : text.filter (· != '_') = text :=
    List.filter_eq_self.mpr fun character member => bne_iff_ne.mpr fun same =>
      plain.not_mem (by decide) (by decide) (same ▸ member)
  have unsigned : takeSign text = (false, text) := by
    unfold takeSign
    split
    · exact absurd List.mem_cons_self (plain.not_mem (by decide) (by decide))
    · exact absurd List.mem_cons_self (plain.not_mem (by decide) (by decide))
    · rfl
  have lower : text.map Char.toLower = text := by
    refine (List.map_congr_left fun character member => ?_).trans (List.map_id text)
    rcases plain character member with digit | rfl
    · exact toLower_of_isDigit digit
    · rfl
  have noWord (word : List Char) (letter : 'n' ∈ word) : text ≠ word := fun same =>
    plain.not_mem (by decide) (by decide) (same ▸ letter)
  rw [readReal?, numeral_of_isPlain plain]
  simp only [underscoresBetweenDigits_of_not_mem (plain.not_mem (by decide) (by decide)), joined,
    unsigned, lower]
  rw [if_neg, if_neg]
  · rfl
  · exact noWord _ (by decide)
  · exact not_or.mpr ⟨noWord _ (by decide), noWord _ (by decide)⟩

/-! ### Whole numbers in decimal -/

/-- To put zeros behind the digits of a positive number is to multiply it by ten as often. -/
theorem digits_append_zeros {number : Nat} (positive : 0 < number) (zeros : Nat) :
    digits number ++ List.replicate zeros '0' = digits (number * 10 ^ zeros) := by
  induction zeros with
  | zero => simp
  | succ zeros inductionHypothesis =>
    have scaled : 0 < number * 10 ^ zeros := Nat.mul_pos positive (Nat.pow_pos (by decide))
    have more : digits (number * 10 ^ zeros) ++ digits 0 =
        digits (10 * (number * 10 ^ zeros) + 0) :=
      Nat.toDigits_append_toDigits (by decide) scaled (by decide)
    rw [List.replicate_succ', ← List.append_assoc, inductionHypothesis, Nat.pow_succ,
      ← Nat.mul_assoc, Nat.mul_comm _ 10]
    exact more

theorem length_digits_le {number : Nat} (short : number < 2 ^ 53) : (digits number).length ≤ 16 :=
  (Nat.length_toDigits_le_iff (by decide) (by decide)).mpr (short.trans (by decide))

/-- A whole number with zeros behind the point is the number nearest to it. -/
theorem ofDecimal_zeros {number : Nat} (positive : 0 < number) (short : number < 2 ^ 53)
    (zeros : Nat) :
    some (Binary64.ofDecimal false (number * 10 ^ zeros) (-(zeros : Int))) =
      ofInt? (number : Int) := by
  have scaled : number * 10 ^ zeros ≠ 0 :=
    Nat.ne_of_gt (Nat.mul_pos positive (Nat.pow_pos (by decide)))
  have length : (Nat.toDigits 10 (number * 10 ^ zeros)).length =
      (digits number).length + zeros := by
    show (digits _).length = _
    rw [← digits_append_zeros positive, List.length_append, List.length_replicate]
  have few := length_digits_le short
  obtain ⟨significand, shift, exact, -⟩ := exists_ofInt?_exact short
  have same : round false (number * 10 ^ zeros * Nat.pow 10 (-(zeros : Int)).toNat * unitsPerOne)
      (Nat.pow 10 (-(-(zeros : Int))).toNat) = some (finite false significand shift) := by
    have places : (-(zeros : Int)).toNat = 0 ∧ (-(-(zeros : Int))).toNat = zeros := by omega
    have numerator : number * 10 ^ zeros * Nat.pow 10 0 * unitsPerOne =
        10 ^ zeros * (number * unitsPerOne) := by
      rw [Nat.pow_eq, Nat.pow_zero, Nat.mul_one, Nat.mul_right_comm, Nat.mul_comm]
    rw [places.1, places.2, numerator, ← Nat.mul_one (Nat.pow 10 zeros), Nat.pow_eq,
      round_mul (Nat.pow_pos (by decide)), ← ofInt?_natCast, exact]
  rw [Binary64.ofDecimal, if_neg scaled, exact, length, if_neg (by omega), if_neg (by omega)]
  simp only [same, Option.getD_some]

theorem isPlain_of_areDigits {digits : List Char} (digit : Json.AreDigits digits) :
    IsPlain digits := fun character member => .inl (digit.decimal character member)

/-- The digits of a whole number are read as the number. -/
theorem readReal?_digits {number : Nat} (positive : 0 < number) (short : number < 2 ^ 53) :
    readReal? (digits number) = ofInt? (number : Int) := by
  have digit := (Json.areWhole_digits number).toAreDigits
  have parts : leadingDigits (digits number) = ((digits number).map Json.digitValue, []) := by
    rw [← Json.leadingDigits_append digit.decimal rfl, List.append_nil]
  rw [readReal?_of_isPlain (isPlain_of_areDigits digit), readUnsignedReal?, parts,
    ← ofDecimal_zeros positive short 0]
  simp [guard, Json.map_digitValue_ne_nil digit, readExponent?, Json.valueOfDigits_map,
    Json.numberOf_digits]

/-- So are they with a zero behind a point. -/
theorem readReal?_digits_point {number : Nat} (positive : 0 < number) (short : number < 2 ^ 53) :
    readReal? (digits number ++ ['.', '0']) = ofInt? (number : Int) := by
  have digit := (Json.areWhole_digits number).toAreDigits
  have parts : leadingDigits (digits number ++ ['.', '0']) =
      ((digits number).map Json.digitValue, ['.', '0']) :=
    Json.leadingDigits_append digit.decimal rfl
  have plain : IsPlain (digits number ++ ['.', '0']) := by
    intro character member
    rcases List.mem_append.mp member with inside | behind
    · exact isPlain_of_areDigits digit character inside
    · simp only [List.mem_cons, List.not_mem_nil, or_false] at behind
      rcases behind with rfl | rfl
      · exact .inr rfl
      · exact .inl rfl
  have zero : leadingDigits ['0'] = ([0], []) := rfl
  have value : valueOfDigits 10 ((digits number).map Json.digitValue ++ [0]) = number * 10 := by
    rw [valueOfDigits, List.foldl_append, ← valueOfDigits, Json.valueOfDigits_map,
      Json.numberOf_digits]
    rfl
  rw [readReal?_of_isPlain plain, readUnsignedReal?, parts, ← ofDecimal_zeros positive short 1]
  simp [guard, Json.map_digitValue_ne_nil digit, readExponent?, zero, value]

end Text

namespace Binary64

open RedirectMonitor.Text

/-! ### Writing -/

/-- Whether a point of a decimal grid lies among the reals that round to a number. -/
def stands (significand shift : Nat) (exponent : Int) (digit : Nat) : Bool :=
  let scale := Nat.pow 10 (-exponent).toNat
  let point := 4 * digit * (unitsPerOne * Nat.pow 10 exponent.toNat)
  let value := 4 * (significand * Nat.pow 2 shift * scale)
  let above := 2 * Nat.pow 2 shift * scale
  let below := if significand = Nat.pow 2 52 ∧ 0 < shift then Nat.pow 2 shift * scale else above
  if significand % 2 = 0 then point ≤ value + above && value ≤ point + below
  else point < value + above && value < point + below

/-- A grid gives one of the two points beside the number, if it stands for the number, and the
number itself if it is a point of the grid. -/
theorem exists_gridPoint?_eq (significand shift : Nat) (exponent : Int) :
    ∃ nearer other,
      gridPoint? significand shift exponent =
        (if stands significand shift exponent nearer then some ⟨nearer, exponent⟩
          else if stands significand shift exponent other then some ⟨other, exponent⟩
          else none) ∧
      let numerator := significand * Nat.pow 2 shift * Nat.pow 10 (-exponent).toNat
      let denominator := unitsPerOne * Nat.pow 10 exponent.toNat
      0 < denominator → numerator % denominator = 0 → nearer = numerator / denominator := by
  refine ⟨_, _, rfl, fun positive whole => ?_⟩
  rw [whole, Nat.mul_zero, decide_eq_true positive, Bool.true_or, if_pos rfl]

/-- What is stripped from the end of a text are zeros. -/
theorem exists_stripZeros (text : List Char) :
    ∃ zeros, stripZeros text ++ List.replicate zeros '0' = text := by
  refine ⟨(text.reverse.takeWhile (· == '0')).length, ?_⟩
  have same : text.reverse.takeWhile (· == '0') =
      List.replicate (text.reverse.takeWhile (· == '0')).length '0' :=
    List.eq_replicate_iff.mpr ⟨rfl, fun _ member => by simpa using List.mem_takeWhile_imp member⟩
  rw [stripZeros, ← List.reverse_replicate, ← same, ← List.reverse_append,
    List.takeWhile_append_dropWhile, List.reverse_reverse]

/-- Digits with no place behind the point are filled up with zeros to the point. -/
theorem positionalOrScientific_whole {text : List Char} {places : Nat} (some : 0 < places)
    (few : places ≤ 16) (fits : text.length ≤ places) :
    positionalOrScientific text ((places : Int) - 1) =
      text ++ List.replicate (places - text.length) '0' ++ ['.', '0'] := by
  have inRange : -4 ≤ (places : Int) - 1 ∧ (places : Int) - 1 < 16 := by omega
  have notBehind : ¬(places : Int) - 1 < 0 := by omega
  have count : ((places : Int) - 1 + 1).toNat = places := by omega
  rw [positionalOrScientific, if_pos inRange, if_neg notBehind, count, List.take_of_length_le fits,
    List.drop_of_length_le fits]
  rfl

section Whole

variable {number significand shift : Nat}
  (exact : significand * 2 ^ shift = number * unitsPerOne) (fine : 2 ^ shift ≤ unitsPerOne)

include exact

section Fine

include fine

/-- On a grid of whole numbers only the number itself stands for a whole number of less than 53
bits. -/
theorem eq_of_stands (zeros digit : Nat) (stand : stands significand shift zeros digit = true) :
    digit * 10 ^ zeros = number := by
  have places : (-(zeros : Int)).toNat = 0 := by omega
  have near : 4 * digit * (unitsPerOne * 10 ^ zeros) ≤ 4 * (number * unitsPerOne) + 2 * 2 ^ shift ∧
      4 * (number * unitsPerOne) ≤ 4 * digit * (unitsPerOne * 10 ^ zeros) + 2 * 2 ^ shift := by
    simp only [stands, places, Int.toNat_natCast, Nat.pow_eq, Nat.pow_zero, Nat.mul_one,
      exact] at stand
    split at stand
    · simp only [Bool.and_eq_true, decide_eq_true_eq] at stand
      split at stand <;> omega
    · simp only [Bool.and_eq_true, decide_eq_true_eq] at stand
      split at stand <;> omega
  have value : 4 * digit * (unitsPerOne * 10 ^ zeros) = 4 * (digit * 10 ^ zeros * unitsPerOne) := by
    ring
  rw [value] at near
  have unit := unitsPerOne_pos
  -- The next whole number is a whole unit away, and the interval reaches half a unit at most.
  rcases Nat.lt_trichotomy (digit * 10 ^ zeros) number with less | same | more
  · have apart := Nat.mul_le_mul_right unitsPerOne less
    rw [Nat.succ_mul] at apart
    omega
  · exact same
  · have apart := Nat.mul_le_mul_right unitsPerOne more
    rw [Nat.succ_mul] at apart
    omega

theorem gridPoint?_whole (zeros : Nat) {point : GridPoint}
    (found : gridPoint? significand shift zeros = some point) :
    point.exponent = zeros ∧ point.digit * 10 ^ zeros = number := by
  obtain ⟨nearer, other, grid, -⟩ := exists_gridPoint?_eq significand shift zeros
  rw [grid] at found
  split at found
  · rename_i stand
    obtain rfl := Option.some.inj found
    exact ⟨rfl, eq_of_stands exact fine zeros nearer stand⟩
  · split at found
    · rename_i stand
      obtain rfl := Option.some.inj found
      exact ⟨rfl, eq_of_stands exact fine zeros other stand⟩
    · cases found

end Fine

/-- On the grid of all whole numbers it does so. -/
theorem gridPoint?_ones : gridPoint? significand shift 0 = some ⟨number, 0⟩ := by
  obtain ⟨nearer, other, grid, onGrid⟩ := exists_gridPoint?_eq significand shift 0
  have unit := unitsPerOne_pos
  have stand : stands significand shift 0 number = true := by
    have step : 0 < 2 ^ shift := Nat.two_pow_pos shift
    simp only [stands, Int.neg_zero, Int.toNat_zero, Nat.pow_eq, Nat.pow_zero, Nat.mul_one, exact,
      Nat.mul_assoc]
    split
    · simp
    · split <;> simp [step]
  have same : nearer = number := by
    simp only [Int.neg_zero, Int.toNat_zero, Nat.pow_eq, Nat.pow_zero, Nat.mul_one, exact,
      Nat.mul_mod_left, Nat.mul_div_cancel _ unit] at onGrid
    exact onGrid unit trivial
  rw [grid, same, if_pos stand]

/-- The text of a whole number is found on the first grid that has it, so that it lacks no more
than zeros at its end. -/
theorem shortestPoint_whole (fine : 2 ^ shift ≤ unitsPerOne) (positive : 0 < number)
    (short : number < 2 ^ 53) :
    ∃ zeros digit : Nat, shortestPoint significand shift = ⟨digit, zeros⟩ ∧
      digit * 10 ^ zeros = number := by
  have few := length_digits_le short
  have unit := unitsPerOne_pos
  have top : decimalExponent (significand * Nat.pow 2 shift) =
      ((digits number).length : Int) - 1 := by
    rw [Nat.pow_eq, exact, decimalExponent, if_pos (Nat.le_mul_of_pos_left _ positive),
      Nat.mul_div_cancel _ unit]
  obtain ⟨last, isLast⟩ : ∃ last, (digits number).length = last + 1 :=
    Nat.exists_eq_add_one.mpr (List.length_pos_iff.mpr Nat.toDigits_ne_nil)
  have grids : List.range 17 =
      List.range (last + 1) ++ (List.range (16 - last)).map (last + 1 + ·) := by
    rw [← List.range_add, show last + 1 + (16 - last) = 17 by omega]
  rw [shortestPoint, top, grids, List.findSome?_append]
  -- The grids are tried down to that of all whole numbers, and no further.
  cases found : (List.range (last + 1)).findSome? fun (finer : Nat) =>
      gridPoint? significand shift (((digits number).length : Int) - 1 - (finer : Int)) with
  | none =>
    have ones := List.findSome?_eq_none_iff.mp found last (List.mem_range.mpr (Nat.lt_succ_self _))
    have zero : ((digits number).length : Int) - 1 - (last : Int) = 0 := by omega
    rw [zero, gridPoint?_ones exact] at ones
    cases ones
  | some point =>
    obtain ⟨finer, member, here⟩ := List.exists_of_findSome?_eq_some found
    have coarse : finer ≤ last := Nat.le_of_lt_succ (List.mem_range.mp member)
    have zeros : ((digits number).length : Int) - 1 - (finer : Int) =
        ((last - finer : Nat) : Int) := by
      omega
    rw [zeros] at here
    obtain ⟨exponent, value⟩ := gridPoint?_whole exact fine (last - finer) here
    exact ⟨last - finer, point.digit, by rw [← exponent]; rfl, value⟩

/-- The text of a whole number is its digits and a zero behind a point. -/
theorem shortest_whole (fine : 2 ^ shift ≤ unitsPerOne) (positive : 0 < number)
    (short : number < 2 ^ 53) :
    (finite false significand shift).shortest = digits number ++ ['.', '0'] := by
  have few := length_digits_le short
  have significant : significand ≠ 0 := by
    rintro rfl
    have := Nat.mul_pos positive unitsPerOne_pos
    omega
  obtain ⟨zeros, digit, isPoint, value⟩ := shortestPoint_whole exact fine positive short
  have counts : 0 < digit := by
    rcases Nat.eq_zero_or_pos digit with rfl | counts
    · omega
    · exact counts
  obtain ⟨cut, strip⟩ := exists_stripZeros (digits digit)
  have whole : stripZeros (digits digit) ++ List.replicate (cut + zeros) '0' = digits number := by
    rw [List.replicate_add, ← List.append_assoc, strip, digits_append_zeros counts, value]
  have length : (digits digit).length + zeros = (digits number).length := by
    rw [← value, ← digits_append_zeros counts, List.length_append, List.length_replicate]
  have length' : (stripZeros (digits digit)).length + (cut + zeros) = (digits number).length := by
    rw [← whole, List.length_append, List.length_replicate]
  have nonempty : 0 < (digits digit).length := List.length_pos_iff.mpr Nat.toDigits_ne_nil
  have place : (zeros : Int) + (digits digit).length - 1 = ((digits number).length : Int) - 1 := by
    omega
  have fill : (digits number).length - (stripZeros (digits digit)).length = cut + zeros := by omega
  rw [shortest, if_neg significant, isPoint]
  show [] ++ positionalOrScientific (stripZeros (digits digit))
    ((zeros : Int) + (digits digit).length - 1) = _
  rw [place, positionalOrScientific_whole (by omega) few (by omega), fill, whole]
  rfl

end Whole

end Binary64

end RedirectMonitor
