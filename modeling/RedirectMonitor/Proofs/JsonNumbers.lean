/-
This file says what the reader of numbers comes to. A text that starts with no digit is a flaw, an
integer of more digits than there may be is refused, and anything else is read and leaves less text
than it was given.

The content is that only integers are refused for their length: a minus, digits that do not start
with zero, and after them no digit, no fraction and no exponent. A fraction or an exponent makes a
floating point number of digits as many as there are.
-/

import Mathlib.Data.List.TakeWhile
import RedirectMonitor.Json.Reader

namespace RedirectMonitor.Json

open RedirectMonitor.Text

/-! ### Parts of a number -/

theorem length_leadingDigits (text : List Char) :
    (leadingDigits text).1.length + (leadingDigits text).2.length = text.length := by
  induction text with
  | nil => rfl
  | cons character rest inductionHypothesis =>
    unfold leadingDigits
    split
    · simp only [List.length_cons]
      omega
    · simp

theorem length_integerPart (text : List Char) :
    (integerPart text).1.length + (integerPart text).2.length = text.length := by
  unfold integerPart
  split
  · simp only [List.length_cons, List.length_nil]
    omega
  · exact length_leadingDigits text

theorem fractionPart_shorter {text rest : List Char} {values : List Nat}
    (found : fractionPart text = some (values, rest)) : rest.length < text.length := by
  unfold fractionPart at found
  split at found
  · rename_i digits
    have split := length_leadingDigits digits
    split at found
    · cases found
    · rename_i digitValues after same
      obtain ⟨rfl, rfl⟩ := Prod.mk.inj (Option.some.inj found)
      rw [same] at split
      simp only [List.length_cons] at split ⊢
      omega
  · cases found

theorem length_takeSign_le (text : List Char) : (takeSign text).2.length ≤ text.length := by
  unfold takeSign
  split <;> simp

theorem exponentPart_shorter {text rest : List Char} {exponent : Int}
    (found : exponentPart text = some (exponent, rest)) : rest.length < text.length := by
  unfold exponentPart at found
  split at found
  · rename_i mark after
    split at found
    · have signed := length_takeSign_le after
      have split := length_leadingDigits (takeSign after).2
      dsimp only at found
      split at found
      · cases found
      · rename_i values left same
        obtain ⟨rfl, rfl⟩ := Prod.mk.inj (Option.some.inj found)
        rw [same] at split
        simp only [List.length_cons] at split ⊢
        omega
    · cases found
  · cases found

theorem length_takeMinus_le (text : List Char) : (takeMinus text).2.length ≤ text.length := by
  unfold takeMinus
  split <;> simp

/-- The integer part of a number is too long if neither a fraction nor an exponent follows. -/
def IsLong (digits : List Char) : Prop :=
  decimalDigitLimit < (integerPart digits).1.length ∧
    fractionPart (integerPart digits).2 = none ∧ exponentPart (integerPart digits).2 = none

/-- What reading a number comes to: no digit is a flaw, an integer part too long is an integer of
too many digits, and anything else is a number. -/
theorem readNumber_cases (text : List Char) :
    (readNumber text = .error (.flawed .value text.length) ∧
        (integerPart (takeMinus text).2).1 = []) ∨
      (readNumber text = .error (.tooManyDigits (integerPart (takeMinus text).2).1.length) ∧
        IsLong (takeMinus text).2) ∨
      ∃ value rest, readNumber text = .ok (value, rest) ∧ rest.length < text.length ∧
        ¬ IsLong (takeMinus text).2 := by
  have shorter := length_takeMinus_le text
  unfold readNumber IsLong
  rcases minus : takeMinus text with ⟨negative, body⟩
  rw [minus] at shorter
  have split := length_integerPart body
  rcases parts : integerPart body with ⟨whole, rest⟩
  rw [parts] at split
  cases whole with
  | nil => exact .inl (by simp [parts])
  | cons digit digits =>
    simp only [parts, List.length_cons] at split shorter ⊢
    refine .inr ?_
    cases fraction : fractionPart rest with
    | some found =>
      obtain ⟨values, after⟩ := found
      have shorter' := fractionPart_shorter fraction
      refine .inr ⟨_, _, rfl, ?_, fun isLong => by cases isLong.2.1⟩
      cases exponent : exponentPart after with
      | none =>
        show after.length < text.length
        omega
      | some found =>
        obtain ⟨power, left⟩ := found
        have shorter'' := exponentPart_shorter exponent
        show left.length < text.length
        omega
    | none =>
      cases exponent : exponentPart rest with
      | some found =>
        obtain ⟨power, left⟩ := found
        have shorter' := exponentPart_shorter exponent
        refine .inr ⟨_, _, rfl, ?_, fun isLong => by cases isLong.2.2⟩
        omega
      | none =>
        by_cases long : decimalDigitLimit < digits.length + 1
        · exact .inl ⟨if_pos long, long, rfl, rfl⟩
        · refine .inr ⟨_, _, if_neg long, ?_, fun isLong => long isLong.1⟩
          omega

/-! ### Integers of too many digits -/

/-- Whether a text starts with a digit. -/
def startsWithDigit (text : List Char) : Bool := text.head?.any Char.isDigit

/-- Whether a text starts with a point and a digit. -/
def startsWithFraction : List Char → Bool
  | '.' :: rest => startsWithDigit rest
  | _ => false

/-- Whether a text starts with the letter of an exponent, perhaps a sign, and a digit. -/
def startsWithExponent : List Char → Bool
  | mark :: rest => (mark == 'e' || mark == 'E') && startsWithDigit (takeSign rest).2
  | [] => false

/-- An integer of so many digits, more than there may be, stands at the start of a text: perhaps a
minus, digits of which the first is not zero, and after them no digit, fraction or exponent. -/
inductive LongInteger : (count : Nat) → List Char → Prop
  | mk (sign digits rest : List Char) (signed : sign = [] ∨ sign = ['-'])
      (decimal : ∀ digit ∈ digits, digit.isDigit = true) (leading : digits.head? ≠ some '0')
      (long : decimalDigitLimit < digits.length) (ended : startsWithDigit rest = false)
      (whole : startsWithFraction rest = false) (plain : startsWithExponent rest = false) :
      LongInteger digits.length (sign ++ digits ++ rest)

theorem isSome_digitOfBase?_ten (character : Char) :
    (digitOfBase? 10 character).isSome = character.isDigit := by
  simp only [digitOfBase?, Char.isDigit, Char.toNat, ge_iff_le, UInt32.le_iff_toNat_le]
  have zero : '0'.val.toNat = 48 := rfl
  have nine : '9'.val.toNat = 57 := rfl
  rw [zero, nine]
  generalize character.val.toNat = code
  by_cases digit : 48 ≤ code ∧ code ≤ 57
  · have value : code - 48 < 10 := by omega
    simp [digit, value]
  · have letter : ¬ (if 97 ≤ code ∧ code ≤ 122 then code - 97 + 10
        else if 65 ≤ code ∧ code ≤ 90 then code - 65 + 10 else 10) < 10 := by
      split
      · omega
      · split <;> omega
    rw [if_neg digit, if_neg letter]
    simpa using digit

theorem leadingDigits_eq (text : List Char) :
    (leadingDigits text).1.length = (text.takeWhile Char.isDigit).length ∧
      (leadingDigits text).2 = text.dropWhile Char.isDigit := by
  induction text with
  | nil => exact ⟨rfl, rfl⟩
  | cons character rest inductionHypothesis =>
    have same := isSome_digitOfBase?_ten character
    unfold leadingDigits
    cases found : digitOfBase? 10 character with
    | none =>
      rw [found] at same
      simp [← same]
    | some value =>
      rw [found] at same
      simp [← same, inductionHypothesis.1, inductionHypothesis.2]

theorem leadingDigits_eq_nil_iff (text : List Char) :
    (leadingDigits text).1 = [] ↔ startsWithDigit text = false := by
  rw [← List.length_eq_zero_iff, (leadingDigits_eq text).1, List.length_eq_zero_iff]
  cases text with
  | nil => simp [startsWithDigit]
  | cons character rest => simp [startsWithDigit, List.takeWhile_cons]

theorem fractionPart_eq_none_iff (text : List Char) :
    fractionPart text = none ↔ startsWithFraction text = false := by
  unfold fractionPart startsWithFraction
  split
  · rename_i rest
    show _ ↔ startsWithDigit rest = false
    rw [← leadingDigits_eq_nil_iff]
    rcases leadingDigits rest with ⟨_ | ⟨digit, digits⟩, after⟩ <;> simp
  · simp

theorem exponentPart_eq_none_iff (text : List Char) :
    exponentPart text = none ↔ startsWithExponent text = false := by
  unfold exponentPart startsWithExponent
  cases text with
  | nil => simp
  | cons mark rest =>
    dsimp only
    rw [Bool.and_eq_false_iff, ← leadingDigits_eq_nil_iff]
    split
    · rcases leadingDigits (takeSign rest).2 with ⟨_ | ⟨digit, digits⟩, after⟩ <;> simp [*]
    · simp [*]

theorem takeMinus_eq (text : List Char) :
    ∃ sign, (sign = [] ∨ sign = ['-']) ∧ text = sign ++ (takeMinus text).2 := by
  unfold takeMinus
  split
  · exact ⟨['-'], .inr rfl, rfl⟩
  · exact ⟨[], .inl rfl, rfl⟩

/-- What is too long for the reader of numbers is an integer of too many digits. -/
theorem longInteger_iff (count : Nat) (text : List Char) :
    LongInteger count text ↔
      IsLong (takeMinus text).2 ∧ count = (integerPart (takeMinus text).2).1.length := by
  constructor
  · rintro ⟨sign, digits, rest, signed, decimal, leading, long, ended, whole, plain⟩
    have stopped : rest.takeWhile Char.isDigit = [] ∧ rest.dropWhile Char.isDigit = rest := by
      cases rest with
      | nil => exact ⟨rfl, rfl⟩
      | cons character more =>
        have other : character.isDigit = false := ended
        simp [other]
    have taken : (digits ++ rest).takeWhile Char.isDigit = digits := by
      rw [List.takeWhile_append_of_pos decimal, stopped.1, List.append_nil]
    have dropped : (digits ++ rest).dropWhile Char.isDigit = rest := by
      rw [List.dropWhile_append_of_pos decimal, stopped.2]
    obtain ⟨digit, others, rfl⟩ : ∃ digit others, digits = digit :: others :=
      List.exists_cons_of_length_pos (Nat.zero_lt_of_lt long)
    have isDigit := decimal digit List.mem_cons_self
    have minus : (takeMinus (sign ++ (digit :: others) ++ rest)).2 = digit :: others ++ rest := by
      rcases signed with rfl | rfl
      · unfold takeMinus
        split
        · rename_i same
          obtain ⟨rfl, -⟩ := List.cons.inj same
          exact absurd isDigit (by decide)
        · rfl
      · rfl
    have parts :
        integerPart (digit :: others ++ rest) = leadingDigits (digit :: others ++ rest) := by
      unfold integerPart
      split
      · rename_i same
        obtain ⟨rfl, -⟩ := List.cons.inj same
        exact absurd rfl leading
      · rfl
    obtain ⟨count, after⟩ := leadingDigits_eq (digit :: others ++ rest)
    rw [taken] at count
    rw [dropped] at after
    rw [minus, IsLong, parts, count, after, fractionPart_eq_none_iff, exponentPart_eq_none_iff]
    exact ⟨⟨long, whole, plain⟩, rfl⟩
  · rintro ⟨⟨long, whole, plain⟩, rfl⟩
    obtain ⟨sign, signed, split⟩ := takeMinus_eq text
    have leading : ∀ rest, (takeMinus text).2 ≠ '0' :: rest := by
      intro rest same
      rw [same] at long
      have short : decimalDigitLimit < 1 := long
      exact absurd short (by decide)
    have parts : integerPart (takeMinus text).2 = leadingDigits (takeMinus text).2 := by
      unfold integerPart
      split
      · exact absurd ‹_› (leading _)
      · rfl
    rw [parts, fractionPart_eq_none_iff] at whole
    rw [parts, exponentPart_eq_none_iff] at plain
    rw [parts] at long ⊢
    obtain ⟨count, after⟩ := leadingDigits_eq (takeMinus text).2
    rw [count] at long ⊢
    rw [after] at whole plain
    have integer := LongInteger.mk sign _ _ signed (fun _ => List.mem_takeWhile_imp) ?_ long ?_
      whole plain
    · rw [List.append_assoc, List.takeWhile_append_dropWhile, ← split] at integer
      exact integer
    · intro zero
      obtain ⟨others, first⟩ := List.head?_eq_some_iff.mp zero
      have body := (List.takeWhile_append_dropWhile (p := Char.isDigit)
        (l := (takeMinus text).2)).symm
      rw [first] at body
      exact leading _ body
    · have next := List.head?_dropWhile_not Char.isDigit (takeMinus text).2
      unfold startsWithDigit
      cases head : ((takeMinus text).2.dropWhile Char.isDigit).head? with
      | none => rfl
      | some character =>
        rw [head] at next
        exact next

theorem not_isLong_of_nil {digits : List Char} (none : (integerPart digits).1 = []) :
    ¬ IsLong digits := by
  rintro ⟨long, -⟩
  rw [none] at long
  exact Nat.not_lt_zero _ long

theorem not_longInteger_of_nil {count : Nat} {text : List Char}
    (none : (integerPart (takeMinus text).2).1 = []) : ¬ LongInteger count text :=
  fun long => not_isLong_of_nil none ((longInteger_iff count text).mp long).1

end RedirectMonitor.Json
