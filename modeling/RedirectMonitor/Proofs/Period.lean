/-
This file says when the period between two samples is positive. A period is a quotient of
nanoseconds rounded to binary floating point, and rounding could lose a small one. It does
not: a quotient of at least one unit keeps a significand of at least one, so the period is
zero or less just where the time did not advance.
-/

import RedirectMonitor.Rate

namespace RedirectMonitor

namespace Binary64

theorem isNonpositive_zero : zero.isNonpositive = true := by decide +kernel

theorem isNonpositive_finite (significand shift : Nat) (positive : 0 < significand) :
    (finite false significand shift).isNonpositive = false := by
  have magnitude : (0 : Int) < ((significand * Nat.pow 2 shift : Nat) : Int) :=
    Int.natCast_pos.mpr (Nat.mul_pos positive (Nat.two_pow_pos shift))
  have greater : compare ((significand * Nat.pow 2 shift : Nat) : Int) 0 = .gt :=
    Int.compare_eq_gt.mpr magnitude
  simp only [isNonpositive, compareInt?, compareUnits, signedUnits, Int.zero_mul, greater]

/-! ### Rounding keeps what is at least a unit -/

theorem le_nearestEven (numerator denominator : Nat) :
    numerator / denominator ≤ nearestEven numerator denominator := by
  unfold nearestEven
  dsimp only
  split
  · exact Nat.le_refl _
  · split
    · exact Nat.le_succ _
    · split
      · exact Nat.le_refl _
      · exact Nat.le_succ _

/-- The bits that are dropped never take the whole quotient. -/
theorem two_pow_droppedBits_le (numerator denominator : Nat) (whole : 0 < numerator / denominator) :
    Nat.pow 2 (droppedBits numerator denominator) ≤ numerator / denominator := by
  unfold droppedBits
  calc Nat.pow 2 ((numerator / denominator).log2 - 52)
      ≤ Nat.pow 2 (numerator / denominator).log2 :=
        Nat.pow_le_pow_right (by decide) (Nat.sub_le _ _)
    _ ≤ numerator / denominator := Nat.log2_self_le (Nat.ne_of_gt whole)

/-- A quotient of at least one unit is rounded to a number of the same sign that is not zero. -/
theorem round_positive (negative : Bool) (numerator denominator : Nat) (rounded : Binary64)
    (whole : 0 < numerator / denominator)
    (found : round negative numerator denominator = some rounded) :
    ∃ significand shift, rounded = finite negative significand shift ∧ 0 < significand := by
  have kept :
      0 < nearestEven numerator (denominator * Nat.pow 2 (droppedBits numerator denominator)) := by
    refine Nat.lt_of_lt_of_le ?_ (le_nearestEven _ _)
    rw [← Nat.div_div_eq_div_mul]
    exact Nat.div_pos (two_pow_droppedBits_le numerator denominator whole) (Nat.two_pow_pos _)
  have fits : ∀ significand shift, 0 < significand →
      (if shift ≤ 2045 then some (finite negative significand shift) else none) = some rounded →
      ∃ significand shift, rounded = finite negative significand shift ∧ 0 < significand := by
    intro significand shift positive inRange
    split at inRange
    · exact ⟨significand, shift, (Option.some.inj inRange).symm, positive⟩
    · cases inRange
  by_cases carried : nearestEven numerator
      (denominator * Nat.pow 2 (droppedBits numerator denominator)) = Nat.pow 2 53
  · simp only [round, carried, if_true] at found
    exact fits _ _ (Nat.two_pow_pos 52) found
  · simp only [round, carried, if_false] at found
    exact fits _ _ kept found

/-- A positive number of nanoseconds, in seconds, is a positive number. -/
theorem ofQuotient?_positive (elapsed : Nat) (seconds : Binary64) (positive : 0 < elapsed)
    (found : ofQuotient? elapsed nanosecondsPerSecond = some seconds) :
    seconds.isNonpositive = false := by
  have small : nanosecondsPerSecond ≤ unitsPerOne := by decide +kernel
  have whole : 0 < elapsed * unitsPerOne / nanosecondsPerSecond :=
    Nat.div_pos (Nat.le_trans small (Nat.le_mul_of_pos_left unitsPerOne positive)) (by decide)
  obtain ⟨significand, shift, rfl, kept⟩ := round_positive false _ _ seconds whole found
  exact isNonpositive_finite significand shift kept

end Binary64

namespace Sample

/-- Where the time did not advance the period is zero. -/
theorem secondsSince_of_le (current previous : Sample) (late : current.time ≤ previous.time) :
    current.secondsSince previous = .ok .zero := by
  rw [secondsSince, if_pos (by omega)]

/-- Where the time advanced the period is positive. -/
theorem isNonpositive_secondsSince (current previous : Sample) (seconds : Binary64)
    (advanced : previous.time < current.time)
    (found : current.secondsSince previous = .ok seconds) : seconds.isNonpositive = false := by
  rw [secondsSince, if_neg (by omega)] at found
  split at found
  · rename_i quotient rounded
    obtain rfl := Except.ok.inj found
    exact Binary64.ofQuotient?_positive _ quotient (by omega) rounded
  · cases found

end Sample

end RedirectMonitor
