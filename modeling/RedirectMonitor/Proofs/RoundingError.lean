/-
This file says how far rounding leads away from a quotient. A quotient of at least `2 ^ 52` units
fills a significand, so that half a unit of its last place is no more than one part in `2 ^ 53` of
it. A multiple of a power of two that needs no more than 53 bits loses nothing.

The content is two bounds on a rate: before the cut its two roundings may have made it greater or
less than the quotient of the increase by the period, but by no more than two parts in `2 ^ 53`. If
the period is a number of 53 bits and so is the increase in the fractions that the period counts,
then the cut undoes the rounding, and the rate is the quotient of integers.
-/

import RedirectMonitor.Proofs.RateBounds

namespace RedirectMonitor

namespace Binary64

/-! ### The error of a rounding -/

theorem unitsPerOne_pos : 0 < unitsPerOne := by
  obtain ⟨unitBits, same⟩ : ∃ unitBits, 1074 = unitBits := ⟨_, rfl⟩
  rw [unitsPerOne_eq same]
  exact Nat.two_pow_pos unitBits

/-- The nearest natural number is no more than a half away. -/
theorem nearestEven_error (numerator : Nat) {denominator : Nat} (positive : 0 < denominator) :
    2 * (nearestEven numerator denominator * denominator) ≤ 2 * numerator + denominator ∧
      2 * numerator ≤ 2 * (nearestEven numerator denominator * denominator) + denominator := by
  have split := Nat.div_add_mod' numerator denominator
  have below := Nat.mod_lt numerator positive
  have next : (numerator / denominator + 1) * denominator =
      numerator / denominator * denominator + denominator := Nat.succ_mul _ _
  unfold nearestEven
  dsimp only
  (repeat' split) <;> constructor <;> omega

/-- A quotient that fills a significand is rounded by no more than one part in `2 ^ 53` of it. -/
theorem rounded_error {numerator denominator : Nat}
    (fills : 2 ^ 52 ≤ numerator / denominator) :
    rounded numerator denominator * denominator * 2 ^ 53 ≤ numerator * (2 ^ 53 + 1) ∧
      numerator * (2 ^ 53 - 1) ≤ rounded numerator denominator * denominator * 2 ^ 53 := by
  have positive : 0 < denominator := by
    rcases Nat.eq_zero_or_pos denominator with rfl | positive
    · simp at fills
    · exact positive
  have whole : 2 ^ (droppedBits numerator denominator + 52) ≤ numerator / denominator := by
    rcases Nat.eq_zero_or_pos (droppedBits numerator denominator) with none | drops
    · rwa [none, Nat.zero_add]
    · exact le_div_of_droppedBits_pos drops
  obtain ⟨scale, isScale⟩ : ∃ scale, scale = 2 ^ droppedBits numerator denominator := ⟨_, rfl⟩
  rw [Nat.pow_add, ← isScale, Nat.le_div_iff_mul_le positive] at whole
  have scaled : 0 < denominator * scale := Nat.mul_pos positive (isScale ▸ Nat.two_pow_pos _)
  obtain ⟨above, below⟩ := nearestEven_error numerator scaled
  have same : rounded numerator denominator * denominator =
      nearestEven numerator (denominator * scale) * (denominator * scale) := by
    rw [rounded, Nat.pow_eq, ← isScale]
    ring
  rw [same]
  have last : denominator * scale * 2 ^ 52 ≤ numerator := by
    calc denominator * scale * 2 ^ 52 = scale * 2 ^ 52 * denominator := by ring
      _ ≤ numerator := whole
  generalize nearestEven numerator (denominator * scale) * (denominator * scale) = near at *
  generalize denominator * scale = grid at *
  norm_num at last ⊢
  constructor <;> linarith

/-- A number of 53 bits times a power of two is not rounded. -/
theorem rounded_exact {significand denominator : Nat} (shift : Nat)
    (short : significand < 2 ^ 53) (positive : 0 < denominator) :
    rounded (significand * 2 ^ shift * denominator) denominator = significand * 2 ^ shift := by
  have quotient : significand * 2 ^ shift * denominator / denominator = significand * 2 ^ shift :=
    Nat.mul_div_cancel _ positive
  have few : droppedBits (significand * 2 ^ shift * denominator) denominator ≤ shift := by
    rcases Nat.eq_zero_or_pos
      (droppedBits (significand * 2 ^ shift * denominator) denominator) with none | drops
    · rw [none]
      exact Nat.zero_le _
    · have apart := le_div_of_droppedBits_pos drops
      rw [quotient] at apart
      have size : significand * 2 ^ shift < 2 ^ (53 + shift) := by
        rw [Nat.pow_add]
        exact Nat.mul_lt_mul_of_pos_right short (Nat.two_pow_pos shift)
      have := (Nat.pow_lt_pow_iff_right (by decide)).mp (apart.trans_lt size)
      omega
  obtain ⟨rest, isRest⟩ := Nat.exists_eq_add_of_le few
  rw [rounded, Nat.pow_eq]
  generalize droppedBits (significand * 2 ^ shift * denominator) denominator = dropped at *
  have divides : significand * 2 ^ shift * denominator =
      significand * 2 ^ rest * (denominator * 2 ^ dropped) := by
    rw [isRest, Nat.pow_add]
    ring
  have scaled : 0 < denominator * 2 ^ dropped := Nat.mul_pos positive (Nat.two_pow_pos _)
  have exact : nearestEven (significand * 2 ^ shift * denominator) (denominator * 2 ^ dropped) =
      significand * 2 ^ rest := by
    rw [divides, nearestEven, Nat.mul_mod_left, Nat.mul_div_cancel _ scaled]
    simp [scaled]
  rw [exact, isRest, Nat.pow_add]
  ring

end Binary64

namespace Rate

open Binary64

/-! ### The error of a rate -/

section Error

variable {period : Binary64} {bits : Nat} (positive : 0 < period.units)
  (small : period.units ≤ 2 ^ bits) (few : bits ≤ 2000)

include positive small few

/-- The quotient that a rate is cut from fills a significand. -/
theorem fills_of_pos {increase : Nat} (some : 0 < increase) :
    2 ^ 52 ≤ increase * unitsPerOne / 1 ∧
      2 ^ 52 ≤ rounded (increase * unitsPerOne) 1 * unitsPerOne / period.units := by
  obtain ⟨unitBits, same⟩ : ∃ unitBits, 1074 = unitBits := ⟨_, rfl⟩
  have whole : 2 ^ unitBits ≤ increase * unitsPerOne :=
    two_pow_le_mul_unitsPerOne unitBits some (by omega)
  refine ⟨?_, two_pow_le_div 52 bits ?_ small positive⟩
  · rw [Nat.div_one]
    exact (Nat.pow_le_pow_right (by decide) (by omega)).trans whole
  · calc 2 ^ (52 + bits)
        ≤ 2 ^ (unitBits + unitBits) := Nat.pow_le_pow_right (by decide) (by omega)
      _ = 2 ^ unitBits * 2 ^ unitBits := Nat.pow_add 2 unitBits unitBits
      _ ≤ rounded (increase * unitsPerOne) 1 * unitsPerOne :=
        Nat.mul_le_mul (two_pow_le_rounded (by rwa [Nat.div_one])) (unitsPerOne_eq same).ge

/-- Before it is cut, a rate is no more than two parts in `2 ^ 53` away from the quotient of its
increase by the period. -/
theorem ofIncrease_error (increase : Nat) :
    ofIncrease increase period * period.units * (2 ^ 53) ^ 2 ≤
        increase * unitsPerOne * (2 ^ 53 + 1) ^ 2 ∧
      increase * unitsPerOne * (2 ^ 53 - 1) ^ 2 <
        (ofIncrease increase period + 1) * period.units * (2 ^ 53) ^ 2 := by
  rcases Nat.eq_zero_or_pos increase with rfl | some
  · rw [ofIncrease_zero]
    simp [positive]
  obtain ⟨fills, fills'⟩ := fills_of_pos positive small few some
  obtain ⟨above, below⟩ := rounded_error fills
  obtain ⟨above', below'⟩ := rounded_error fills'
  have unit := unitsPerOne_pos
  rw [ofIncrease, if_neg positive.ne']
  rw [Nat.mul_one] at above below
  generalize rounded (increase * unitsPerOne) 1 = number at *
  generalize rounded (number * unitsPerOne) period.units = quotient at *
  have cut : quotient / unitsPerOne * unitsPerOne ≤ quotient := Nat.div_mul_le_self _ _
  have cut' : quotient < (quotient / unitsPerOne + 1) * unitsPerOne := by
    rw [← Nat.div_lt_iff_lt_mul unit]
    exact Nat.lt_succ_self _
  generalize quotient / unitsPerOne = rate at *
  generalize isUp : 2 ^ 53 + 1 = up at *
  generalize isDown : 2 ^ 53 - 1 = down at *
  generalize isFull : 2 ^ 53 = full at *
  have fullPositive : 0 < full := isFull ▸ Nat.two_pow_pos 53
  constructor
  · refine Nat.le_of_mul_le_mul_right ?_ unit
    calc rate * period.units * full ^ 2 * unitsPerOne
        = rate * unitsPerOne * (period.units * full * full) := by ring
      _ ≤ quotient * (period.units * full * full) := Nat.mul_le_mul_right _ cut
      _ = quotient * period.units * full * full := by ring
      _ ≤ number * unitsPerOne * up * full := Nat.mul_le_mul_right _ above'
      _ = number * full * (unitsPerOne * up) := by ring
      _ ≤ increase * unitsPerOne * up * (unitsPerOne * up) := Nat.mul_le_mul_right _ above
      _ = increase * unitsPerOne * up ^ 2 * unitsPerOne := by ring
  · refine Nat.lt_of_mul_lt_mul_right (a := unitsPerOne) ?_
    calc increase * unitsPerOne * down ^ 2 * unitsPerOne
        = increase * unitsPerOne * down * (unitsPerOne * down) := by ring
      _ ≤ number * full * (unitsPerOne * down) := Nat.mul_le_mul_right _ below
      _ = number * unitsPerOne * down * full := by ring
      _ ≤ quotient * period.units * full * full := Nat.mul_le_mul_right _ below'
      _ = quotient * (period.units * full * full) := by ring
      _ < (rate + 1) * unitsPerOne * (period.units * full * full) :=
        Nat.mul_lt_mul_of_pos_right cut'
          (Nat.mul_pos (Nat.mul_pos positive fullPositive) fullPositive)
      _ = (rate + 1) * period.units * full ^ 2 * unitsPerOne := by ring

/-- Over a period of so many fractions of a second, the rate of an increase is the quotient of
integers, if the increase in these fractions has no more than 53 bits. -/
theorem ofIncrease_exact {increase fractions places : Nat}
    (isPeriod : period.units * 2 ^ places = fractions * unitsPerOne)
    (short : increase * 2 ^ places < 2 ^ 53) :
    ofIncrease increase period = increase * 2 ^ places / fractions := by
  rcases Nat.eq_zero_or_pos increase with rfl | some
  · rw [ofIncrease_zero, Nat.zero_mul, Nat.zero_div]
  have unit := unitsPerOne_pos
  have counted : 0 < fractions := by
    refine Nat.pos_of_mul_pos_right (b := unitsPerOne) ?_
    rw [← isPeriod]
    exact Nat.mul_pos positive (Nat.two_pow_pos places)
  have fewer : increase < 2 ^ 53 :=
    (Nat.le_mul_of_pos_right _ (Nat.two_pow_pos places)).trans_lt short
  have asNumber : rounded (increase * unitsPerOne) 1 = increase * unitsPerOne := by
    simpa only [Nat.mul_one, unitsPerOne_eq rfl] using rounded_exact 1074 fewer Nat.one_pos
  -- the quotient of the increase by the period, in units, is the one of integers
  have quotient : increase * unitsPerOne * unitsPerOne * fractions =
      increase * 2 ^ places * unitsPerOne * period.units := by
    calc increase * unitsPerOne * unitsPerOne * fractions
        = increase * unitsPerOne * (fractions * unitsPerOne) := by ring
      _ = increase * 2 ^ places * unitsPerOne * period.units := by rw [← isPeriod]; ring
  obtain ⟨-, fills⟩ := fills_of_pos positive small few some
  rw [ofIncrease, if_neg positive.ne']
  rw [asNumber] at fills ⊢
  obtain ⟨above, -⟩ := rounded_error fills
  generalize increase * unitsPerOne * unitsPerOne = numerator at *
  generalize increase * 2 ^ places = parts at *
  refine Nat.le_antisymm (Nat.le_of_lt_succ ((Nat.div_lt_iff_lt_mul unit).mpr ?_))
    ((Nat.le_div_iff_mul_le unit).mpr ?_)
  · -- the next integer is further away than rounding leads
    refine Nat.lt_of_not_le fun passed => ?_
    have next : parts + 1 ≤ (parts / fractions + 1) * fractions :=
      (Nat.div_lt_iff_lt_mul counted).mp (Nat.lt_succ_self _)
    have reached : (parts + 1) * 2 ^ 53 * (unitsPerOne * period.units) ≤
        parts * (2 ^ 53 + 1) * (unitsPerOne * period.units) := by
      calc (parts + 1) * 2 ^ 53 * (unitsPerOne * period.units)
          ≤ (parts / fractions + 1) * fractions * 2 ^ 53 * (unitsPerOne * period.units) :=
            Nat.mul_le_mul_right _ (Nat.mul_le_mul_right _ next)
        _ = (parts / fractions + 1) * unitsPerOne * (period.units * 2 ^ 53 * fractions) := by ring
        _ ≤ rounded numerator period.units * (period.units * 2 ^ 53 * fractions) :=
            Nat.mul_le_mul_right _ passed
        _ = rounded numerator period.units * period.units * 2 ^ 53 * fractions := by ring
        _ ≤ numerator * (2 ^ 53 + 1) * fractions := Nat.mul_le_mul_right _ above
        _ = numerator * fractions * (2 ^ 53 + 1) := by ring
        _ = parts * (2 ^ 53 + 1) * (unitsPerOne * period.units) := by rw [quotient]; ring
    have absurdly := Nat.le_of_mul_le_mul_right reached (Nat.mul_pos unit positive)
    linarith
  · -- the integer itself is not rounded, and order is kept
    have kept : rounded (parts / fractions * unitsPerOne * period.units) period.units =
        parts / fractions * unitsPerOne := by
      simpa only [unitsPerOne_eq rfl] using
        rounded_exact 1074 ((Nat.div_le_self parts fractions).trans_lt short) positive
    rw [← kept]
    refine rounded_mono _ (Nat.le_of_mul_le_mul_right ?_ counted)
    calc parts / fractions * unitsPerOne * period.units * fractions
        = parts / fractions * fractions * (unitsPerOne * period.units) := by ring
      _ ≤ parts * (unitsPerOne * period.units) :=
          Nat.mul_le_mul_right _ (Nat.div_mul_le_self parts fractions)
      _ = numerator * fractions := by rw [quotient]; ring

end Error

end Rate

end RedirectMonitor
