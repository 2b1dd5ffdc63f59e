/-
This file says that rounding keeps the order of numbers. A quotient of units is rounded to the 53
bits of a significand, and how many bits are dropped for this depends on its size, so two quotients
may be rounded on different grids. The greater one is then at least the first number of its grid,
and there the grid of the lesser one ends.

The content is that of two quotients with the same denominator the greater one is not rounded to
less, that powers of two which bound a quotient bound what it is rounded to, and that a quotient
well below the greatest finite number is rounded to a finite one.
-/

import Mathlib
import RedirectMonitor.Proofs.Period

namespace RedirectMonitor.Binary64

/-! ### The nearest natural number -/

theorem nearestEven_le (numerator denominator : Nat) :
    nearestEven numerator denominator ≤ numerator / denominator + 1 := by
  unfold nearestEven
  dsimp only
  split
  · exact Nat.le_succ _
  · split
    · exact Nat.le_refl _
    · split
      · exact Nat.le_succ _
      · exact Nat.le_refl _

theorem nearestEven_mono {numerator numerator' : Nat} (denominator : Nat)
    (le : numerator ≤ numerator') :
    nearestEven numerator denominator ≤ nearestEven numerator' denominator := by
  rcases Nat.lt_or_eq_of_le (Nat.div_le_div_right (c := denominator) le) with apart | same
  · calc nearestEven numerator denominator
        ≤ numerator / denominator + 1 := nearestEven_le numerator denominator
      _ ≤ numerator' / denominator := apart
      _ ≤ nearestEven numerator' denominator := le_nearestEven numerator' denominator
  · have remainders : numerator % denominator ≤ numerator' % denominator := by
      have split := Nat.div_add_mod numerator denominator
      have split' := Nat.div_add_mod numerator' denominator
      rw [same] at split
      omega
    unfold nearestEven
    rw [same]
    dsimp only
    (repeat' split) <;> omega

/-! ### What a quotient is rounded to -/

/-- What a quotient is rounded to, in units, however great it is. -/
def rounded (numerator denominator : Nat) : Nat :=
  let scale := Nat.pow 2 (droppedBits numerator denominator)
  nearestEven numerator (denominator * scale) * scale

theorem rounded_zero (denominator : Nat) (positive : 0 < denominator) :
    rounded 0 denominator = 0 := by
  have few : droppedBits 0 denominator = 0 := by
    rw [droppedBits, Nat.zero_div]
    rfl
  simp [rounded, few, nearestEven, positive]

/-- As many bits are dropped as leave a significand. -/
theorem div_lt_of_droppedBits (numerator denominator : Nat) :
    numerator / denominator < 2 ^ (droppedBits numerator denominator + 53) := by
  calc numerator / denominator
      < 2 ^ ((numerator / denominator).log2 + 1) := Nat.lt_log2_self
    _ ≤ 2 ^ (droppedBits numerator denominator + 53) :=
        Nat.pow_le_pow_right (by decide) (by unfold droppedBits; omega)

/-- Bits are dropped only of a quotient that has more than a significand. -/
theorem le_div_of_droppedBits_pos {numerator denominator : Nat}
    (drops : 0 < droppedBits numerator denominator) :
    2 ^ (droppedBits numerator denominator + 52) ≤ numerator / denominator := by
  have long : (numerator / denominator).log2 = droppedBits numerator denominator + 52 := by
    unfold droppedBits at drops ⊢
    omega
  rw [← long]
  refine Nat.log2_self_le fun zero => ?_
  simp [droppedBits, zero] at drops

theorem significand_le (numerator denominator : Nat) :
    nearestEven numerator (denominator * Nat.pow 2 (droppedBits numerator denominator)) ≤
      2 ^ 53 := by
  refine (nearestEven_le _ _).trans ?_
  rw [← Nat.div_div_eq_div_mul, Nat.succ_le_iff, Nat.pow_eq,
    Nat.div_lt_iff_lt_mul (Nat.two_pow_pos _), ← Nat.pow_add, Nat.add_comm]
  exact div_lt_of_droppedBits numerator denominator

/-- A power of two above a quotient is not passed by rounding. -/
theorem rounded_le_two_pow {numerator denominator bits : Nat}
    (below : numerator / denominator < 2 ^ bits) : rounded numerator denominator ≤ 2 ^ bits := by
  unfold rounded
  rcases Nat.eq_zero_or_pos (droppedBits numerator denominator) with none | drops
  · rw [none]
    simpa using (nearestEven_le numerator denominator).trans below
  · have room : droppedBits numerator denominator + 53 ≤ bits := by
      have apart := (le_div_of_droppedBits_pos drops).trans_lt below
      have := (Nat.pow_lt_pow_iff_right (by decide)).mp apart
      omega
    calc nearestEven numerator (denominator * Nat.pow 2 (droppedBits numerator denominator)) *
          Nat.pow 2 (droppedBits numerator denominator)
        ≤ 2 ^ 53 * 2 ^ droppedBits numerator denominator :=
          Nat.mul_le_mul_right _ (significand_le numerator denominator)
      _ = 2 ^ (droppedBits numerator denominator + 53) := by rw [← Nat.pow_add, Nat.add_comm]
      _ ≤ 2 ^ bits := Nat.pow_le_pow_right (by decide) room

/-- Nor is a power of two below it. -/
theorem two_pow_le_rounded {numerator denominator bits : Nat}
    (above : 2 ^ bits ≤ numerator / denominator) : 2 ^ bits ≤ rounded numerator denominator := by
  unfold rounded
  rcases Nat.eq_zero_or_pos (droppedBits numerator denominator) with none | drops
  · rw [none]
    simpa using above.trans (le_nearestEven numerator denominator)
  · have room : bits ≤ droppedBits numerator denominator + 52 := by
      have apart := above.trans_lt (div_lt_of_droppedBits numerator denominator)
      have := (Nat.pow_lt_pow_iff_right (by decide)).mp apart
      omega
    have whole : 2 ^ 52 ≤
        nearestEven numerator (denominator * Nat.pow 2 (droppedBits numerator denominator)) := by
      refine Nat.le_trans ?_ (le_nearestEven _ _)
      rw [← Nat.div_div_eq_div_mul, Nat.pow_eq, Nat.le_div_iff_mul_le (Nat.two_pow_pos _),
        ← Nat.pow_add, Nat.add_comm]
      exact le_div_of_droppedBits_pos drops
    calc 2 ^ bits
        ≤ 2 ^ (droppedBits numerator denominator + 52) := Nat.pow_le_pow_right (by decide) room
      _ = 2 ^ 52 * 2 ^ droppedBits numerator denominator := by rw [← Nat.pow_add, Nat.add_comm]
      _ ≤ _ := Nat.mul_le_mul_right _ whole

/-- Of two quotients the greater one is not rounded to less. -/
theorem rounded_mono {numerator numerator' : Nat} (denominator : Nat)
    (le : numerator ≤ numerator') :
    rounded numerator denominator ≤ rounded numerator' denominator := by
  have quotients : numerator / denominator ≤ numerator' / denominator := Nat.div_le_div_right le
  have grids : droppedBits numerator denominator ≤ droppedBits numerator' denominator :=
    Nat.sub_le_sub_right (by simpa only [Nat.log2_eq_log_two] using Nat.log_mono_right quotients) 52
  rcases Nat.lt_or_eq_of_le grids with coarser | same
  · have drops : 0 < droppedBits numerator' denominator := Nat.zero_lt_of_lt coarser
    have ends : numerator / denominator < 2 ^ (droppedBits numerator' denominator + 52) :=
      (div_lt_of_droppedBits numerator denominator).trans_le
        (Nat.pow_le_pow_right (by decide) (by omega))
    exact (rounded_le_two_pow ends).trans (two_pow_le_rounded (le_div_of_droppedBits_pos drops))
  · unfold rounded
    rw [same]
    exact Nat.mul_le_mul_right _ (nearestEven_mono _ le)

/-! ### Rounding to a number -/

/-- A number that a quotient is rounded to is finite and has its magnitude. -/
theorem eq_finite_of_round {negative : Bool} {numerator denominator : Nat} {number : Binary64}
    (found : round negative numerator denominator = some number) :
    number.units = rounded numerator denominator ∧
      ∃ significand shift, number = finite negative significand shift := by
  by_cases carried : nearestEven numerator
      (denominator * Nat.pow 2 (droppedBits numerator denominator)) = Nat.pow 2 53
  · simp only [round, carried, if_true, Option.ite_none_right_eq_some, Option.some.injEq] at found
    obtain ⟨-, rfl⟩ := found
    refine ⟨?_, _, _, rfl⟩
    show Nat.pow 2 52 * Nat.pow 2 (droppedBits numerator denominator + 1) = _
    rw [rounded, carried]
    simp only [Nat.pow_eq, ← Nat.pow_add]
    congr 1
    omega
  · simp only [round, carried, if_false, Option.ite_none_right_eq_some, Option.some.injEq] at found
    obtain ⟨-, rfl⟩ := found
    exact ⟨rfl, _, _, rfl⟩

/-- A quotient that needs no more than 2097 bits is rounded to a finite number. -/
theorem exists_round (negative : Bool) {numerator denominator bits : Nat}
    (small : numerator / denominator < 2 ^ bits) (few : bits ≤ 2097) :
    ∃ number, round negative numerator denominator = some number := by
  have fits : droppedBits numerator denominator ≤ 2044 := by
    rcases Nat.eq_zero_or_pos (droppedBits numerator denominator) with none | drops
    · rw [none]
      exact Nat.zero_le _
    · have apart := (le_div_of_droppedBits_pos drops).trans_lt small
      have := (Nat.pow_lt_pow_iff_right (by decide)).mp apart
      omega
  unfold round
  dsimp only
  split <;> exact ⟨_, if_pos (by omega)⟩

end RedirectMonitor.Binary64
