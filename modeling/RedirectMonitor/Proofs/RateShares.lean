/-
This file compares the rates of all cores, added up, with the rate of their total. Exact quotients
that are cut to integers never add up to more than the quotient of the sum, cut to an integer. A
rate is rounded before it is cut, and this can lift a core's rate to the next integer or keep that
of the total below it.

The content is that the sum of the cores passes the total only by what rounding does. It is no more
than one above the total, as long as this has no more than 51 bits, and beyond that it is above by
no more than four parts in `2 ^ 53`. Over a period that binary fractions of a second count exactly,
as whole seconds do, the sum is not above the total at all, if the increase of the total has no more
than 53 bits in these fractions.
-/

import RedirectMonitor.Proofs.AggregateRates
import RedirectMonitor.Proofs.RoundingError

namespace RedirectMonitor

namespace Rate

open Binary64

/-! ### Rates that are added up -/

/-- The rates of increases over one period, added up. -/
def sumOfRates (increases : List Nat) (period : Binary64) : Nat :=
  (increases.map fun increase => ofIncrease increase period).sum

/-- Quotients cut to integers do not add up to more than the quotient of the sum. -/
theorem sum_div_le (numbers : List Nat) (denominator : Nat) :
    (numbers.map (· / denominator)).sum ≤ numbers.sum / denominator := by
  induction numbers with
  | nil => exact Nat.zero_le _
  | cons number rest inductionHypothesis =>
    rw [List.map_cons, List.sum_cons, List.sum_cons]
    exact (Nat.add_le_add_left inductionHypothesis _).trans Nat.div_add_div_le_add_div

section Sums

variable {period : Binary64} {bits : Nat} (small : period.units ≤ 2 ^ bits) (few : bits ≤ 2000)

include small few

theorem sumOfRates_mul_units_le (positive : 0 < period.units) (increases : List Nat) :
    sumOfRates increases period * period.units * (2 ^ 53) ^ 2 ≤
      increases.sum * unitsPerOne * (2 ^ 53 + 1) ^ 2 := by
  induction increases with
  | nil => simp [sumOfRates]
  | cons increase rest inductionHypothesis =>
    have first := (ofIncrease_error positive small few increase).1
    have split : sumOfRates (increase :: rest) period =
        ofIncrease increase period + sumOfRates rest period := rfl
    rw [split, List.sum_cons]
    simp only [Nat.add_mul]
    exact Nat.add_le_add first inductionHypothesis

/-- The sum is not above the next integer over the total by more than rounding does twice to each
of the two. -/
theorem sumOfRates_error (increases : List Nat) :
    sumOfRates increases period * (2 ^ 53 - 1) ^ 2 <
      (ofIncrease increases.sum period + 1) * (2 ^ 53 + 1) ^ 2 := by
  rcases Nat.eq_zero_or_pos period.units with none | positive
  · simp [sumOfRates, ofIncrease, none]
  have above := sumOfRates_mul_units_le small few positive increases
  have below := (ofIncrease_error positive small few increases.sum).2
  generalize sumOfRates increases period = sum at *
  generalize ofIncrease increases.sum period + 1 = next at *
  have upPositive : 0 < (2 ^ 53 + 1) ^ 2 := by norm_num
  generalize 2 ^ 53 + 1 = up at *
  generalize 2 ^ 53 - 1 = down at *
  refine Nat.lt_of_mul_lt_mul_right (a := period.units * (2 ^ 53) ^ 2) ?_
  calc sum * down ^ 2 * (period.units * (2 ^ 53) ^ 2)
      = sum * period.units * (2 ^ 53) ^ 2 * down ^ 2 := by ring
    _ ≤ increases.sum * unitsPerOne * up ^ 2 * down ^ 2 := Nat.mul_le_mul_right _ above
    _ = increases.sum * unitsPerOne * down ^ 2 * up ^ 2 := by ring
    _ < next * period.units * (2 ^ 53) ^ 2 * up ^ 2 :=
      Nat.mul_lt_mul_of_pos_right below upPositive
    _ = next * up ^ 2 * (period.units * (2 ^ 53) ^ 2) := by ring

/-- What rounding does to a total of 51 bits is less than one. -/
theorem sumOfRates_le_succ (increases : List Nat)
    (short : ofIncrease increases.sum period < 2 ^ 51 - 1) :
    sumOfRates increases period ≤ ofIncrease increases.sum period + 1 := by
  have error := sumOfRates_error small few increases
  generalize sumOfRates increases period = sum at *
  generalize ofIncrease increases.sum period = total at *
  refine Nat.le_of_not_lt fun passed => ?_
  have next : total + 2 ≤ sum := passed
  norm_num at error short
  linarith

/-- Over a period that is counted exactly the sum is not above the total. -/
theorem sumOfRates_le (increases : List Nat) {fractions places : Nat}
    (isPeriod : period.units * 2 ^ places = fractions * unitsPerOne)
    (short : increases.sum * 2 ^ places < 2 ^ 53) :
    sumOfRates increases period ≤ ofIncrease increases.sum period := by
  rcases Nat.eq_zero_or_pos period.units with none | positive
  · simp [sumOfRates, ofIncrease, none]
  have each : ∀ increase ∈ increases,
      ofIncrease increase period = increase * 2 ^ places / fractions := by
    intro increase member
    refine ofIncrease_exact positive small few isPeriod (Nat.lt_of_le_of_lt ?_ short)
    exact Nat.mul_le_mul_right _ (List.le_sum_of_mem member)
  calc sumOfRates increases period
      = ((increases.map (· * 2 ^ places)).map (· / fractions)).sum := by
        rw [sumOfRates, List.map_congr_left each, List.map_map]
        rfl
    _ ≤ (increases.map (· * 2 ^ places)).sum / fractions := sum_div_le _ _
    _ = ofIncrease increases.sum period := by
        rw [ofIncrease_exact positive small few isPeriod short, List.sum_map_mul_right,
          List.map_id']

end Sums

end Rate

namespace Sample

/-! ### Increases and the period of samples -/

/-- By how much the packets of each core increased. -/
def increases (current previous : Sample) : List Nat :=
  (current.cores.zip previous.cores).map fun (now, before) =>
    (now.processed - before.processed).toNat

theorem sum_increases_of_forall₂ {now before : List Counters}
    (grown : List.Forall₂ (fun now before => before.processed ≤ now.processed) now before) :
    (((now.zip before).map fun (now, before) =>
        (now.processed - before.processed).toNat).sum : Nat) =
      (now.map Counters.processed).sum - (before.map Counters.processed).sum := by
  induction grown with
  | nil => rfl
  | cons head rest inductionHypothesis =>
    simp only [List.zip_cons_cons, List.map_cons, List.sum_cons, Nat.cast_add,
      inductionHypothesis]
    omega

/-- The increases of the cores add up to that of the total. -/
theorem Grows.sum_increases {current previous : Sample}
    (grown : current.Grows Counters.processed previous) (summed : current.Summed)
    (summed' : previous.Summed) :
    ((increases current previous).sum : Int) =
      current.total.processed - previous.total.processed := by
  rw [summed, summed', Counters.adds_processed.sum, Counters.adds_processed.sum]
  exact sum_increases_of_forall₂ grown

section Period

variable {current previous : Sample} {period : Binary64}

/-- Where the time advanced the period is the quotient of the nanoseconds, rounded. -/
theorem units_secondsSince (seconds : current.secondsSince previous = .ok period)
    (advanced : previous.time < current.time) :
    period.units =
      Binary64.rounded ((current.time - previous.time).toNat * Binary64.unitsPerOne)
        nanosecondsPerSecond := by
  rw [secondsSince, if_neg (by omega)] at seconds
  split at seconds
  · rename_i quotient found
    obtain rfl := Except.ok.inj seconds
    exact (Binary64.eq_finite_of_round found).1
  · cases seconds

theorem units_secondsSince_le (inRange : current.InRange) (inRange' : previous.InRange)
    (seconds : current.secondsSince previous = .ok period) {bits : Nat} (isBits : 1138 = bits) :
    period.units ≤ 2 ^ bits := by
  rcases Int.lt_or_le previous.time current.time with advanced | late
  · have := inRange'.nonnegative
    have := inRange.bounded
    have short : (current.time - previous.time).toNat ≤ 2 ^ 63 := Int.toNat_le.mpr (by omega)
    have below := Binary64.mul_unitsPerOne_lt 63 short
    rw [units_secondsSince seconds advanced, show bits = 63 + 1075 by omega]
    exact Binary64.rounded_le_two_pow ((Nat.div_le_self _ _).trans_lt below)
  · rw [secondsSince_of_le _ _ late] at seconds
    obtain rfl := Except.ok.inj seconds
    exact Nat.zero_le _

/-- A time that is a whole number of binary fractions of a second is not rounded. -/
theorem exists_fractions (inRange : current.InRange) (inRange' : previous.InRange)
    (seconds : current.secondsSince previous = .ok period) {places : Nat} (few : places ≤ 9)
    (whole : (nanosecondsPerSecond : Int) ∣ (current.time - previous.time) * 2 ^ places) :
    ∃ fractions, period.units * 2 ^ places = fractions * Binary64.unitsPerOne := by
  rcases Int.lt_or_le previous.time current.time with advanced | late
  · have := inRange'.nonnegative
    have := inRange.bounded
    obtain ⟨elapsed, isElapsed⟩ := Int.eq_ofNat_of_zero_le (Int.le_of_lt (Int.sub_pos.mpr advanced))
    have short : elapsed < 2 ^ 63 := by omega
    rw [units_secondsSince seconds advanced, isElapsed, Int.toNat_natCast]
    rw [isElapsed] at whole
    obtain ⟨fractions, isWhole⟩ : nanosecondsPerSecond ∣ elapsed * 2 ^ places := by
      exact_mod_cast whole
    obtain ⟨shift, isShift⟩ : ∃ shift, shift + places = 1074 := ⟨1074 - places, by omega⟩
    have units : Binary64.unitsPerOne = 2 ^ places * 2 ^ shift := by
      rw [Binary64.unitsPerOne_eq isShift.symm, Nat.pow_add, Nat.mul_comm]
    have exact : elapsed * Binary64.unitsPerOne =
        fractions * 2 ^ shift * nanosecondsPerSecond := by
      rw [units, ← Nat.mul_assoc, isWhole]
      ring
    have fits : fractions < 2 ^ 53 := by
      refine Nat.lt_of_mul_lt_mul_left (a := nanosecondsPerSecond) ?_
      calc nanosecondsPerSecond * fractions
          = elapsed * 2 ^ places := isWhole.symm
        _ < 2 ^ 63 * 2 ^ 9 := Nat.mul_lt_mul_of_lt_of_le short
            (Nat.pow_le_pow_right (by decide) few) (by decide)
        _ ≤ nanosecondsPerSecond * 2 ^ 53 := by decide
    refine ⟨fractions, ?_⟩
    rw [exact, Binary64.rounded_exact shift fits (by decide), units]
    ring
  · rw [secondsSince_of_le _ _ late] at seconds
    obtain rfl := Except.ok.inj seconds
    exact ⟨0, by simp [Binary64.zero, Binary64.units]⟩

end Period

end Sample

namespace Rate

/-! ### The cores beside the total -/

/-- Where no counter went down, the rates of the cores add up to no more than one above the rate of
the total, if this has no more than 51 bits. In any case they are above the next integer over it by
no more than four parts in `2 ^ 53`, up to parts of these parts. Over a time that binary fractions
of a second count exactly they are not above the total at all, unless there are too many packets. -/
theorem cores_share_total {current previous : Sample} (inRange : current.InRange)
    (inRange' : previous.InRange) (grown : current.Grows Counters.processed previous) :
    ∃ total rates, (Rate.total current previous).outcome = .ok total ∧
      (cores current previous).outcome = .ok rates ∧
      (rates.map pps).sum * (2 ^ 53 - 1) ^ 2 < (total.pps + 1) * (2 ^ 53 + 1) ^ 2 ∧
      (total.pps < 2 ^ 51 - 1 → (rates.map pps).sum ≤ total.pps + 1) ∧
      ∀ places ≤ 9, 1000000000 ∣ (current.time - previous.time) * 2 ^ places →
        (current.total.processed - previous.total.processed) * 2 ^ places < 2 ^ 53 →
        (rates.map pps).sum ≤ total.pps := by
  obtain ⟨period, seconds, span, -⟩ := Sample.exists_secondsSince inRange inRange'
  obtain ⟨bits, isBits⟩ : ∃ bits, 1138 = bits := ⟨_, rfl⟩
  have small := Sample.units_secondsSince_le inRange inRange' seconds isBits
  have few : bits ≤ 2000 := by omega
  have ofTotal := outcome_total_eq_counted inRange inRange' seconds span
  have ofCores := outcome_cores_eq_counted inRange inRange' seconds span
  have sumOfCores : (((current.cores.zip previous.cores).map fun (now, before) =>
      counted now before period).map pps).sum =
      (sumOfRates (current.increases previous) period : Nat) := by
    rw [sumOfRates, Sample.increases, List.map_map, List.map_map]
    generalize current.cores.zip previous.cores = pairs
    induction pairs with
    | nil => rfl
    | cons pair rest inductionHypothesis =>
      simp only [List.map_cons, List.sum_cons, inductionHypothesis, Nat.cast_add]
      rfl
  have sumOfIncreases := grown.sum_increases inRange.summed inRange'.summed
  have ofTotal' : (counted current.total previous.total period).pps =
      (ofIncrease (current.increases previous).sum period : Nat) := by
    rw [← Int.toNat_natCast (current.increases previous).sum, sumOfIncreases]
    rfl
  refine ⟨_, _, ofTotal, ofCores, ?_⟩
  rw [sumOfCores, ofTotal']
  refine ⟨?_, fun short => ?_, fun places fewPlaces whole short => ?_⟩
  · have error := sumOfRates_error small few (current.increases previous)
    norm_num at error ⊢
    exact_mod_cast error
  · have close := sumOfRates_le_succ small few (current.increases previous)
      (by norm_num at short ⊢; exact_mod_cast short)
    exact_mod_cast close
  · obtain ⟨fractions, isPeriod⟩ :=
      Sample.exists_fractions inRange inRange' seconds fewPlaces whole
    have covered := sumOfRates_le small few (current.increases previous) isPeriod
      (by rw [← sumOfIncreases] at short; exact_mod_cast short)
    exact_mod_cast covered

/-- A reading of two cores with 33 packets. -/
def laterOfShares : Sample := ⟨3200000000, ⟨33, 0⟩, [⟨11, 0⟩, ⟨22, 0⟩]⟩

/-- The blank reading 2.2 seconds before it. -/
def earlierOfShares : Sample := ⟨1000000000, {}, [{}, {}]⟩

/-- A third and two thirds of 33 packets in 2.2 seconds are lifted to 5 and 10 a second, but their
sum stays below 15. -/
theorem cores_pass_total :
    laterOfShares.InRange ∧ earlierOfShares.InRange ∧
      laterOfShares.Grows Counters.processed earlierOfShares ∧
      earlierOfShares.time < laterOfShares.time ∧
      ∃ total rates, (Rate.total laterOfShares earlierOfShares).outcome = .ok total ∧
        (cores laterOfShares earlierOfShares).outcome = .ok rates ∧
        rates.map pps = [5, 10] ∧ total.pps = 14 ∧ ¬(rates.map pps).sum ≤ total.pps := by
  refine ⟨by decide +kernel, by decide +kernel, by decide +kernel, by decide, ?_⟩
  let period : Binary64 := .finite false 4953959590107546 1023
  exact ⟨⟨14, 0, period, false⟩, [⟨5, 0, period, false⟩, ⟨10, 0, period, false⟩],
    by decide +kernel, by decide +kernel, by decide, rfl, by decide⟩

/-- In this case they pass it by one, the most that is possible. -/
theorem cores_share_total_of_two :
    ∃ total rates, (Rate.total laterOfShares earlierOfShares).outcome = .ok total ∧
      (cores laterOfShares earlierOfShares).outcome = .ok rates ∧
      total.pps = 14 ∧ (rates.map pps).sum = 15 ∧ (rates.map pps).sum ≤ total.pps + 1 := by
  have inRange : laterOfShares.InRange := by decide +kernel
  have inRange' : earlierOfShares.InRange := by decide +kernel
  obtain ⟨total, rates, ofTotal, ofCores, -, close, -⟩ :=
    cores_share_total inRange inRange' (by decide +kernel)
  let period : Binary64 := .finite false 4953959590107546 1023
  have ofTotal' : (Rate.total laterOfShares earlierOfShares).outcome =
      .ok ⟨14, 0, period, false⟩ := by decide +kernel
  have ofCores' : (cores laterOfShares earlierOfShares).outcome =
      .ok [⟨5, 0, period, false⟩, ⟨10, 0, period, false⟩] := by decide +kernel
  obtain rfl := Except.ok.inj (ofTotal.symm.trans ofTotal')
  obtain rfl := Except.ok.inj (ofCores.symm.trans ofCores')
  exact ⟨_, _, ofTotal, ofCores, rfl, by decide, close (by decide)⟩

end Rate

end RedirectMonitor
