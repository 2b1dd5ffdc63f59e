/-
This file says that a report does not fail on what the monitor can read. Counters are words of 64
bits, a total is the sum over at most `2 ^ 32` cores, and the clock shows nanoseconds of 63 bits.
How the two samples of a group lie to each other is left open: the time may stand still or go
back, and counters may start anew.

The content is that each of the three steps of a rate stays in range. An increase is at most
`2 ^ 96`, a period that is not zero has at least the `2 ^ 1044` units of `2 ^ -30` seconds, and the
quotient is then far below the greatest finite number. So a rate has a closed form in natural
numbers, which is zero over no time and for a counter that went down.
-/

import RedirectMonitor.Proofs.Containment
import RedirectMonitor.Proofs.ReportText
import RedirectMonitor.Proofs.Resets
import RedirectMonitor.Proofs.Rounding

namespace RedirectMonitor

/-! ### Numbers that a rate is computed from -/

namespace Binary64

/-- Seconds that a rate can be taken over: none, or at least `2 ^ -30` of one. -/
def IsSpan (period : Binary64) : Prop :=
  period = .zero ∨
    (∃ significand shift, period = finite false significand shift) ∧ 2 ^ 1044 ≤ period.units

theorem units_pos {period : Binary64} (bits : Nat) (great : 2 ^ bits ≤ period.units) :
    0 < period.units :=
  Nat.lt_of_lt_of_le (Nat.two_pow_pos bits) great

theorem isNonpositive_of_units_pos {period : Binary64}
    (ofSign : ∃ significand shift, period = finite false significand shift)
    (positive : 0 < period.units) : period.isNonpositive = false := by
  obtain ⟨significand, shift, rfl⟩ := ofSign
  exact isNonpositive_finite significand shift (Nat.pos_of_mul_pos_right positive)

/-- The units of one are a power of two; its exponent is named, as its value would be computed. -/
theorem unitsPerOne_eq {bits : Nat} (same : 1074 = bits) : unitsPerOne = 2 ^ bits := by
  unfold unitsPerOne
  rw [same]
  exact Nat.pow_eq

theorem mul_unitsPerOne_lt {number : Nat} (bits : Nat) (small : number ≤ 2 ^ bits) :
    number * unitsPerOne < 2 ^ (bits + 1075) := by
  obtain ⟨unitBits, same⟩ : ∃ unitBits, 1074 = unitBits := ⟨_, rfl⟩
  rw [unitsPerOne_eq same]
  calc number * 2 ^ unitBits
      ≤ 2 ^ bits * 2 ^ unitBits := Nat.mul_le_mul_right _ small
    _ = 2 ^ (bits + unitBits) := (Nat.pow_add 2 bits unitBits).symm
    _ < 2 ^ (bits + 1075) := Nat.pow_lt_pow_right (by decide) (by omega)

theorem two_pow_le_mul_unitsPerOne {number : Nat} (bits : Nat) (positive : 0 < number)
    (few : bits ≤ 1074) : 2 ^ bits ≤ number * unitsPerOne := by
  obtain ⟨unitBits, same⟩ : ∃ unitBits, 1074 = unitBits := ⟨_, rfl⟩
  rw [unitsPerOne_eq same]
  exact (Nat.pow_le_pow_right (by decide) (by omega)).trans (Nat.le_mul_of_pos_left _ positive)

theorem div_lt_two_pow {numerator denominator : Nat} (bits lost : Nat)
    (small : numerator < 2 ^ (bits + lost)) (great : 2 ^ lost ≤ denominator) :
    numerator / denominator < 2 ^ bits := by
  rw [Nat.div_lt_iff_lt_mul (Nat.lt_of_lt_of_le (Nat.two_pow_pos lost) great)]
  calc numerator
      < 2 ^ (bits + lost) := small
    _ = 2 ^ bits * 2 ^ lost := Nat.pow_add 2 bits lost
    _ ≤ 2 ^ bits * denominator := Nat.mul_le_mul_left _ great

theorem two_pow_le_div {numerator denominator : Nat} (bits lost : Nat)
    (great : 2 ^ (bits + lost) ≤ numerator) (small : denominator ≤ 2 ^ lost)
    (positive : 0 < denominator) : 2 ^ bits ≤ numerator / denominator := by
  rw [Nat.le_div_iff_mul_le positive]
  calc 2 ^ bits * denominator
      ≤ 2 ^ bits * 2 ^ lost := Nat.mul_le_mul_left _ small
    _ = 2 ^ (bits + lost) := (Nat.pow_add 2 bits lost).symm
    _ ≤ numerator := great

/-- An integer of not too many bits becomes a number. -/
theorem exists_ofInt? {increase : Nat} (bits : Nat) (small : increase ≤ 2 ^ bits)
    (few : bits ≤ 1022) :
    ∃ number, ofInt? increase = some number ∧
      (∃ significand shift, number = finite false significand shift) ∧
      number.units = rounded (increase * unitsPerOne) 1 ∧ number.units ≤ 2 ^ (bits + 1075) := by
  have below : increase * unitsPerOne / 1 < 2 ^ (bits + 1075) := by
    rw [Nat.div_one]
    exact mul_unitsPerOne_lt bits small
  obtain ⟨number, found⟩ := exists_round false below (by omega)
  obtain ⟨magnitude, ofSign⟩ := eq_finite_of_round found
  refine ⟨number, ?_, ofSign, magnitude, magnitude ▸ rounded_le_two_pow below⟩
  rw [ofInt?, decide_eq_false (by omega), Int.natAbs_natCast]
  exact found

/-- A number of not too many bits has a finite quotient by one that is not too small. -/
theorem exists_divide {number period : Binary64} (bits lost : Nat)
    (ofSign : ∃ significand shift, number = finite false significand shift)
    (small : number.units ≤ 2 ^ bits)
    (ofSign' : ∃ significand shift, period = finite false significand shift)
    (great : 2 ^ lost ≤ period.units) (few : bits ≤ 1022 + lost) :
    ∃ significand shift, number.divide period = finite false significand shift ∧
      (finite false significand shift).units =
        rounded (number.units * unitsPerOne) period.units := by
  obtain ⟨top, isTop⟩ : ∃ top, top = 2097 := ⟨_, rfl⟩
  have below : number.units * unitsPerOne / period.units < 2 ^ top := by
    refine div_lt_two_pow top lost ((mul_unitsPerOne_lt bits small).trans_le ?_) great
    exact Nat.pow_le_pow_right (by decide) (by omega)
  obtain ⟨quotient, found⟩ := exists_round false below (by omega)
  obtain ⟨magnitude, significand, shift, rfl⟩ := eq_finite_of_round found
  refine ⟨significand, shift, ?_, magnitude⟩
  obtain ⟨significand', shift', rfl⟩ := ofSign
  obtain ⟨significand'', shift'', rfl⟩ := ofSign'
  exact congrArg (·.getD (infinite false)) found

/-- Nanoseconds of not too many bits, in seconds, are a number that is not too small. -/
theorem exists_ofQuotient? {elapsed least : Nat} (bits : Nat) (positive : 0 < elapsed)
    (small : elapsed ≤ 2 ^ bits) (few : bits ≤ 1022) (isLeast : least = 1044) :
    ∃ seconds, ofQuotient? elapsed nanosecondsPerSecond = some seconds ∧
      (∃ significand shift, seconds = finite false significand shift) ∧
      2 ^ least ≤ seconds.units := by
  have below : elapsed * unitsPerOne / nanosecondsPerSecond < 2 ^ (bits + 1075) :=
    (Nat.div_le_self _ _).trans_lt (mul_unitsPerOne_lt bits small)
  have above : 2 ^ least ≤ elapsed * unitsPerOne / nanosecondsPerSecond :=
    two_pow_le_div least 30 (two_pow_le_mul_unitsPerOne (least + 30) positive (by omega))
      (by decide) (by decide)
  obtain ⟨seconds, found⟩ := exists_round false below (by omega)
  obtain ⟨magnitude, ofSign⟩ := eq_finite_of_round found
  exact ⟨seconds, found, ofSign, magnitude ▸ two_pow_le_rounded above⟩

end Binary64

namespace Rate

open Binary64

/-! ### The closed form of a rate -/

/-- The rate of an increase over a period: the increase and its quotient by the period are rounded,
and the fraction is cut off. -/
def ofIncrease (increase : Nat) (period : Binary64) : Nat :=
  if period.units = 0 then 0
  else rounded (rounded (increase * unitsPerOne) 1 * unitsPerOne) period.units / unitsPerOne

/-- Over the same period a greater increase has no lesser rate. -/
theorem ofIncrease_mono {increase increase' : Nat} (le : increase ≤ increase')
    (period : Binary64) : ofIncrease increase period ≤ ofIncrease increase' period := by
  unfold ofIncrease
  split
  · exact Nat.le_refl 0
  · refine Nat.div_le_div_right (rounded_mono _ (Nat.mul_le_mul_right _ ?_))
    exact rounded_mono 1 (Nat.mul_le_mul_right _ le)

theorem ofIncrease_zero (period : Binary64) : ofIncrease 0 period = 0 := by
  unfold ofIncrease
  split
  · rfl
  · rename_i positive
    rw [Nat.zero_mul, rounded_zero 1 (by decide), Nat.zero_mul,
      rounded_zero _ (Nat.pos_of_ne_zero positive), Nat.zero_div]

/-- The rate of a counter that may have gone down. -/
theorem perSecond_eq {current previous : Int} {period : Binary64}
    (small : current - previous ≤ (2 ^ 96 : Nat)) (span : period.IsSpan) :
    perSecond current previous period = .ok (ofIncrease (current - previous).toNat period) := by
  rcases span with rfl | ⟨ofSign, great⟩
  · rw [perSecond_zero]
    rfl
  have positive : 0 < period.units := units_pos 1044 great
  rw [perSecond, isNonpositive_of_units_pos ofSign positive]
  by_cases down : current - previous < 0
  · simp only [down, if_true, Int.toNat_of_nonpos (Int.le_of_lt down), ofIncrease_zero]
    rfl
  · have cast : ((current - previous).toNat : Int) = current - previous :=
      Int.toNat_of_nonneg (Int.not_lt.mp down)
    obtain ⟨number, converted, ofSign', magnitude, bounded⟩ :=
      exists_ofInt? 96 (Int.toNat_le.mpr small) (by decide)
    obtain ⟨significand, shift, quotient, magnitude'⟩ :=
      exists_divide (96 + 1075) 1044 ofSign' bounded ofSign great (by decide)
    rw [cast] at converted
    simp only [down, if_false, converted, quotient, Bool.false_eq_true]
    rw [ofIncrease, if_neg (Nat.ne_of_gt positive), ← magnitude, ← magnitude']
    rfl

end Rate

/-! ### Counters and samples in range -/

namespace Counters

/-- Both counters of a pair have no more than 96 bits. -/
def IsCount (pair : Counters) : Prop :=
  (0 ≤ pair.processed ∧ pair.processed ≤ (2 ^ 96 : Nat)) ∧
    0 ≤ pair.dropped ∧ pair.dropped ≤ (2 ^ 96 : Nat)

theorem IsWord.isCount {pair : Counters} (word : pair.IsWord) : pair.IsCount := by
  have wider : Nat.pow 2 64 ≤ 2 ^ 96 := by decide
  obtain ⟨⟨processed, processed'⟩, dropped, dropped'⟩ := word
  exact ⟨⟨processed, by omega⟩, dropped, by omega⟩

/-- A sum over words is bounded by their number. -/
theorem sum_bounds {counters : List Counters} (words : ∀ pair ∈ counters, pair.IsWord) :
    (0 ≤ (sum counters).processed ∧
        (sum counters).processed ≤ (counters.length * Nat.pow 2 64 : Nat)) ∧
      0 ≤ (sum counters).dropped ∧
        (sum counters).dropped ≤ (counters.length * Nat.pow 2 64 : Nat) := by
  induction counters with
  | nil => decide
  | cons pair rest inductionHypothesis =>
    obtain ⟨⟨processed, processed'⟩, dropped, dropped'⟩ := words pair List.mem_cons_self
    obtain ⟨⟨first, first'⟩, second, second'⟩ := inductionHypothesis fun other member =>
      words other (List.mem_cons_of_mem _ member)
    show (0 ≤ pair.processed + (sum rest).processed ∧
        pair.processed + (sum rest).processed ≤ _) ∧
      0 ≤ pair.dropped + (sum rest).dropped ∧ pair.dropped + (sum rest).dropped ≤ _
    rw [List.length_cons, Nat.succ_mul]
    omega

theorem isCount_sum {counters : List Counters} (few : counters.length ≤ 2 ^ 32)
    (words : ∀ pair ∈ counters, pair.IsWord) : (sum counters).IsCount := by
  have room : counters.length * Nat.pow 2 64 ≤ 2 ^ 96 := by
    calc counters.length * Nat.pow 2 64
        ≤ 2 ^ 32 * Nat.pow 2 64 := Nat.mul_le_mul_right _ few
      _ = 2 ^ 96 := by decide
  obtain ⟨⟨processed, processed'⟩, dropped, dropped'⟩ := sum_bounds words
  exact ⟨⟨processed, by omega⟩, dropped, by omega⟩

end Counters

namespace Sample

/-- What the monitor can read of a group: words of 64 bits on at most `2 ^ 32` cores, their sum, and
a time of 63 bits. -/
structure InRange (sample : Sample) : Prop where
  few : sample.cores.length ≤ 2 ^ 32
  words : ∀ pair ∈ sample.cores, pair.IsWord
  summed : sample.Summed
  nonnegative : 0 ≤ sample.time
  bounded : sample.time < (2 ^ 63 : Nat)

instance : DecidablePred Counters.IsWord := fun pair =>
  inferInstanceAs (Decidable ((_ ∧ pair.processed < _) ∧ 0 ≤ pair.dropped ∧ _))

instance : DecidablePred InRange := fun sample =>
  decidable_of_iff
    (sample.cores.length ≤ 2 ^ 32 ∧ (∀ pair ∈ sample.cores, pair.IsWord) ∧
      sample.total = .sum sample.cores ∧ 0 ≤ sample.time ∧ sample.time < (2 ^ 63 : Nat))
    ⟨fun ⟨few, words, summed, nonnegative, bounded⟩ => ⟨few, words, summed, nonnegative, bounded⟩,
      fun ⟨few, words, summed, nonnegative, bounded⟩ => ⟨few, words, summed, nonnegative, bounded⟩⟩

theorem InRange.isCount_total {sample : Sample} (inRange : sample.InRange) :
    sample.total.IsCount := by
  rw [inRange.summed]
  exact Counters.isCount_sum inRange.few inRange.words

/-- The seconds between samples in range are known, and positive just where the time advanced. -/
theorem exists_secondsSince {current previous : Sample} (inRange : current.InRange)
    (inRange' : previous.InRange) :
    ∃ period, current.secondsSince previous = .ok period ∧ period.IsSpan ∧
      (∃ significand shift, period = .finite false significand shift) ∧
      (period.isNonpositive = false ↔ previous.time < current.time) := by
  rcases Int.lt_or_le previous.time current.time with advanced | late
  · have := inRange'.nonnegative
    have := inRange.bounded
    obtain ⟨seconds, found, ofSign, great⟩ :=
      Binary64.exists_ofQuotient? 63 (Int.pos_iff_toNat_pos.mp (Int.sub_pos.mpr advanced))
        (Int.toNat_le.mpr (by omega)) (by decide) rfl
    have known : current.secondsSince previous = .ok seconds := by
      rw [secondsSince, if_neg (by omega), found]
    exact ⟨seconds, known, .inr ⟨ofSign, great⟩, ofSign,
      iff_of_true (isNonpositive_secondsSince _ _ _ advanced known) advanced⟩
  · refine ⟨.zero, secondsSince_of_le _ _ late, .inl rfl, ⟨0, 0, rfl⟩, ?_⟩
    rw [Binary64.isNonpositive_zero]
    exact iff_of_false (by decide) (by omega)

end Sample

namespace Rate

/-! ### The rates of samples in range -/

/-- The rates of a counter pair in closed form. -/
def counted (current previous : Counters) (period : Binary64) : Rate where
  pps := ofIncrease (current.processed - previous.processed).toNat period
  dropPps := ofIncrease (current.dropped - previous.dropped).toNat period
  period
  reset := current.wentDown previous

theorem outcome_between_eq_counted {current previous : Counters} {period : Binary64}
    (isCount : current.IsCount) (isCount' : previous.IsCount) (span : period.IsSpan) :
    (between current previous period).outcome = .ok (counted current previous period) := by
  obtain ⟨⟨-, processed⟩, -, dropped⟩ := isCount
  obtain ⟨⟨processed', -⟩, dropped', -⟩ := isCount'
  exact (outcome_between_eq_ok _ _ _ _).mpr
    ⟨_, _, perSecond_eq (by omega) span, perSecond_eq (by omega) span, rfl⟩

variable {current previous : Sample} (inRange : current.InRange) (inRange' : previous.InRange)
  {period : Binary64} (seconds : current.secondsSince previous = .ok period) (span : period.IsSpan)

include inRange inRange' seconds span

theorem outcome_total_eq_counted :
    (total current previous).outcome = .ok (counted current.total previous.total period) := by
  rw [total, Noted.outcome_bind_eq_ok]
  exact ⟨period, seconds,
    outcome_between_eq_counted inRange.isCount_total inRange'.isCount_total span⟩

theorem outcome_cores_eq_counted :
    (cores current previous).outcome =
      .ok ((current.cores.zip previous.cores).map fun (now, before) =>
        counted now before period) := by
  rw [cores, Noted.outcome_bind_eq_ok]
  refine ⟨period, seconds, (Noted.outcome_mapM_eq_ok _ _ _).mpr ?_⟩
  rw [List.forall₂_map_right_iff, List.forall₂_same]
  rintro ⟨now, before⟩ member
  obtain ⟨inCurrent, inPrevious⟩ := List.of_mem_zip member
  exact outcome_between_eq_counted (inRange.words now inCurrent).isCount
    (inRange'.words before inPrevious).isCount span

/-- The rate of a core is that of its counters. -/
theorem OfCore.eq_counted {core : Nat} {rate : Rate} (ofCore : OfCore current previous core rate) :
    ∃ now before, current.cores[core]? = some now ∧ previous.cores[core]? = some before ∧
      rate = counted now before period := by
  obtain ⟨now, before, period', inCurrent, inPrevious, seconds', ofPair⟩ := ofCore
  obtain rfl := Except.ok.inj (seconds.symm.trans seconds')
  have ofCounts := outcome_between_eq_counted
    (inRange.words now (List.mem_of_getElem? inCurrent)).isCount
    (inRange'.words before (List.mem_of_getElem? inPrevious)).isCount span
  exact ⟨now, before, inCurrent, inPrevious, Except.ok.inj (ofPair.symm.trans ofCounts)⟩

end Rate

namespace Report

open RedirectMonitor.Text

theorem rated_of_inRange {current previous : Sample} (inRange : current.InRange)
    (inRange' : previous.InRange) (group : Group) : Rated group current previous := by
  obtain ⟨period, seconds, span, -⟩ := Sample.exists_secondsSince inRange inRange'
  exact ⟨_, Rate.outcome_total_eq_counted inRange inRange' seconds span, fun _ =>
    ⟨_, Rate.outcome_cores_eq_counted inRange inRange' seconds span⟩⟩

/-- A row of a group whose samples are in range shows the rates of some counters. -/
theorem Lists.exists_counted {group : Group} {current previous : Sample} {part : List Row}
    {row : Row} (lists : Lists group current previous part) (member : row ∈ part)
    (inRange : current.InRange) (inRange' : previous.InRange) {period : Binary64}
    (seconds : current.secondsSince previous = .ok period) (span : period.IsSpan) :
    ∃ ident now before, row = group.row ident (Rate.counted now before period) := by
  obtain ⟨ident, rate, rfl, ⟨-, ofTotal⟩ | ⟨core, -, ofCore, -⟩⟩ := lists.exists_rate member
  · have ofCounts := Rate.outcome_total_eq_counted inRange inRange' seconds span
    obtain rfl := Except.ok.inj (ofTotal.symm.trans ofCounts)
    exact ⟨ident, _, _, rfl⟩
  · obtain ⟨now, before, -, -, rfl⟩ := Rate.OfCore.eq_counted inRange inRange' seconds span ofCore
    exact ⟨ident, now, before, rfl⟩

theorem row_counted_nonneg (group : Group) (ident : String) (now before : Counters)
    (period : Binary64) :
    0 ≤ (group.row ident (Rate.counted now before period)).pps ∧
      ∀ drops, (group.row ident (Rate.counted now before period)).dropPps = some drops →
        0 ≤ drops := by
  refine ⟨Int.natCast_nonneg _, fun drops shown => ?_⟩
  simp only [Group.row, Row.ofRate, Option.ite_none_right_eq_some, Option.some.injEq] at shown
  obtain ⟨-, rfl⟩ := shown
  exact Int.natCast_nonneg _

/-- A report of samples in range has rows, and their lines are a whole block. No rate in it is
negative, and the period of a row is a finite number that is not negative, positive just where the
time of its group advanced. -/
theorem rows_of_inRange (current previous : Snapshot)
    (inRange : ∀ group ∈ reported current previous,
      (current.sample group).InRange ∧ (previous.sample group).InRange) :
    ∃ rows, (Report.rows current previous).outcome = .ok rows ∧ IsBlock (block rows) ∧
      ∀ row ∈ rows, 0 ≤ row.pps ∧ (∀ drops, row.dropPps = some drops → 0 ≤ drops) ∧
        (∃ significand shift, row.period = .finite false significand shift) ∧
        ∃ group ∈ reported current previous, row.isOf group = true ∧
          (row.period.isNonpositive = false ↔
            (previous.sample group).time < (current.sample group).time) := by
  obtain ⟨rows, outcome⟩ := exists_rows fun group inReport =>
    rated_of_inRange (inRange group inReport).1 (inRange group inReport).2 group
  refine ⟨rows, outcome, isBlock_block fun row => plain_of_mem_rows outcome, fun row member => ?_⟩
  obtain ⟨group, inReport, own, part, lists, inPart⟩ := exists_lists_of_mem_rows outcome member
  obtain ⟨ofCurrent, ofPrevious⟩ := inRange group inReport
  obtain ⟨period, seconds, span, ofSign, positive⟩ :=
    Sample.exists_secondsSince ofCurrent ofPrevious
  obtain ⟨ident, now, before, rfl⟩ :=
    lists.exists_counted inPart ofCurrent ofPrevious seconds span
  obtain ⟨nonnegative, nonnegative'⟩ := row_counted_nonneg group ident now before period
  exact ⟨nonnegative, nonnegative', ofSign, group, inReport, own, positive⟩

/-- A snapshot of the greatest counters on two cores, one nanosecond after the origin of the clock,
in the group of received packets; the other groups are read when the clock shows its greatest time,
with no packets. -/
def flood : Snapshot where
  rx := ⟨1, ⟨2 * (2 ^ 64 - 1), 2 * (2 ^ 64 - 1)⟩,
    [⟨2 ^ 64 - 1, 2 ^ 64 - 1⟩, ⟨2 ^ 64 - 1, 2 ^ 64 - 1⟩]⟩
  redirectErr := ⟨2 ^ 63 - 1, {}, [{}, {}]⟩
  kthread := ⟨2 ^ 63 - 1, {}, [{}, {}]⟩

/-- A snapshot that is blank but for the group of redirect errors, which was read at the greatest
time with the greatest counters. -/
def ebb : Snapshot where
  rx := .blank 2
  redirectErr := ⟨2 ^ 63 - 1, ⟨2 * (2 ^ 64 - 1), 2 * (2 ^ 64 - 1)⟩,
    [⟨2 ^ 64 - 1, 2 ^ 64 - 1⟩, ⟨2 ^ 64 - 1, 2 ^ 64 - 1⟩]⟩
  kthread := .blank 2

theorem rows_of_flood :
    (∀ group ∈ reported flood ebb,
      (flood.sample group).InRange ∧ (ebb.sample group).InRange) ∧
    ∃ rows, (Report.rows flood ebb).outcome = .ok rows ∧ ∀ row ∈ rows, 0 ≤ row.pps := by
  have inRange : ∀ group ∈ reported flood ebb,
      (flood.sample group).InRange ∧ (ebb.sample group).InRange := by decide +kernel
  obtain ⟨rows, outcome, -, each⟩ := rows_of_inRange flood ebb inRange
  exact ⟨inRange, rows, outcome, fun row member => (each row member).1⟩

end Report

end RedirectMonitor
