/-
This file says when a report is quiet about a group that its own collection could not read. A
failed reading leaves the records of the group as they are, and the report compares whatever is
left in the two snapshots.

The content is that the record on the newest side is the later one of the two just where the
last reading that had values went to that side. So a report without a reading of its own is
quiet about a fixed group just where the last reading with values went to the other side, or
there was none: after one failure, but not after two in a row. A redirect target is left out
of such a report also where its packets give the rate zero.
-/

import RedirectMonitor.Proofs.Intervals
import RedirectMonitor.Proofs.ReportRows

namespace RedirectMonitor

namespace Delivery

/-! ### The side of the last reading with values -/

/-- Whether a delivery has values. -/
def hasValues (delivery : Delivery) : Bool := delivery.reading.sample?.isSome

/-- The side to which the last reading of a group that had values went. -/
def lastSide? (group : Group) (deliveries : List Delivery) : Option Side :=
  ((ownOf group deliveries).filter hasValues).getLast?.map Delivery.side

theorem lastSide?_append_of_mute (deliveries : List Delivery) (delivery : Delivery) (group : Group)
    (mute : delivery.group ≠ group ∨ delivery.reading.sample? = none) :
    lastSide? group (deliveries ++ [delivery]) = lastSide? group deliveries := by
  rcases mute with different | without
  · simp [lastSide?, ownOf, different]
  · by_cases same : delivery.group = group
    · simp [lastSide?, ownOf, List.filter_append, hasValues, same, without]
    · simp [lastSide?, ownOf, same]

theorem lastSide?_append_self (deliveries : List Delivery) (delivery : Delivery) (sample : Sample)
    (values : delivery.reading.sample? = some sample) :
    lastSide? delivery.group (deliveries ++ [delivery]) = some delivery.side := by
  simp [lastSide?, ownOf, List.filter_append, hasValues, values]

theorem samples_append_of_mute (side : Side) (deliveries : List Delivery) (delivery : Delivery)
    (group : Group) (mute : delivery.group ≠ group ∨ delivery.reading.sample? = none) :
    samples side group (deliveries ++ [delivery]) = samples side group deliveries := by
  have without : delivery.sampleFor? side group = none := by
    unfold sampleFor?
    split
    · rename_i same
      exact mute.resolve_left fun different => different same.2
    · rfl
  simp [samples, without]

theorem latest_singleton (side : Side) (before : Sample) (delivery : Delivery) (sample : Sample)
    (values : delivery.reading.sample? = some sample) :
    latest side delivery.group before [delivery] =
      if side = delivery.side then sample else before := by
  by_cases own : side = delivery.side
  · simp [latest, samples, sampleFor?, values, own]
  · simp [latest, samples, sampleFor?, Ne.symm own, own]

/-- By a positive clock that advances, every reading with values is later than those before it and
than a blank sample. -/
theorem ClockAdvances.blank_pairwise {deliveries : List Delivery}
    (advances : ClockAdvances deliveries) (positive : ∀ time ∈ times deliveries, 0 < time)
    (cores : Nat) (group : Group) :
    (Sample.blank cores :: samplesOf group deliveries).Pairwise
      fun earlier later => earlier.time < later.time := by
  refine List.pairwise_cons.mpr ⟨fun sample member => ?_, advances.pairwise group⟩
  exact positive _ ((times_of_group group _).subset (List.mem_map_of_mem member))

/-- Without a reading of a group that had values its records are what was there before. -/
theorem latest_of_lastSide_eq_none {group : Group} {deliveries : List Delivery}
    (none : lastSide? group deliveries = none) (side : Side) (before : Sample) :
    latest side group before deliveries = before := by
  induction deliveries using List.reverseRecOn with
  | nil => rfl
  | append_singleton deliveries delivery inductionHypothesis =>
    by_cases mute : delivery.group ≠ group ∨ delivery.reading.sample? = .none
    · rw [lastSide?_append_of_mute _ _ _ mute] at none
      rw [latest, samples_append_of_mute _ _ _ _ mute]
      exact inductionHypothesis none
    · obtain ⟨sameGroup, values⟩ := not_or.mp mute
      obtain ⟨sample, values⟩ := Option.ne_none_iff_exists'.mp values
      obtain rfl := not_not.mp sameGroup
      rw [lastSide?_append_self _ _ sample values] at none
      cases none

/-- Where the samples of a group are in an order, the record on the side of the last reading with
values comes after the other one. -/
theorem latest_precedes_of_lastSide {precedes : Sample → Sample → Prop} {before : Sample}
    {group : Group} (deliveries : List Delivery)
    (ordered : (before :: samplesOf group deliveries).Pairwise precedes) {side : Side}
    (last : lastSide? group deliveries = some side) :
    precedes (latest side.other group before deliveries) (latest side group before deliveries) := by
  induction deliveries using List.reverseRecOn with
  | nil => cases last
  | append_singleton deliveries delivery inductionHypothesis =>
    by_cases mute : delivery.group ≠ group ∨ delivery.reading.sample? = none
    · rw [lastSide?_append_of_mute _ _ _ mute] at last
      simp only [latest, samples_append_of_mute _ _ _ _ mute]
      refine inductionHypothesis (ordered.sublist ?_) last
      rw [samplesOf_append]
      exact (List.sublist_append_left _ _).cons_cons _
    · obtain ⟨sameGroup, values⟩ := not_or.mp mute
      obtain ⟨sample, values⟩ := Option.ne_none_iff_exists'.mp values
      obtain rfl := not_not.mp sameGroup
      rw [lastSide?_append_self _ _ sample values] at last
      obtain rfl := Option.some.inj last
      -- The new sample comes after whatever the two records were before it.
      have taken := latest_precedes ordered delivery.side.other delivery.side sample
        (by simp [samples, sampleFor?, values])
      rwa [latest_append delivery.side, latest_singleton _ _ _ _ values, if_pos rfl,
        latest_append delivery.side.other, latest_singleton _ _ _ _ values,
        if_neg delivery.side.other_ne]

/-- Of the two records of a group the one on a side is the later one just where the last reading
with values went to that side. -/
theorem latest_time_lt_iff (deliveries : List Delivery) (advances : ClockAdvances deliveries)
    (positive : ∀ time ∈ times deliveries, 0 < time) (cores : Nat) (side : Side) (group : Group) :
    (latest side.other group (.blank cores) deliveries).time <
        (latest side group (.blank cores) deliveries).time ↔
      lastSide? group deliveries = some side := by
  cases last : lastSide? group deliveries with
  | none =>
    rw [latest_of_lastSide_eq_none last, latest_of_lastSide_eq_none last]
    exact iff_of_false (lt_irrefl _) fun same => by cases same
  | some taken =>
    have newer := latest_precedes_of_lastSide deliveries
      (advances.blank_pairwise positive cores group) last
    rcases side.eq_or_eq_other taken with rfl | rfl
    · exact iff_of_true newer rfl
    · rw [Side.other_other]
      exact iff_of_false newer.asymm fun same => taken.other_ne (Option.some.inj same).symm

/-! ### Sides in turn -/

/-- How many of the last readings in a row had no values. -/
def lapses (deliveries : List Delivery) : Nat :=
  (deliveries.reverse.takeWhile fun delivery => !delivery.hasValues).length

/-- Where the sides alternate, the last reading with values went to the last side just where an even
number of readings without values came after it. -/
theorem lastSide_iff_even (deliveries : List Delivery) (side : Side)
    (alternating : (deliveries.map Delivery.side).IsChain (· ≠ ·))
    (last : deliveries.getLast?.map Delivery.side = some side) :
    (deliveries.filter hasValues).getLast?.map Delivery.side = some side ↔
      (∃ delivery ∈ deliveries, delivery.hasValues) ∧ Even (lapses deliveries) := by
  induction deliveries using List.reverseRecOn generalizing side with
  | nil => cases last
  | append_singleton deliveries delivery inductionHypothesis =>
    rw [List.getLast?_concat, Option.map_some] at last
    obtain rfl := Option.some.inj last
    cases values : delivery.hasValues with
    | true => simp [lapses, List.filter_append, values]
    | false =>
      have more : lapses (deliveries ++ [delivery]) = lapses deliveries + 1 := by
        simp [lapses, values]
      have same : (deliveries ++ [delivery]).filter hasValues = deliveries.filter hasValues := by
        simp [List.filter_append, values]
      have known : (∃ other ∈ deliveries ++ [delivery], other.hasValues) ↔
          ∃ other ∈ deliveries, other.hasValues := by
        simp [or_and_right, exists_or, values]
      rw [more, same, known, Nat.even_add_one]
      cases before : deliveries.getLast? with
      | none =>
        obtain rfl := List.getLast?_eq_none_iff.mp before
        simp
      | some earlier =>
        rw [List.map_append, List.isChain_append] at alternating
        obtain ⟨alternating, -, apart⟩ := alternating
        have swapped : earlier.side = delivery.side.other :=
          (Side.eq_or_eq_other _ _).resolve_left (apart _ (by simp [before]) _ (by simp))
        have earlierIff := inductionHypothesis delivery.side.other alternating
          (by rw [before, Option.map_some, swapped])
        cases newest : (deliveries.filter hasValues).getLast? with
        | none =>
          have silent := List.getLast?_eq_none_iff.mp newest
          rw [List.filter_eq_nil_iff] at silent
          refine iff_of_false (by simp) ?_
          rintro ⟨⟨other, member, found⟩, -⟩
          exact silent other member found
        | some taken =>
          have present : ∃ other ∈ deliveries, other.hasValues :=
            ⟨taken, List.mem_filter.mp (List.mem_of_getLast? newest)⟩
          rw [newest] at earlierIff
          rw [and_iff_right present] at earlierIff ⊢
          rw [← earlierIff]
          rcases Side.eq_or_eq_other taken.side delivery.side with own | other
          · simp [own, delivery.side.other_ne.symm]
          · simp [other, delivery.side.other_ne]

end Delivery

namespace PollLoop

variable {σ : Type}

/-- Where a run stands with the turns of its groups, if it is the first over its store: while a
collection is under way, the last delivery of a group that is left went to the other side. -/
def Phase.Due (store : Store) (deliveries : List Delivery) : Phase → Prop
  | .launched => deliveries = []
  | .collecting _ _ left _ =>
    left.Nodup ∧
      ∀ group ∈ left, (Delivery.last? group deliveries).map Delivery.side ≠ some store.newest
  | .rendered | .waiting =>
    ∀ group ∈ store.groups,
      (Delivery.last? group deliveries).map Delivery.side = some store.newest
  | .leaving _ | .over _ => True

theorem due_beginCycle (loop : PollLoop) (state : σ) (deliveries : List Delivery)
    (distinct : loop.store.groups.Nodup)
    (last : ∀ group ∈ loop.store.groups,
      (Delivery.last? group deliveries).map Delivery.side = some loop.store.newest) :
    (beginCycle loop state).phase.Due (beginCycle loop state).loop.store deliveries := by
  refine ⟨distinct, fun group tracked same => ?_⟩
  rw [last group tracked] at same
  exact loop.store.newest.other_ne (Option.some.inj same).symm

theorem due_step (world : World σ) (phase : Phase) (loop : PollLoop) (state : σ)
    (deliveries : List Delivery) (distinct : loop.store.groups.Nodup)
    (gathered : phase.Gathered loop.store deliveries) (due : phase.Due loop.store deliveries) :
    (step world phase loop state).phase.Due (step world phase loop state).loop.store
      (deliveries ++ (nextDelivery? world phase loop state).toList) := by
  cases phase with
  | launched =>
    obtain rfl : deliveries = [] := due
    simp only [step, launch]
    split
    · exact trivial
    · exact ⟨distinct, fun group _ same => by cases same⟩
  | collecting purpose side left failed =>
    cases left with
    | cons group left =>
      obtain ⟨distinct, due⟩ := due
      obtain ⟨absent, distinct⟩ := List.nodup_cons.mp distinct
      set delivery : Delivery := ⟨side, group,
        (world.read loop.store.cores group.address.map group.address.key state).1⟩ with made
      show Phase.Due (loop.store.deliver delivery) (deliveries ++ [delivery])
        (readNext world purpose side group left failed loop state).phase
      rcases phase_readNext world purpose side group left failed loop state with
        ⟨fault, same⟩ | ⟨failed', same⟩
      · rw [same]
        exact trivial
      · rw [same]
        refine ⟨distinct, fun other member => ?_⟩
        have different : delivery.group ≠ other := by
          rintro rfl
          exact absent member
        rw [Delivery.last?_append_of_ne _ _ _ different, Store.deliver_newest]
        exact due other (List.mem_cons_of_mem _ member)
    | nil =>
      obtain ⟨-, done, split, last⟩ := gathered
      rw [List.append_nil] at split
      rw [← split] at last
      show Phase.Due _ (deliveries ++ []) _
      rw [List.append_nil]
      cases purpose with
      | priming =>
        simp only [step, completeCollection]
        split
        · exact trivial
        · exact due_beginCycle loop state deliveries distinct last
      | cycle =>
        simp only [step, completeCollection, render]
        split
        · exact trivial
        · split
          · exact trivial
          · exact last
  | rendered =>
    show Phase.Due loop.store (deliveries ++ []) .waiting
    rw [List.append_nil]
    exact due
  | waiting =>
    show Phase.Due _ (deliveries ++ []) _
    rw [List.append_nil]
    simp only [step]
    rcases wait_cases world loop state with ⟨-, same⟩ | ⟨-, ⟨_, -, same⟩ | same⟩ <;> rw [same]
    · exact trivial
    · exact trivial
    · exact due_beginCycle loop state deliveries distinct due
  | leaving fault | «over» fault => exact trivial

namespace Course

/-- The deliveries of every group go to the two sides in turn. -/
structure InTurn (course : Course σ) : Prop where
  alternating : ∀ group,
    ((Delivery.ownOf group course.deliveries).map Delivery.side).IsChain (· ≠ ·)
  due : course.phase.Due course.loop.store course.deliveries

theorem InTurn.step {cores targets : Int} {course : Course σ} (turns : course.InTurn)
    (sound : course.Sound cores targets) (world : World σ) : (course.step world).InTurn := by
  have distinct : course.loop.store.groups.Nodup := by
    rw [sound.groups]
    exact Group.tracked_nodup targets
  refine ⟨fun group => ?_, due_step world _ _ _ _ distinct sound.gathered turns.due⟩
  show ((Delivery.ownOf group (course.deliveries ++ _)).map Delivery.side).IsChain (· ≠ ·)
  cases next : nextDelivery? world course.phase course.loop course.state with
  | none =>
    rw [Option.toList_none, List.append_nil]
    exact turns.alternating group
  | some delivery =>
    have apart : (Delivery.last? delivery.group course.deliveries).map Delivery.side ≠
        some delivery.side := by
      have gathered := sound.gathered
      have due := turns.due
      unfold nextDelivery? at next
      split at next
      · rename_i phase
        obtain rfl := Option.some.inj next
        rw [phase] at gathered due
        rw [gathered.1]
        exact due.2 _ List.mem_cons_self
      · cases next
    rw [Option.toList_some, Delivery.ownOf_append]
    by_cases same : delivery.group = group
    · subst same
      rw [Delivery.ownOf_singleton_self, List.map_append, List.isChain_append]
      refine ⟨turns.alternating delivery.group, List.isChain_singleton _, ?_⟩
      intro earlier last later head
      obtain rfl := Option.some.inj head
      rintro rfl
      rw [List.getLast?_map] at last
      exact apart last
    · rw [Delivery.ownOf_singleton_of_ne _ _ same, List.append_nil]
      exact turns.alternating group

theorem inTurn_follow (world : World σ) (cores targets : Int) (loop : PollLoop) (state : σ)
    (moves : List Move) :
    ((launched world cores targets [] loop state).follow world moves).InTurn := by
  have kept (course : Course σ) (sound : course.Sound cores targets) (turns : course.InTurn) :
      (course.follow world moves).InTurn := by
    induction moves generalizing course with
    | nil => exact turns
    | cons move rest inductionHypothesis =>
      refine inductionHypothesis (course.move world move) (sound.move world move) ?_
      cases move with
      | step => exact turns.step sound world
      | cancel => exact ⟨turns.alternating, turns.due⟩
  exact kept _ (sound_launched world cores targets [] loop state)
    ⟨fun _ => List.IsChain.nil, rfl⟩

/-- The deliveries of a group that a report of the first run over a store knows of go to the two
sides in turn. -/
theorem alternating_of_mem_renderings (world : World σ) (cores targets : Int) (loop : PollLoop)
    (state : σ) (moves : List Move) {rendering : Rendering}
    (member : rendering ∈
      ((launched world cores targets [] loop state).follow world moves).renderings)
    (group : Group) :
    ((Delivery.ownOf group rendering.deliveries).map Delivery.side).IsChain (· ≠ ·) := by
  have alternating := (inTurn_follow world cores targets loop state moves).alternating group
  obtain ⟨rest, whole⟩ :=
    (sound_follow world cores targets [] loop state moves).before rendering member
  rw [← whole, Delivery.ownOf_append, List.map_append] at alternating
  exact alternating.left_of_append

end Course

/-! ### Quiet reports -/

namespace Rendering

/-- The reading of a group that the collection of a report made had no values. -/
def Missed (group : Group) (rendering : Rendering) : Prop :=
  (Delivery.last? group rendering.deliveries).map Delivery.hasValues = some false

/-- The rows of a group in a report show no traffic over no time. -/
def Quiet (group : Group) (rendering : Rendering) : Prop :=
  rendering.view.rows.filter (Row.isOf group) = Report.quietRows group

instance (group : Group) (rendering : Rendering) : Decidable (rendering.Missed group) :=
  inferInstanceAs (Decidable (_ = _))

theorem Faithful.sized {cores targets : Int} {rendering : Rendering}
    (faithful : rendering.Faithful cores targets) :
    rendering.view.current.targetCount = targets.toNat ∧
      rendering.view.previous.targetCount = targets.toNat := by
  have sized := (Store.wellSized_blank cores targets).deliverAll rendering.deliveries faithful.suit
  have counted (side : Side) := sized.targets side
  rw [Store.deliverAll_targets] at counted
  rw [faithful.current, faithful.previous]
  exact ⟨counted _, counted _⟩

/-- The rows of a group in a report are those that its two records give. -/
theorem Faithful.ownRows {cores targets : Int} {rendering : Rendering}
    (faithful : rendering.Faithful cores targets) {group : Group}
    (tracked : group ∈ Group.tracked targets) :
    (Report.ownRows group rendering.view.current rendering.view.previous).outcome =
      .ok (rendering.view.rows.filter (Row.isOf group)) := by
  obtain ⟨sized, sized'⟩ := faithful.sized
  exact Report.filter_rows faithful.rows
    ((Report.mem_reported_iff_tracked sized sized').mpr tracked)

/-- A report is quiet about a group just where the last reading of the group that had values did not
go to its newest side, or where the group is a target whose packets give the rate zero. -/
theorem Faithful.quiet_iff {cores targets : Int} {rendering : Rendering}
    (faithful : rendering.Faithful cores targets) {group : Group}
    (tracked : group ∈ Group.tracked targets)
    (advances : Delivery.ClockAdvances rendering.deliveries)
    (positive : ∀ time ∈ Delivery.times rendering.deliveries, 0 < time) :
    rendering.Quiet group ↔
      Delivery.lastSide? group rendering.deliveries ≠ some rendering.view.newest ∨
        ∃ target rate, group = .enqueue target ∧
          (Rate.total (rendering.current group) (rendering.previous group)).outcome = .ok rate ∧
          rate.pps = 0 := by
  have outcome := faithful.ownRows tracked
  have later := Delivery.latest_time_lt_iff rendering.deliveries advances positive cores.toNat
    rendering.view.newest group
  rw [← faithful.current_eq tracked, ← faithful.previous_eq tracked] at later
  rw [ne_eq, ← later, not_lt]
  cases group with
  | enqueue target =>
    have quiet := Report.quiet_iff_pps outcome
    constructor
    · intro shown
      obtain ⟨rate, total, zero⟩ := quiet.mp shown
      exact .inr ⟨target, rate, rfl, total, zero⟩
    · rintro (late | ⟨-, rate, -, total, zero⟩)
      · rw [Report.ownRows_of_le late] at outcome
        exact (Except.ok.inj outcome).symm
      · exact quiet.mpr ⟨rate, total, zero⟩
  | rx | kthread | redirectErr =>
    have quiet := Report.quiet_iff_le (fun _ same => by cases same) outcome
    constructor
    · exact fun shown => .inl (quiet.mp shown)
    · rintro (late | ⟨target, rate, other, -⟩)
      · exact quiet.mpr late
      · cases other

/-- Where the sides alternate, the last reading with values did not go to the newest side just where
there was none or an odd number of readings without values came after it. -/
theorem Faithful.lastSide_ne_iff {cores targets : Int} {rendering : Rendering}
    (faithful : rendering.Faithful cores targets) {group : Group}
    (tracked : group ∈ Group.tracked targets)
    (alternating :
      ((Delivery.ownOf group rendering.deliveries).map Delivery.side).IsChain (· ≠ ·)) :
    Delivery.lastSide? group rendering.deliveries ≠ some rendering.view.newest ↔
      (∀ delivery ∈ Delivery.ownOf group rendering.deliveries, delivery.hasValues = false) ∨
        Odd (Delivery.lapses (Delivery.ownOf group rendering.deliveries)) := by
  have even := Delivery.lastSide_iff_even (Delivery.ownOf group rendering.deliveries)
    rendering.view.newest alternating (faithful.own group tracked)
  rw [ne_eq, Delivery.lastSide?, even, not_and_or, Nat.not_even_iff_odd]
  simp

end Rendering

namespace Course

/-- In a run under a positive clock that advances, a report is quiet about a group just where the
last reading of the group that had values did not go to the newest side of the report, or where the
group is a target whose packets give the rate zero. In the first run over its store the former is so
where no reading of the group had values yet, or where the number of readings without values since
the last one is odd; a report whose own reading of the group failed is the case of at least one
such reading. -/
theorem quiet_iff_odd_lapses (world : World σ) (cores targets : Int) (past : List Store.Request)
    (loop : PollLoop) (state : σ) (moves : List Move) (group : Group)
    (tracked : group ∈ Group.tracked targets)
    (advances : Delivery.ClockAdvances
      ((launched world cores targets past loop state).follow world moves).deliveries)
    (positive : ∀ time ∈ Delivery.times
      ((launched world cores targets past loop state).follow world moves).deliveries, 0 < time) :
    ∀ rendering ∈ ((launched world cores targets past loop state).follow world moves).renderings,
      (rendering.Quiet group ↔
        Delivery.lastSide? group rendering.deliveries ≠ some rendering.view.newest ∨
          ∃ target rate, group = .enqueue target ∧
            (Rate.total (rendering.current group) (rendering.previous group)).outcome = .ok rate ∧
            rate.pps = 0) ∧
      (past = [] →
        (Delivery.lastSide? group rendering.deliveries ≠ some rendering.view.newest ↔
          (∀ delivery ∈ Delivery.ownOf group rendering.deliveries, delivery.hasValues = false) ∨
            Odd (Delivery.lapses (Delivery.ownOf group rendering.deliveries)))) := by
  intro rendering member
  have sound := sound_follow world cores targets past loop state moves
  have faithful := sound.faithful rendering member
  have before := sound.before rendering member
  refine ⟨faithful.quiet_iff tracked (advances.of_prefix before) fun time known =>
    positive time (Delivery.times_subset before known), ?_⟩
  rintro rfl
  exact faithful.lastSide_ne_iff tracked
    (alternating_of_mem_renderings world cores targets loop state moves member group)

/-- A run of one core without targets. The second and the third of its reports could not read what
the core received. -/
def drought : Course Script :=
  (launched .scripted 1 0 [] { store := .blank 1 0, interval := defaultInterval }
    { lines :=
        [.answered [⟨1000, 0⟩] (.ok 1000000000), .answered [⟨0, 0⟩] (.ok 1000000001),
          .answered [⟨0, 0⟩] (.ok 1000000002), .answered [⟨3000, 0⟩] (.ok 3000000000),
          .answered [⟨0, 0⟩] (.ok 3000000001), .answered [⟨0, 0⟩] (.ok 3000000002),
          .refused (.contained (.refused "rx_cnt" 0)), .answered [⟨0, 0⟩] (.ok 5000000001),
          .answered [⟨0, 0⟩] (.ok 5000000002), .refused (.contained (.refused "rx_cnt" 0)),
          .answered [⟨0, 0⟩] (.ok 7000000001), .answered [⟨0, 0⟩] (.ok 7000000002)] }).follow
    .scripted (List.replicate 21 .step)

theorem not_quiet_in_drought :
    ∃ rendering ∈ drought.renderings, rendering.Missed .rx ∧ ¬ rendering.Quiet .rx := by
  have advances : Delivery.ClockAdvances drought.deliveries := by
    unfold Delivery.ClockAdvances
    decide +kernel
  have positive : ∀ time ∈ Delivery.times drought.deliveries, 0 < time := by decide +kernel
  have twice : ∃ rendering ∈ drought.renderings, rendering.Missed .rx ∧
      Delivery.lastSide? .rx rendering.deliveries = some rendering.view.newest := by
    decide +kernel
  obtain ⟨rendering, member, missed, same⟩ := twice
  have quiet := (quiet_iff_odd_lapses .scripted 1 0 [] _ _ _ .rx (by decide) advances
    positive rendering member).1
  refine ⟨rendering, member, missed, fun shown => ?_⟩
  rcases quiet.mp shown with elsewhere | ⟨target, rate, other, -⟩
  · exact elsewhere same
  · cases other

end Course

end PollLoop

end RedirectMonitor
