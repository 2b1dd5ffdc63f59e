/-
This file says which rows of a report belong to a group. A row tells its group by its label
and, for a redirect target, by the number after the colon of its identifier. The report puts
the rows of all groups one after the other, so that the rows of one group in it are exactly
those that its own two samples give: nothing if the group is left out, else the rows of its cores
and then that of its total.

The content is that a group whose time did not advance is quiet: its rows show no traffic over
no time. A fixed group is quiet only then, since its total row shows a period that is not zero
as soon as the time advanced; a target without packets is left out in any case.
-/

import Mathlib.Data.List.Forall2
import RedirectMonitor.Proofs.Deliveries
import RedirectMonitor.Proofs.Period
import RedirectMonitor.Report

namespace RedirectMonitor

namespace Noted

variable {ε α β : Type}

/-! ### Outcomes of computations -/

theorem outcome_pure (value : α) : (pure value : Noted ε α).outcome = .ok value := rfl

theorem outcome_lift (outcome : Except ε α) : (lift outcome).outcome = outcome := rfl

theorem outcome_note (notice : Notice) : (note notice : Noted ε Unit).outcome = .ok () := rfl

/-- A sequence comes to a value just where its first part comes to one and the rest from there. -/
theorem outcome_bind_eq_ok (first : Noted ε α) (next : α → Noted ε β) (result : β) :
    (first >>= next).outcome = .ok result ↔
      ∃ value, first.outcome = .ok value ∧ (next value).outcome = .ok result := by
  obtain ⟨notices, outcome⟩ := first
  cases outcome with
  | error error => simp [bind]
  | ok value => simp [bind]

instance : LawfulMonad (Noted ε) :=
  LawfulMonad.mk' (Noted ε)
    (fun computation => by
      obtain ⟨notices, outcome⟩ := computation
      cases outcome <;> simp [Functor.map])
    (fun value next => by simp [bind, pure])
    (fun computation next last => by
      obtain ⟨notices, outcome⟩ := computation
      cases outcome with
      | error error => rfl
      | ok value =>
        rcases middle : next value with ⟨notices', outcome'⟩
        cases outcome' <;> simp [bind, middle])

/-- Computations over a list come to values just where each of them comes to its own. -/
theorem outcome_mapM_eq_ok (compute : α → Noted ε β) (inputs : List α) (results : List β) :
    (inputs.mapM compute).outcome = .ok results ↔
      List.Forall₂ (fun input result => (compute input).outcome = .ok result) inputs results := by
  induction inputs generalizing results with
  | nil =>
    rw [List.mapM_nil, outcome_pure, Except.ok.injEq, List.forall₂_nil_left_iff]
    exact eq_comm
  | cons input rest inductionHypothesis =>
    simp only [List.mapM_cons, outcome_bind_eq_ok, outcome_pure, inductionHypothesis,
      List.forall₂_cons_left_iff, Except.ok.injEq]
    constructor
    · rintro ⟨result, first, results, others, rfl⟩
      exact ⟨result, results, first, others, rfl⟩
    · rintro ⟨result, results, first, others, rfl⟩
      exact ⟨result, first, results, others, rfl⟩

end Noted

/-! ### The group of a row -/

namespace Group

/-- The label of the rows of a group. -/
def label : Group → String
  | rx => Report.labels.rx
  | enqueue _ => Report.labels.enqueue
  | kthread => Report.labels.kthread
  | redirectErr => Report.labels.redirectErr

/-- Whether the rows of a group show drops. -/
def showsDrops : Group → Bool
  | rx => false
  | enqueue _ | kthread | redirectErr => true

/-- The identifier of a core's row. -/
def coreIdent : Group → Nat → String
  | enqueue target, core => Report.enqueueIdent (Text.digits core) target
  | rx, core | kthread, core | redirectErr, core => .ofList (Text.digits core)

/-- The identifier of the total row. -/
def totalIdent : Group → String
  | enqueue target => Report.enqueueIdent "sum".toList target
  | rx | kthread | redirectErr => "total"

/-- Whether a group has no rows because of its rate over all cores. -/
def isLeftOut : Group → Rate → Bool
  | enqueue _, total => total.pps = 0
  | rx, _ | kthread, _ | redirectErr, _ => false

/-- The row of a group that shows a rate. -/
def row (group : Group) (ident : String) (rate : Rate) : Row :=
  .ofRate group.label ident group.showsDrops rate

end Group

/-- The digits after the colon of an identifier. -/
def Report.targetDigits (ident : String) : List Char :=
  ((ident.toList.dropWhile (· ≠ ':')).drop 1).takeWhile Char.isDigit

/-- Whether a row is one of a group. -/
def Row.isOf (group : Group) (row : Row) : Bool :=
  row.label = group.label && match group with
    | .enqueue target => Report.targetDigits row.ident = Text.digits target
    | .rx | .kthread | .redirectErr => true

namespace Text

theorem digits_injective : Function.Injective digits := by
  intro first second same
  have read := congrArg (Nat.ofDigitChars 10 · 0) same
  simpa only [digits, Nat.ofDigitChars_ten_toDigits] using read

theorem isDigit_of_mem_digits {number : Nat} {character : Char}
    (member : character ∈ digits number) : character.isDigit = true :=
  Nat.isDigit_of_mem_toDigits (by decide) (by decide) member

theorem colon_not_mem_digits (number : Nat) : ':' ∉ digits number :=
  fun member => absurd (isDigit_of_mem_digits member) (by decide)

theorem decimal_natCast (number : Nat) : decimal number = digits number := by
  rw [decimal, if_neg (by omega), List.nil_append, Int.natAbs_natCast]

end Text

namespace Report

open RedirectMonitor.Text

/-- The identifier of an enqueue row names its target after the colon. -/
theorem targetDigits_enqueueIdent (core : List Char) (target : Nat) (plain : ':' ∉ core) :
    targetDigits (enqueueIdent core target) = digits target := by
  have left : ∀ character ∈ padLeft 3 core, decide (character ≠ ':') = true := by
    intro character member
    refine decide_eq_true ?_
    rintro rfl
    rcases List.mem_append.mp member with blank | inCore
    · exact absurd (List.eq_of_mem_replicate blank) (by decide)
    · exact plain inCore
  rw [targetDigits, enqueueIdent, String.toList_ofList, List.dropWhile_append_of_pos left,
    List.dropWhile_cons_of_neg (by decide), List.drop_one, List.tail_cons, decimal_natCast,
    padRight, List.takeWhile_append_of_pos fun _ => isDigit_of_mem_digits]
  cases 3 - (digits target).length with
  | zero => simp
  | succ more => simp [List.replicate_succ]

/-- The rows that two snapshots give for a group alone. -/
def ownRows (group : Group) (current previous : Snapshot) : Noted RateError (List Row) :=
  match group with
  | .enqueue target =>
    targetRows target (current.sample (.enqueue target)) (previous.sample (.enqueue target))
  | .rx | .kthread | .redirectErr =>
    groupRows group.label group.showsDrops (current.sample group) (previous.sample group)

/-- A group gives rows where the rates are known that they show: none if the group is left out, else
those of its cores and the total row after them. -/
theorem ownRows_eq_ok_iff {group : Group} {current previous : Snapshot} {rows : List Row} :
    (ownRows group current previous).outcome = .ok rows ↔
      ∃ total, (Rate.total (current.sample group) (previous.sample group)).outcome = .ok total ∧
        if group.isLeftOut total then rows = []
        else ∃ rates,
          (Rate.cores (current.sample group) (previous.sample group)).outcome = .ok rates ∧
          coreRows group.label group.coreIdent group.showsDrops rates ++
            [group.row group.totalIdent total] = rows := by
  cases group with
  | enqueue target =>
    simp only [ownRows, targetRows, Noted.outcome_bind_eq_ok]
    refine exists_congr fun total => and_congr_right fun _ => ?_
    by_cases zero : total.pps = 0
    · simp only [zero, if_true, Group.isLeftOut, decide_true, Noted.outcome_pure, Except.ok.injEq]
      exact eq_comm
    · simp only [zero, if_false, Group.isLeftOut, decide_false, Bool.false_eq_true,
        Noted.outcome_bind_eq_ok, Noted.outcome_pure, Except.ok.injEq]
      rfl
  | rx | kthread | redirectErr =>
    simp only [ownRows, groupRows, Noted.outcome_bind_eq_ok, Noted.outcome_pure, Except.ok.injEq,
      Group.isLeftOut, Bool.false_eq_true, if_false]
    constructor
    · rintro ⟨rates, ofCores, total, ofTotal, same⟩
      exact ⟨total, ofTotal, rates, ofCores, same⟩
    · rintro ⟨total, ofTotal, rates, ofCores, same⟩
      exact ⟨rates, ofCores, total, ofTotal, same⟩

/-- A row that a group gives is named after a core or after the total. -/
theorem exists_rate_of_mem_ownRows {group : Group} {current previous : Snapshot} {rows : List Row}
    {row : Row} (outcome : (ownRows group current previous).outcome = .ok rows)
    (member : row ∈ rows) :
    ∃ ident rate, row = group.row ident rate ∧
      (ident = group.totalIdent ∨ ∃ core, ident = group.coreIdent core) := by
  obtain ⟨total, -, given⟩ := ownRows_eq_ok_iff.mp outcome
  split at given
  · subst given
    cases member
  · obtain ⟨rates, -, rfl⟩ := given
    rcases List.mem_append.mp member with perCore | last
    · obtain ⟨⟨rate, core⟩, -, shown⟩ := List.mem_filterMap.mp perCore
      dsimp only at shown
      split at shown
      · exact ⟨_, rate, (Option.some.inj shown).symm, .inr ⟨core, rfl⟩⟩
      · cases shown
    · exact ⟨_, total, List.mem_singleton.mp last, .inl rfl⟩

/-- The rows that a group gives are its own and those of no other group. -/
theorem isOf_of_mem_ownRows {group : Group} {current previous : Snapshot} {rows : List Row}
    {row : Row} (outcome : (ownRows group current previous).outcome = .ok rows)
    (member : row ∈ rows) (other : Group) : row.isOf other = decide (other = group) := by
  obtain ⟨ident, rate, rfl, named⟩ := exists_rate_of_mem_ownRows outcome member
  cases group with
  | enqueue target =>
    have ofTarget : targetDigits ident = digits target := by
      rcases named with rfl | ⟨core, rfl⟩
      · exact targetDigits_enqueueIdent _ _ (by decide)
      · exact targetDigits_enqueueIdent _ _ (colon_not_mem_digits core)
    cases other with
    | enqueue target' =>
      simp only [Row.isOf, Group.row, Row.ofRate, Group.label, ofTarget, decide_true,
        Bool.true_and]
      exact decide_eq_decide.mpr ⟨fun same => congrArg _ (digits_injective same).symm,
        fun same => congrArg digits (Group.enqueue.inj same).symm⟩
    | rx | kthread | redirectErr =>
      simp [Row.isOf, Group.row, Row.ofRate, Group.label, labels]
  | rx | kthread | redirectErr =>
    cases other <;> simp [Row.isOf, Group.row, Row.ofRate, Group.label, labels]

theorem filter_of_ownRows {group : Group} {current previous : Snapshot} {rows : List Row}
    (outcome : (ownRows group current previous).outcome = .ok rows) :
    rows.filter (Row.isOf group) = rows := by
  refine List.filter_eq_self.mpr fun row member => ?_
  rw [isOf_of_mem_ownRows outcome member]
  exact decide_eq_true rfl

theorem filter_of_ownRows_of_ne {group other : Group} {current previous : Snapshot}
    {rows : List Row} (outcome : (ownRows group current previous).outcome = .ok rows)
    (different : other ≠ group) : rows.filter (Row.isOf other) = [] := by
  refine List.filter_eq_nil_iff.mpr fun row member => ?_
  rw [isOf_of_mem_ownRows outcome member]
  simp [different]

/-- The groups of which two snapshots give rows, in the order of the report; a redirect target is
one of them if both snapshots cover it. -/
def reported (current previous : Snapshot) : List Group :=
  .rx :: ((List.range (min current.targetCount previous.targetCount)).map .enqueue ++
    [.kthread, .redirectErr])

theorem reported_nodup (current previous : Snapshot) : (reported current previous).Nodup := by
  have isTarget {group : Group} {count : Nat} (member : group ∈ (List.range count).map .enqueue) :
      ∃ target, .enqueue target = group := by
    obtain ⟨target, -, same⟩ := List.mem_map.mp member
    exact ⟨target, same⟩
  refine List.nodup_cons.mpr ⟨fun member => ?_,
    List.nodup_append.mpr ⟨Group.enqueue_nodup _, by decide, ?_⟩⟩
  · rcases List.mem_append.mp member with target | fixed
    · obtain ⟨_, same⟩ := isTarget target
      cases same
    · revert fixed
      decide
  · rintro group target other fixed rfl
    obtain ⟨_, rfl⟩ := isTarget target
    simp at fixed

/-- Snapshots of as many targets as are tracked report the tracked groups. -/
theorem mem_reported_iff_tracked {current previous : Snapshot} {targets : Int}
    (sized : current.targetCount = targets.toNat) (sized' : previous.targetCount = targets.toNat)
    {group : Group} : group ∈ reported current previous ↔ group ∈ Group.tracked targets := by
  cases group <;> simp [reported, Group.tracked, sized, sized']

/-- The samples of the targets that both snapshots cover, each with its target. -/
theorem zipIdx_enqueue (current previous : Snapshot) :
    (current.enqueue.zip previous.enqueue).zipIdx =
      (List.range (min current.targetCount previous.targetCount)).map fun target =>
        ((current.sample (.enqueue target), previous.sample (.enqueue target)), target) := by
  refine List.ext_getElem ?_ fun index inZip inRange => ?_
  · simp [Snapshot.targetCount]
  · have bounds : index < current.enqueue.length ∧ index < previous.enqueue.length := by
      simpa [Snapshot.targetCount, Nat.lt_min] using inRange
    simp [Snapshot.sample, bounds]

/-- What is related to a list of two parts has two parts itself. -/
theorem forall₂_append_left_iff {α β : Type} {relation : α → β → Prop} {first second : List α}
    {list : List β} :
    List.Forall₂ relation (first ++ second) list ↔
      ∃ part rest, List.Forall₂ relation first part ∧ List.Forall₂ relation second rest ∧
        list = part ++ rest := by
  constructor
  · intro related
    exact ⟨_, _, (List.forall₂_take_append _ _ _ related.flip).flip,
      (List.forall₂_drop_append _ _ _ related.flip).flip, (List.take_append_drop _ _).symm⟩
  · rintro ⟨part, rest, ofFirst, ofSecond, rfl⟩
    exact List.rel_append ofFirst ofSecond

/-- What stands in the second of two related lists is related to something in the first. -/
theorem exists_of_mem_right {α β : Type} {related : α → β → Prop} {first : List α}
    {second : List β} (both : List.Forall₂ related first second) {element : β}
    (member : element ∈ second) : ∃ partner ∈ first, related partner element := by
  induction both with
  | nil => cases member
  | @cons partner other first second together rest inductionHypothesis =>
    rcases List.mem_cons.mp member with rfl | later
    · exact ⟨partner, List.mem_cons_self, together⟩
    · obtain ⟨found, inFirst, same⟩ := inductionHypothesis later
      exact ⟨found, List.mem_cons_of_mem _ inFirst, same⟩

/-- A part of a report is what a group gives alone. -/
def Gives (current previous : Snapshot) (group : Group) (part : List Row) : Prop :=
  (ownRows group current previous).outcome = .ok part

/-- A report is made of the rows that its groups give, one group after the other. -/
theorem rows_eq_ok_iff {current previous : Snapshot} {rows : List Row} :
    (Report.rows current previous).outcome = .ok rows ↔
      ∃ parts, List.Forall₂ (Gives current previous) (reported current previous) parts ∧
        rows = parts.flatten := by
  simp only [Report.rows, allTargetRows, Noted.outcome_bind_eq_ok, Noted.outcome_pure,
    Noted.outcome_mapM_eq_ok, Except.ok.injEq, zipIdx_enqueue, List.forall₂_map_left_iff]
  constructor
  · rintro ⟨rx, ofRx, -, ⟨targets, ofTargets, rfl⟩, kthread, ofKthread, redirectErr, ofRedirectErr,
      rfl⟩
    have middle : List.Forall₂ (Gives current previous)
        ((List.range (min current.targetCount previous.targetCount)).map .enqueue) targets :=
      List.forall₂_map_left_iff.mpr ofTargets
    have last : List.Forall₂ (Gives current previous) [.kthread, .redirectErr]
        [kthread, redirectErr] := .cons ofKthread (.cons ofRedirectErr .nil)
    exact ⟨_, .cons ofRx (List.rel_append middle last), by simp⟩
  · rintro ⟨parts, given, rfl⟩
    obtain ⟨rx, _, ofRx, ofOthers, rfl⟩ := List.forall₂_cons_left_iff.mp given
    obtain ⟨targets, _, ofTargets, ofFixed, rfl⟩ := forall₂_append_left_iff.mp ofOthers
    obtain ⟨kthread, _, ofKthread, ofLast, rfl⟩ := List.forall₂_cons_left_iff.mp ofFixed
    obtain ⟨redirectErr, _, ofRedirectErr, ofNone, rfl⟩ := List.forall₂_cons_left_iff.mp ofLast
    obtain rfl := List.forall₂_nil_left_iff.mp ofNone
    exact ⟨rx, ofRx, _, ⟨targets, List.forall₂_map_left_iff.mp ofTargets, rfl⟩, kthread, ofKthread,
      redirectErr, ofRedirectErr, by simp⟩

/-- Of parts that distinct groups give, those of other groups are filtered out. -/
theorem filter_flatten_of_not_mem {current previous : Snapshot} {groups : List Group}
    {parts : List (List Row)} (given : List.Forall₂ (Gives current previous) groups parts)
    (group : Group) (absent : group ∉ groups) : parts.flatten.filter (Row.isOf group) = [] := by
  induction given with
  | nil => rfl
  | cons first rest inductionHypothesis =>
    rw [List.flatten_cons, List.filter_append,
      filter_of_ownRows_of_ne first (List.ne_of_not_mem_cons absent),
      inductionHypothesis (List.not_mem_of_not_mem_cons absent)]
    rfl

theorem filter_flatten {current previous : Snapshot} {groups : List Group}
    {parts : List (List Row)} (given : List.Forall₂ (Gives current previous) groups parts)
    (distinct : groups.Nodup) (group : Group) (present : group ∈ groups) :
    Gives current previous group (parts.flatten.filter (Row.isOf group)) := by
  induction given with
  | nil => cases present
  | @cons other part groups parts first rest inductionHypothesis =>
    obtain ⟨absent, distinct⟩ := List.nodup_cons.mp distinct
    rw [List.flatten_cons, List.filter_append]
    by_cases same : group = other
    · rw [same, filter_of_ownRows first, filter_flatten_of_not_mem rest other absent,
        List.append_nil]
      exact first
    · rw [filter_of_ownRows_of_ne first same, List.nil_append]
      exact inductionHypothesis distinct (List.mem_of_ne_of_mem same present)

/-- The rows of a group in a report are those that its own samples give. -/
theorem filter_rows {current previous : Snapshot} {rows : List Row}
    (outcome : (Report.rows current previous).outcome = .ok rows) {group : Group}
    (inReport : group ∈ reported current previous) :
    (ownRows group current previous).outcome = .ok (rows.filter (Row.isOf group)) := by
  obtain ⟨parts, given, rfl⟩ := rows_eq_ok_iff.mp outcome
  exact filter_flatten given (reported_nodup current previous) group inReport

/-! ### Quiet groups -/

/-- The rows of a group that shows no traffic over no time. -/
def quietRows : Group → List Row
  | .enqueue _ => []
  | group =>
    [{ label := group.label
       ident := "total"
       pps := 0
       dropPps := if group.showsDrops then some 0 else none
       period := .zero }]

end Report

namespace Rate

theorem perSecond_zero (current previous : Int) : perSecond current previous .zero = .ok 0 := by
  rw [perSecond, if_pos Binary64.isNonpositive_zero]

/-- The rates of a counter pair are known where both rates are, whether or not a counter went
down. -/
theorem outcome_between_eq_ok (current previous : Counters) (period : Binary64) (rate : Rate) :
    (between current previous period).outcome = .ok rate ↔
      ∃ processed dropped, current.processedRate previous period = .ok processed ∧
        current.droppedRate previous period = .ok dropped ∧
        { pps := processed, dropPps := dropped, period, reset := current.wentDown previous } =
          rate := by
  unfold between
  cases current.wentDown previous <;>
    simp only [reduceIte, Bool.false_eq_true, Noted.outcome_bind_eq_ok, Noted.outcome_note,
      Noted.outcome_lift, Noted.outcome_pure, Except.ok.injEq, exists_and_left, exists_const,
      true_and]

/-- The rates of a counter pair over no time. -/
def idle (current previous : Counters) : Rate :=
  { pps := 0, dropPps := 0, period := .zero, reset := current.wentDown previous }

theorem outcome_between_zero (current previous : Counters) :
    (between current previous .zero).outcome = .ok (idle current previous) :=
  (outcome_between_eq_ok _ _ _ _).mpr ⟨0, 0, perSecond_zero _ _, perSecond_zero _ _, rfl⟩

theorem outcome_total_of_le {current previous : Sample} (late : current.time ≤ previous.time) :
    (total current previous).outcome = .ok (idle current.total previous.total) := by
  rw [total, Sample.secondsSince_of_le _ _ late, Noted.outcome_bind_eq_ok]
  exact ⟨.zero, rfl, outcome_between_zero _ _⟩

theorem outcome_cores_of_le {current previous : Sample} (late : current.time ≤ previous.time) :
    (cores current previous).outcome =
      .ok ((current.cores.zip previous.cores).map fun (current, previous) =>
        idle current previous) := by
  rw [cores, Sample.secondsSince_of_le _ _ late, Noted.outcome_bind_eq_ok]
  refine ⟨.zero, rfl, (Noted.outcome_mapM_eq_ok _ _ _).mpr ?_⟩
  rw [List.forall₂_map_right_iff, List.forall₂_same]
  exact fun pair _ => outcome_between_zero _ _

/-- The rate of a core that both samples have, over the seconds between them. -/
def OfCore (current previous : Sample) (core : Nat) (rate : Rate) : Prop :=
  ∃ now before period, current.cores[core]? = some now ∧ previous.cores[core]? = some before ∧
    current.secondsSince previous = .ok period ∧ (between now before period).outcome = .ok rate

/-- The rates of a group are those of the cores that both samples have, in their order. -/
theorem getElem?_cores_iff {current previous : Sample} {rates : List Rate}
    (outcome : (cores current previous).outcome = .ok rates) (core : Nat) (rate : Rate) :
    rates[core]? = some rate ↔ OfCore current previous core rate := by
  simp only [cores, Noted.outcome_bind_eq_ok, Noted.outcome_lift, Noted.outcome_mapM_eq_ok,
    List.forall₂_iff_get, List.get_eq_getElem, List.getElem_zip, List.length_zip] at outcome
  obtain ⟨period, seconds, sized, each⟩ := outcome
  constructor
  · intro found
    obtain ⟨inRates, rfl⟩ := List.getElem?_eq_some_iff.mp found
    have inBoth := Nat.lt_min.mp (sized ▸ inRates)
    exact ⟨_, _, period, List.getElem?_eq_getElem inBoth.1, List.getElem?_eq_getElem inBoth.2,
      seconds, each core (sized ▸ inRates) inRates⟩
  · rintro ⟨now, before, period', inCurrent, inPrevious, seconds', ofPair⟩
    obtain ⟨bound, rfl⟩ := List.getElem?_eq_some_iff.mp inCurrent
    obtain ⟨bound', rfl⟩ := List.getElem?_eq_some_iff.mp inPrevious
    obtain rfl := Except.ok.inj (seconds.symm.trans seconds')
    have inBoth := Nat.lt_min.mpr ⟨bound, bound'⟩
    have computed := each core inBoth (sized ▸ inBoth)
    rw [List.getElem?_eq_getElem (sized ▸ inBoth), Except.ok.inj (computed.symm.trans ofPair)]

/-- The period of the rates over all cores is the time between the samples. -/
theorem secondsSince_of_total {current previous : Sample} {rate : Rate}
    (outcome : (total current previous).outcome = .ok rate) :
    current.secondsSince previous = .ok rate.period := by
  simp only [total, Noted.outcome_bind_eq_ok, Noted.outcome_lift, outcome_between_eq_ok] at outcome
  obtain ⟨period, seconds, processed, dropped, -, -, rfl⟩ := outcome
  exact seconds

theorem OfCore.secondsSince {current previous : Sample} {core : Nat} {rate : Rate}
    (ofCore : OfCore current previous core rate) :
    current.secondsSince previous = .ok rate.period := by
  obtain ⟨now, before, period, -, -, seconds, ofPair⟩ := ofCore
  obtain ⟨processed, dropped, -, -, rfl⟩ := (outcome_between_eq_ok _ _ _ _).mp ofPair
  exact seconds

end Rate

namespace Report

theorem coreRows_idle (label : String) (ident : Nat → String) (withDrops : Bool)
    (pairs : List (Counters × Counters)) :
    coreRows label ident withDrops (pairs.map fun (current, previous) =>
      Rate.idle current previous) = [] := by
  refine List.filterMap_eq_nil_iff.mpr ?_
  rintro ⟨rate, core⟩ member
  obtain ⟨pair, -, rfl⟩ := List.mem_map.mp (List.fst_mem_of_mem_zipIdx member)
  exact if_neg (Int.lt_irrefl 0)

/-- Where the time did not advance a group is quiet. -/
theorem ownRows_of_le {group : Group} {current previous : Snapshot}
    (late : (current.sample group).time ≤ (previous.sample group).time) :
    (ownRows group current previous).outcome = .ok (quietRows group) := by
  refine ownRows_eq_ok_iff.mpr ⟨_, Rate.outcome_total_of_le late, ?_⟩
  cases group with
  | enqueue target => rfl
  | rx | kthread | redirectErr =>
    refine ⟨_, Rate.outcome_cores_of_le late, ?_⟩
    rw [coreRows_idle]
    rfl

/-- The rows of a fixed group end with its total row, which shows the period. -/
theorem getLast?_ownRows {group : Group} {current previous : Snapshot} {rows : List Row}
    (fixed : ∀ target, group ≠ .enqueue target)
    (outcome : (ownRows group current previous).outcome = .ok rows) :
    ∃ row, rows.getLast? = some row ∧
      (current.sample group).secondsSince (previous.sample group) = .ok row.period := by
  obtain ⟨total, ofTotal, given⟩ := ownRows_eq_ok_iff.mp outcome
  have kept : group.isLeftOut total = false := by
    cases group with
    | enqueue target => exact absurd rfl (fixed target)
    | rx | kthread | redirectErr => rfl
  rw [kept, if_neg Bool.false_ne_true] at given
  obtain ⟨rates, -, rfl⟩ := given
  exact ⟨_, List.getLast?_concat, Rate.secondsSince_of_total ofTotal⟩

/-- A fixed group is quiet just where the time did not advance. -/
theorem quiet_iff_le {group : Group} {current previous : Snapshot} {rows : List Row}
    (fixed : ∀ target, group ≠ .enqueue target)
    (outcome : (ownRows group current previous).outcome = .ok rows) :
    rows = quietRows group ↔ (current.sample group).time ≤ (previous.sample group).time := by
  constructor
  · intro quiet
    by_contra advanced
    obtain ⟨row, last, seconds⟩ := getLast?_ownRows fixed outcome
    have positive := Sample.isNonpositive_secondsSince _ _ _ (by omega) seconds
    have still : row.period = .zero := by
      rw [quiet] at last
      cases group with
      | enqueue target => exact absurd rfl (fixed target)
      | rx | kthread | redirectErr =>
        obtain rfl := Option.some.inj last
        rfl
    rw [still, Binary64.isNonpositive_zero] at positive
    cases positive
  · intro late
    rw [ownRows_of_le late] at outcome
    exact (Except.ok.inj outcome).symm

/-- A redirect target is quiet just where its packets give the rate zero. -/
theorem quiet_iff_pps {target : Nat} {current previous : Snapshot} {rows : List Row}
    (outcome : (ownRows (.enqueue target) current previous).outcome = .ok rows) :
    rows = quietRows (.enqueue target) ↔
      ∃ rate, (Rate.total (current.sample (.enqueue target))
        (previous.sample (.enqueue target))).outcome = .ok rate ∧ rate.pps = 0 := by
  obtain ⟨total, ofTotal, given⟩ := ownRows_eq_ok_iff.mp outcome
  rw [ofTotal]
  split at given
  · rename_i zero
    exact ⟨fun _ => ⟨total, rfl, of_decide_eq_true zero⟩, fun _ => given⟩
  · rename_i nonzero
    obtain ⟨rates, -, rfl⟩ := given
    have nonzero : total.pps ≠ 0 := of_decide_eq_false (Bool.eq_false_iff.mpr nonzero)
    simp [quietRows, nonzero]

end Report

end RedirectMonitor
