/-
This file lists the rows of a report. The groups come in a fixed order; of each group the cores come
in ascending order, and after them the total. A core has a row if both samples have it and its own
rate is positive, and a redirect target whose packets give the rate zero has no row at all.

The content is that these rules leave nothing open: they hold of the rows of every report whose
rates are known, and all rows follow from them. No two rows have the same label and identifier. A
label tells the kind of the group, and the identifier of a target's row gives back the target and
the core, however many digits they have.
-/

import RedirectMonitor.Proofs.ReportRows

namespace RedirectMonitor

open RedirectMonitor.Text

namespace Report

/-! ### The rows of a group -/

/-- The rates are known that the rows of a group show. -/
def Rated (group : Group) (current previous : Sample) : Prop :=
  ∃ total, (Rate.total current previous).outcome = .ok total ∧
    (group.isLeftOut total = false → ∃ rates, (Rate.cores current previous).outcome = .ok rates)

/-- Rows are those of a group: one for each core that is shown, in ascending order, and then the one
of the total, unless the group is left out. -/
def Lists (group : Group) (current previous : Sample) (part : List Row) : Prop :=
  ∃ total, (Rate.total current previous).outcome = .ok total ∧
    ∃ shown : List (Nat × Rate), (shown.map Prod.fst).Pairwise (· < ·) ∧
      (∀ core rate, (core, rate) ∈ shown ↔
        Rate.OfCore current previous core rate ∧ 0 < rate.pps ∧ group.isLeftOut total = false) ∧
      part = shown.map (fun (core, rate) => group.row (group.coreIdent core) rate) ++
        if group.isLeftOut total then [] else [group.row group.totalIdent total]

/-- The cores with a positive rate, each with its rate. -/
def positive (rates : List Rate) : List (Nat × Rate) :=
  (rates.zipIdx.filter fun (rate, _) => 0 < rate.pps).map Prod.swap

theorem coreRows_eq (label : String) (ident : Nat → String) (withDrops : Bool)
    (rates : List Rate) :
    coreRows label ident withDrops rates =
      (positive rates).map fun (core, rate) => .ofRate label (ident core) withDrops rate := by
  rw [coreRows, positive, List.map_map, ← List.filterMap_eq_map, List.filterMap_filter]
  refine List.filterMap_congr fun (rate, core) _ => ?_
  by_cases isPositive : 0 < rate.pps <;> simp [isPositive]

theorem mem_positive_iff {rates : List Rate} {core : Nat} {rate : Rate} :
    (core, rate) ∈ positive rates ↔ rates[core]? = some rate ∧ 0 < rate.pps := by
  simp [positive, List.mem_zipIdx_iff_getElem?]

theorem positive_ascending (rates : List Rate) :
    ((positive rates).map Prod.fst).Pairwise (· < ·) := by
  have cores : ((positive rates).map Prod.fst).Sublist (rates.zipIdx.map Prod.snd) := by
    rw [positive, List.map_map]
    exact List.filter_sublist.map Prod.snd
  rw [List.zipIdx_map_snd] at cores
  exact List.Pairwise.sublist cores List.pairwise_lt_range'

theorem lists_of_rates {group : Group} {current previous : Sample} {total : Rate}
    {rates : List Rate} (ofTotal : (Rate.total current previous).outcome = .ok total)
    (ofCores : (Rate.cores current previous).outcome = .ok rates)
    (kept : group.isLeftOut total = false) :
    Lists group current previous
      (coreRows group.label group.coreIdent group.showsDrops rates ++
        [group.row group.totalIdent total]) := by
  refine ⟨total, ofTotal, positive rates, positive_ascending rates, fun core rate => ?_, ?_⟩
  · rw [mem_positive_iff, Rate.getElem?_cores_iff ofCores, and_iff_left kept]
  · rw [coreRows_eq, kept]
    rfl

/-- The rows that a group gives are those of the group. -/
theorem lists_of_ownRows {group : Group} {current previous : Snapshot} {part : List Row}
    (outcome : (ownRows group current previous).outcome = .ok part) :
    Lists group (current.sample group) (previous.sample group) part := by
  obtain ⟨total, ofTotal, given⟩ := ownRows_eq_ok_iff.mp outcome
  cases kept : group.isLeftOut total with
  | true =>
    rw [kept, if_pos rfl] at given
    exact ⟨total, ofTotal, [], .nil, by simp [kept], by simp [kept, given]⟩
  | false =>
    rw [kept, if_neg Bool.false_ne_true] at given
    obtain ⟨rates, ofCores, rfl⟩ := given
    exact lists_of_rates ofTotal ofCores kept

/-- A group gives rows just where the rates are known that they show. -/
theorem exists_ownRows_iff {group : Group} {current previous : Snapshot} :
    (∃ part, (ownRows group current previous).outcome = .ok part) ↔
      Rated group (current.sample group) (previous.sample group) := by
  simp only [ownRows_eq_ok_iff]
  constructor
  · rintro ⟨part, total, ofTotal, given⟩
    refine ⟨total, ofTotal, fun kept => ?_⟩
    rw [kept, if_neg Bool.false_ne_true] at given
    obtain ⟨rates, ofCores, -⟩ := given
    exact ⟨rates, ofCores⟩
  · rintro ⟨total, ofTotal, known⟩
    cases kept : group.isLeftOut total with
    | true => exact ⟨[], total, ofTotal, by rw [kept, if_pos rfl]⟩
    | false =>
      obtain ⟨rates, ofCores⟩ := known kept
      exact ⟨_, total, ofTotal, (if_neg (Bool.eq_false_iff.mp kept)).mpr ⟨rates, ofCores, rfl⟩⟩

/-- The rows of a group follow from what is said of them. -/
theorem Lists.unique {group : Group} {current previous : Sample} {first second : List Row}
    (lists : Lists group current previous first) (lists' : Lists group current previous second) :
    first = second := by
  obtain ⟨total, ofTotal, shown, ascending, shows, rfl⟩ := lists
  obtain ⟨total', ofTotal', shown', ascending', shows', rfl⟩ := lists'
  obtain rfl := Except.ok.inj (ofTotal.symm.trans ofTotal')
  rw [List.pairwise_map] at ascending ascending'
  have distinct {list : List (Nat × Rate)} (ascending : list.Pairwise (·.1 < ·.1)) : list.Nodup := by
    refine ascending.imp fun before same => ?_
    subst same
    exact Nat.lt_irrefl _ before
  have same : shown.Perm shown' :=
    (List.perm_ext_iff_of_nodup (distinct ascending) (distinct ascending')).mpr
      fun (core, rate) => (shows core rate).trans (shows' core rate).symm
  rw [same.eq_of_pairwise (fun _ _ _ _ before after => absurd before (Nat.lt_asymm after))
    ascending ascending']

/-- The rows that a group gives are those of the group whose rates are known. -/
theorem gives_iff_lists {group : Group} {current previous : Snapshot} {part : List Row} :
    Gives current previous group part ↔
      Rated group (current.sample group) (previous.sample group) ∧
        Lists group (current.sample group) (previous.sample group) part := by
  constructor
  · intro gives
    exact ⟨exists_ownRows_iff.mp ⟨part, gives⟩, lists_of_ownRows gives⟩
  · rintro ⟨rated, lists⟩
    obtain ⟨given, gives⟩ := exists_ownRows_iff.mpr rated
    exact (lists_of_ownRows gives).unique lists ▸ gives

/-- What each element of a list is related to makes a related list. -/
theorem exists_forall₂ {α β : Type} {related : α → β → Prop} {list : List α}
    (each : ∀ element ∈ list, ∃ partner, related element partner) :
    ∃ partners, List.Forall₂ related list partners := by
  induction list with
  | nil => exact ⟨[], .nil⟩
  | cons element rest inductionHypothesis =>
    obtain ⟨partner, first⟩ := each element List.mem_cons_self
    obtain ⟨partners, others⟩ := inductionHypothesis fun later member =>
      each later (List.mem_cons_of_mem _ member)
    exact ⟨partner :: partners, .cons first others⟩

/-- A report has rows where the rates are known that its groups show. -/
theorem exists_rows {current previous : Snapshot}
    (rated : ∀ group ∈ reported current previous,
      Rated group (current.sample group) (previous.sample group)) :
    ∃ rows, (Report.rows current previous).outcome = .ok rows := by
  obtain ⟨parts, given⟩ := exists_forall₂ fun group inReport =>
    exists_ownRows_iff.mpr (rated group inReport)
  exact ⟨parts.flatten, rows_eq_ok_iff.mpr ⟨parts, given, rfl⟩⟩

/-- Rows are those of the groups that a report covers, one group after the other. -/
def ListsAll (current previous : Snapshot) (rows : List Row) : Prop :=
  ∃ parts, List.Forall₂ (fun group part =>
      Lists group (current.sample group) (previous.sample group) part)
    (reported current previous) parts ∧ rows = parts.flatten

theorem rows_eq_ok_iff_listsAll {current previous : Snapshot} {rows : List Row} :
    (Report.rows current previous).outcome = .ok rows ↔
      (∀ group ∈ reported current previous,
        Rated group (current.sample group) (previous.sample group)) ∧
      ListsAll current previous rows := by
  have parted : Gives current previous = fun group part =>
      Rated group (current.sample group) (previous.sample group) ∧
        Lists group (current.sample group) (previous.sample group) part := by
    funext group part
    exact propext gives_iff_lists
  rw [rows_eq_ok_iff, parted, ListsAll, ← exists_and_left]
  simp only [List.forall₂_and_left, and_assoc]

/-- A row of a group is that of the total or of a core and shows its rate. -/
theorem Lists.exists_rate {group : Group} {current previous : Sample} {part : List Row} {row : Row}
    (lists : Lists group current previous part) (member : row ∈ part) :
    ∃ ident rate, row = group.row ident rate ∧
      (ident = group.totalIdent ∧ (Rate.total current previous).outcome = .ok rate ∨
        ∃ core, ident = group.coreIdent core ∧ Rate.OfCore current previous core rate ∧
          0 < rate.pps) := by
  obtain ⟨total, ofTotal, shown, -, shows, rfl⟩ := lists
  rcases List.mem_append.mp member with ofCore | last
  · obtain ⟨⟨core, rate⟩, isShown, rfl⟩ := List.mem_map.mp ofCore
    obtain ⟨ofCore, positive, -⟩ := (shows core rate).mp isShown
    exact ⟨_, rate, rfl, .inr ⟨core, rfl, ofCore, positive⟩⟩
  · split at last
    · cases last
    · exact ⟨_, total, List.mem_singleton.mp last, .inl ⟨rfl, ofTotal⟩⟩

/-- All rows of a group show the seconds between its two samples. -/
theorem Lists.secondsSince {group : Group} {current previous : Sample} {part : List Row} {row : Row}
    (lists : Lists group current previous part) (member : row ∈ part) :
    current.secondsSince previous = .ok row.period := by
  obtain ⟨ident, rate, rfl, ⟨-, ofTotal⟩ | ⟨core, -, ofCore, -⟩⟩ := lists.exists_rate member
  · exact Rate.secondsSince_of_total ofTotal
  · exact ofCore.secondsSince

/-- A row of a report is one of a group that the report covers. -/
theorem exists_lists_of_mem_rows {current previous : Snapshot} {rows : List Row} {row : Row}
    (outcome : (Report.rows current previous).outcome = .ok rows) (member : row ∈ rows) :
    ∃ group ∈ reported current previous, row.isOf group = true ∧ ∃ part,
      Lists group (current.sample group) (previous.sample group) part ∧ row ∈ part := by
  obtain ⟨parts, given, rfl⟩ := rows_eq_ok_iff.mp outcome
  obtain ⟨part, inParts, inPart⟩ := List.mem_flatten.mp member
  obtain ⟨group, inReport, gives⟩ := exists_of_mem_right given inParts
  have own : row.isOf group = true := by
    rw [isOf_of_mem_ownRows gives inPart]
    exact decide_eq_true rfl
  exact ⟨group, inReport, own, part, lists_of_ownRows gives, inPart⟩

/-! ### What tells rows apart -/

end Report

/-- What tells a row from all others in a report. -/
def Row.key (row : Row) : String × String := (row.label, row.ident)

/-- The group of a row follows from its label and its identifier. -/
theorem Row.isOf_congr {first second : Row} (same : first.key = second.key) (group : Group) :
    first.isOf group = second.isOf group := by
  obtain ⟨label, ident⟩ := Prod.mk.inj same
  cases group <;> simp only [Row.isOf, label, ident]

namespace Report

/-- The identifier of an enqueue row names its core before the colon. -/
theorem core_of_enqueueIdent {core core' : List Char} {target : Int} (plain : ' ' ∉ core)
    (plain' : ' ' ∉ core') (same : enqueueIdent core target = enqueueIdent core' target) :
    core = core' := by
  have padded : padLeft 3 core = padLeft 3 core' :=
    List.append_cancel_right (String.ofList_injective same)
  have unpadded {text : List Char} (plain : ' ' ∉ text) :
      (padLeft 3 text).filter (· ≠ ' ') = text := by
    rw [padLeft, List.filter_append, List.filter_replicate_of_neg (by simp), List.nil_append,
      List.filter_eq_self]
    exact fun character member => decide_eq_true fun blank => plain (blank ▸ member)
  rw [← unpadded plain, padded, unpadded plain']

theorem blank_not_mem_digits (number : Nat) : ' ' ∉ digits number :=
  fun member => absurd (isDigit_of_mem_digits member) (by decide)

theorem coreIdent_injective (group : Group) : Function.Injective group.coreIdent := by
  intro first second same
  refine digits_injective ?_
  cases group with
  | enqueue target =>
    exact core_of_enqueueIdent (blank_not_mem_digits first) (blank_not_mem_digits second) same
  | rx | kthread | redirectErr => exact String.ofList_injective same

/-- The total row has another identifier than the row of any core. -/
theorem coreIdent_ne_totalIdent (group : Group) (core : Nat) :
    group.coreIdent core ≠ group.totalIdent := by
  intro same
  have word : digits core = "sum".toList ∨ digits core = "total".toList := by
    cases group with
    | enqueue target =>
      exact .inl (core_of_enqueueIdent (blank_not_mem_digits core) (by decide) same)
    | rx | kthread | redirectErr =>
      refine .inr ?_
      rw [← String.toList_ofList (l := digits core)]
      exact congrArg String.toList same
  have letter : 's' ∈ digits core ∨ 't' ∈ digits core := by
    rcases word with sum | total
    · exact .inl (sum ▸ by decide)
    · exact .inr (total ▸ by decide)
  rcases letter with member | member <;>
    exact absurd (isDigit_of_mem_digits member) (by decide)

theorem Lists.nodup {group : Group} {current previous : Sample} {part : List Row}
    (lists : Lists group current previous part) : (part.map Row.key).Nodup := by
  obtain ⟨total, -, shown, ascending, -, rfl⟩ := lists
  have cores : ((shown.map fun (core, rate) => group.row (group.coreIdent core) rate).map
      Row.key).Nodup := by
    have idents : (shown.map fun (core, _) => (group.label, group.coreIdent core)) =
        (shown.map Prod.fst).map fun core => (group.label, group.coreIdent core) := by
      rw [List.map_map]
      rfl
    rw [List.map_map]
    show (shown.map fun (core, _) => (group.label, group.coreIdent core)).Nodup
    rw [idents]
    refine (ascending.imp Nat.ne_of_lt).map _ fun first second different same => ?_
    exact different (coreIdent_injective group (Prod.mk.inj same).2)
  rw [List.map_append, List.nodup_append]
  refine ⟨cores, ?_, ?_⟩
  · split <;> simp
  · intro key ofCore key' ofTotal
    obtain ⟨row, inCores, rfl⟩ := List.mem_map.mp ofCore
    obtain ⟨⟨core, rate⟩, -, rfl⟩ := List.mem_map.mp inCores
    obtain ⟨row, inTotals, rfl⟩ := List.mem_map.mp ofTotal
    split at inTotals
    · cases inTotals
    · obtain rfl := List.mem_singleton.mp inTotals
      exact fun same => coreIdent_ne_totalIdent group core (Prod.mk.inj same).2

/-- Rows that distinct groups give have distinct labels and identifiers. -/
theorem nodup_flatten {current previous : Snapshot} {groups : List Group}
    {parts : List (List Row)} (given : List.Forall₂ (Gives current previous) groups parts)
    (distinct : groups.Nodup) : (parts.flatten.map Row.key).Nodup := by
  induction given with
  | nil => exact List.nodup_nil
  | @cons group part groups parts first rest inductionHypothesis =>
    obtain ⟨absent, distinct⟩ := List.nodup_cons.mp distinct
    rw [List.flatten_cons, List.map_append, List.nodup_append]
    refine ⟨(lists_of_ownRows first).nodup, inductionHypothesis distinct, ?_⟩
    intro key inPart key' inRest same
    obtain ⟨row, ofGroup, rfl⟩ := List.mem_map.mp inPart
    obtain ⟨row', ofOthers, rfl⟩ := List.mem_map.mp inRest
    have none := List.filter_eq_nil_iff.mp (filter_flatten_of_not_mem rest group absent) row' ofOthers
    rw [← Row.isOf_congr same, isOf_of_mem_ownRows first ofGroup] at none
    exact none (decide_eq_true rfl)

/-- Just the rows of received packets have no drops. -/
theorem dropPps_row_eq_none_iff (group : Group) (ident : String) (rate : Rate) :
    (group.row ident rate).dropPps = none ↔ (group.row ident rate).label = labels.rx := by
  cases group <;> simp [Group.row, Row.ofRate, Group.showsDrops, Group.label, labels]

/-! ### The rows of a report -/

/-- Where the rates are known, a report lists for each group one row of each core that both samples
have and that has a positive rate, the cores ascending, and then the total row, but nothing of a
redirect target whose total rate is zero. No two rows have the same label and identifier, and just
the rows of received packets have no drops. -/
theorem rows_list_groups (current previous : Snapshot) :
    ((∀ group ∈ reported current previous,
        Rated group (current.sample group) (previous.sample group)) →
      ∃ rows, (Report.rows current previous).outcome = .ok rows) ∧
    (∀ rows, (Report.rows current previous).outcome = .ok rows ↔
      (∀ group ∈ reported current previous,
        Rated group (current.sample group) (previous.sample group)) ∧
      ListsAll current previous rows) ∧
    ∀ rows, (Report.rows current previous).outcome = .ok rows →
      (rows.map Row.key).Nodup ∧
      ∀ row ∈ rows, row.dropPps = none ↔ row.label = labels.rx := by
  refine ⟨exists_rows, fun _ => rows_eq_ok_iff_listsAll, fun rows outcome => ⟨?_, ?_⟩⟩
  · obtain ⟨parts, given, rfl⟩ := rows_eq_ok_iff.mp outcome
    exact nodup_flatten given (reported_nodup current previous)
  · intro row member
    obtain ⟨group, -, -, part, lists, inPart⟩ := exists_lists_of_mem_rows outcome member
    obtain ⟨ident, rate, rfl, -⟩ := lists.exists_rate inPart
    exact dropPps_row_eq_none_iff group ident rate

/-- A snapshot of two cores and two targets. -/
def ofTwoCores : Snapshot where
  rx := ⟨2000000000, ⟨1510, 0⟩, [⟨1500, 0⟩, ⟨10, 0⟩]⟩
  enqueue := [⟨2000000000, ⟨35, 1⟩, [⟨30, 1⟩, ⟨5, 0⟩]⟩, ⟨2000000000, ⟨9, 0⟩, [⟨9, 0⟩, ⟨0, 0⟩]⟩]

/-- A snapshot before it, of three cores of received packets, but one target with one core. -/
def ofThreeCores : Snapshot where
  rx := ⟨1000000000, ⟨517, 0⟩, [⟨500, 0⟩, ⟨10, 0⟩, ⟨7, 0⟩]⟩
  enqueue := [⟨1000000000, ⟨10, 0⟩, [⟨10, 0⟩]⟩]

/-- The rows of both snapshots: those of the fixed groups, and of the only common target. -/
def commonRows : List Row :=
  let second := .finite false 4503599627370496 1022
  [⟨"XDP-RX", "0", 1000, none, second⟩,
    ⟨"XDP-RX", "total", 993, none, second⟩,
    ⟨"cpumap-enqueue", "  0:0  ", 20, some 1, second⟩,
    ⟨"cpumap-enqueue", "sum:0  ", 25, some 1, second⟩,
    ⟨"cpumap_kthread", "total", 0, some 0, .zero⟩,
    ⟨"redirect_err", "total", 0, some 0, .zero⟩]

theorem rows_list_groups_of_common :
    (Report.rows ofTwoCores ofThreeCores).outcome = .ok commonRows ∧
      ListsAll ofTwoCores ofThreeCores commonRows ∧ (commonRows.map Row.key).Nodup := by
  have outcome : (Report.rows ofTwoCores ofThreeCores).outcome = .ok commonRows := by
    decide +kernel
  obtain ⟨-, listed, distinct⟩ := rows_list_groups ofTwoCores ofThreeCores
  exact ⟨outcome, ((listed commonRows).mp outcome).2, (distinct commonRows outcome).1⟩

end Report

end RedirectMonitor
