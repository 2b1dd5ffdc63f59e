/-
This file says whose counters the cores of a sample hold after a reading. The tool prints an entry
for each CPU with the number of the CPU, and the reading drops these numbers: it sorts the entries
by them and compares only how many there are with how many cores there are.

The content is that a core holds the counters of its own CPU just where the entries are numbered
from zero on without gaps and without repetitions. Nothing else is asked of the numbers, so that an
entry whose number is missing, repeated, negative or too high fails no reading; a core then holds
the counters of the entry that the numbers below it leave for its place.
-/

import RedirectMonitor.Proofs.EntryDecoding
import RedirectMonitor.Proofs.RowListing

namespace RedirectMonitor

namespace Sorting

variable {α κ : Type} [LinearOrder κ] {rank : α → κ} {items : List α} {place : Nat} {item : α}

/-- What holds of all items before one of which it holds, holds of as many items from the front as
it holds of at all. -/
theorem holds_iff_lt_countP (holds : α → Bool)
    (leads : items.Pairwise fun earlier later => holds later = true → holds earlier = true)
    (found : items[place]? = some item) : holds item = true ↔ place < items.countP holds := by
  induction items generalizing place with
  | nil => simp at found
  | cons first rest inductionHypothesis =>
    obtain ⟨before, leads⟩ := List.pairwise_cons.mp leads
    cases place with
    | zero =>
      obtain rfl : first = item := by simpa using found
      refine ⟨fun yes => ?_, fun some => ?_⟩
      · rw [List.countP_cons_of_pos yes]
        exact Nat.succ_pos _
      · obtain ⟨other, member, yes⟩ := List.countP_pos_iff.mp some
        rcases List.mem_cons.mp member with rfl | later
        · exact yes
        · exact before other later yes
    | succ place =>
      have found : rest[place]? = some item := found
      have later : item ∈ rest := List.mem_of_getElem? found
      rw [inductionHypothesis leads found]
      by_cases yes : holds first = true
      · rw [List.countP_cons_of_pos yes, Nat.succ_lt_succ_iff]
      · have none : rest.countP holds = 0 := List.countP_eq_zero.mpr fun other member holds' =>
          yes (before other member holds')
        rw [List.countP_cons_of_neg yes, none]
        simp

/-- The item at a place of a list in order has a rank just where the items of lower ranks do not
fill the list beyond this place, and those up to this rank do. -/
theorem Ordered.rank_eq_iff (ordered : Ordered rank items) (found : items[place]? = some item)
    (value : κ) :
    rank item = value ↔
      items.countP (fun item => decide (rank item < value)) ≤ place ∧
        place < items.countP fun item => decide (rank item ≤ value) := by
  have lower := holds_iff_lt_countP (fun item => decide (rank item < value))
    (ordered.imp fun {_ _} low => by simpa using low.trans_lt) found
  have upTo := holds_iff_lt_countP (fun item => decide (rank item ≤ value))
    (ordered.imp fun {_ _} low => by simpa using low.trans) found
  rw [← upTo, ← not_lt, ← lower, decide_eq_true_iff, decide_eq_true_iff, not_lt]
  exact le_antisymm_iff.trans and_comm

/-- Items of distinct ranks are told apart by them. -/
theorem filter_rank_eq (distinct : (items.map rank).Nodup) (member : item ∈ items) :
    items.filter (fun other => rank other = rank item) = [item] := by
  induction items with
  | nil => exact absurd member List.not_mem_nil
  | cons first rest inductionHypothesis =>
    obtain ⟨apart, distinct⟩ := List.nodup_cons.mp distinct
    rcases List.mem_cons.mp member with rfl | later
    · have none : rest.filter (fun other => rank other = rank item) = [] :=
        List.filter_eq_nil_iff.mpr fun other inRest same =>
          apart (List.mem_map.mpr ⟨other, inRest, of_decide_eq_true same⟩)
      simp [none]
    · have different : rank first ≠ rank item := fun same =>
        apart (same ▸ List.mem_map_of_mem later)
      rw [List.filter_cons_of_neg (by simpa using different)]
      exact inductionHypothesis distinct later

end Sorting

namespace Bpftool

/-! ### The entries of a CPU -/

/-- The integer that numbers an entry, if one does. -/
def cpu? (entry : Json) : Option Int :=
  match member "cpu" entry with
  | .ok (.integer number) => some number
  | _ => none

theorem cpu?_of_isNumbered {entry : Json} (numbered : IsNumbered entry) :
    cpu? entry = some (cpuNumber entry) := by
  rw [cpu?, numbered.member_eq]

theorem isNumbered_of_cpu? {entry : Json} {number : Int} (found : cpu? entry = some number) :
    IsNumbered entry := by
  unfold cpu? at found
  split at found
  · rename_i number' same
    exact ⟨number', same⟩
  · cases found

/-- The entries of a CPU. -/
def entriesOf (cpu : Nat) (entries : List Json) : List Json :=
  entries.filter fun entry => cpu? entry = some (cpu : Int)

/-- Each core holds the pair of the only entry of its CPU, and there are no other entries. -/
structure Attributed (entries : List Json) (cores : List Counters) : Prop where
  count : entries.length = cores.length
  own : ∀ cpu pair, cores[cpu]? = some pair →
    ∃ entry, entriesOf cpu entries = [entry] ∧ countersOfEntry entry = .ok pair

/-- The numbers of so many CPUs. -/
def cpuNumbers (cores : Nat) : List Int := (List.range cores).map fun cpu : Nat => (cpu : Int)

/-- The entries are numbered from zero on, each number once, in whatever order. -/
def NumberedOnce (cores : Nat) (entries : List Json) : Prop :=
  (entries.map cpu?).Perm ((cpuNumbers cores).map some)

instance (cores : Nat) (entries : List Json) : Decidable (NumberedOnce cores entries) :=
  inferInstanceAs (Decidable (List.Perm _ _))

theorem pairwise_cpuNumbers (cores : Nat) : (cpuNumbers cores).Pairwise (· < ·) :=
  List.pairwise_map.mpr (List.pairwise_lt_range.imp fun {_ _} low => Int.ofNat_lt.mpr low)

theorem nodup_cpuNumbers (cores : Nat) : (cpuNumbers cores).Nodup :=
  (pairwise_cpuNumbers cores).imp fun {_ _} low => low.ne

theorem NumberedOnce.isNumbered {cores : Nat} {entries : List Json}
    (once : NumberedOnce cores entries) : ∀ entry ∈ entries, IsNumbered entry := by
  intro entry inEntries
  obtain ⟨number, -, same⟩ := List.mem_map.mp (once.subset (List.mem_map_of_mem inEntries))
  exact isNumbered_of_cpu? same.symm

theorem map_cpu? {entries : List Json} (integers : ∀ entry ∈ entries, IsNumbered entry) :
    entries.map cpu? = (entries.map cpuNumber).map some := by
  rw [List.map_map]
  exact List.map_congr_left fun entry inEntries => cpu?_of_isNumbered (integers entry inEntries)

theorem entriesOf_eq_filter {entries : List Json} (integers : ∀ entry ∈ entries, IsNumbered entry)
    (cpu : Nat) :
    entriesOf cpu entries = entries.filter fun entry => cpuNumber entry = (cpu : Int) :=
  List.filter_congr fun entry inEntries => by
    simp only [cpu?_of_isNumbered (integers entry inEntries), Option.some.injEq]

/-- Entries in the order of their numbers, these being those from zero on, stand at the places that
their numbers tell. -/
theorem map_cpuNumber_eq {cores : Nat} {ordered : List Json}
    (inOrder : Sorting.Ordered cpuNumber ordered)
    (all : (ordered.map cpuNumber).Perm (cpuNumbers cores)) :
    ordered.map cpuNumber = cpuNumbers cores :=
  List.Perm.eq_of_pairwise (fun _ _ _ _ low high => Int.le_antisymm low high)
    (List.pairwise_map.mpr inOrder) ((pairwise_cpuNumbers cores).imp fun {_ _} low => low.le) all

variable {document : Json} {entries : List Json} {counters : List Counters}

/-- A document decodes to one pair for each entry. -/
theorem length_of_decode (has : HasEntries document entries)
    (decoded : decode document = .ok counters) : entries.length = counters.length := by
  obtain ⟨entries', ordered, has', same, each⟩ := exists_perm_of_decode decoded
  obtain ⟨values, found, parts⟩ := has
  obtain ⟨values', found', parts'⟩ := has'
  obtain rfl := Except.ok.inj (found.symm.trans found')
  obtain rfl := Except.ok.inj (parts.symm.trans parts')
  exact same.length_eq.symm.trans each.length_eq

/-- Where no number is missing and none is repeated, each pair is that of the entry of its CPU. -/
theorem attributed_of_numberedOnce (has : HasEntries document entries)
    (decoded : decode document = .ok counters) (once : NumberedOnce counters.length entries) :
    Attributed entries counters := by
  have integers := once.isNumbered
  obtain ⟨ordered, inOrder, same, read⟩ := decode_of_integers has integers
  have each := forall₂_of_mapM (read.symm.trans decoded)
  have numbers : ordered.map cpuNumber = cpuNumbers counters.length := by
    rw [NumberedOnce, map_cpu? integers] at once
    exact map_cpuNumber_eq inOrder ((same.perm.map cpuNumber).trans
      ((List.map_perm_map_iff (Option.some_injective Int)).mp once))
  refine ⟨length_of_decode has decoded, fun cpu pair found => ?_⟩
  obtain ⟨inside, rfl⟩ := List.getElem?_eq_some_iff.mp found
  have inOrdered : cpu < ordered.length := each.length_eq ▸ inside
  have own : cpuNumber ordered[cpu] = (cpu : Int) := by
    have atPlace := congrArg (·[cpu]?) numbers
    simpa [cpuNumbers, inside, inOrdered] using atPlace
  have distinct : (ordered.map cpuNumber).Nodup :=
    numbers ▸ nodup_cpuNumbers counters.length
  refine ⟨ordered[cpu], ?_, each.get inOrdered inside⟩
  rw [entriesOf_eq_filter integers, ← same, ← own]
  exact Sorting.filter_rank_eq distinct (List.getElem_mem inOrdered)

/-- Where each core holds the pair of the only entry of its CPU, no number is missing and none is
repeated. -/
theorem Attributed.numberedOnce (attributed : Attributed entries counters) :
    NumberedOnce counters.length entries := by
  have present : (cpuNumbers counters.length).map some ⊆ entries.map cpu? := by
    intro number member
    obtain ⟨number, inNumbers, rfl⟩ := List.mem_map.mp member
    obtain ⟨cpu, inRange, rfl⟩ := List.mem_map.mp inNumbers
    obtain ⟨entry, only, -⟩ :=
      attributed.own cpu _ (List.getElem?_eq_getElem (List.mem_range.mp inRange))
    have own : entry ∈ entriesOf cpu entries := only ▸ List.mem_singleton_self entry
    obtain ⟨inEntries, found⟩ := List.mem_filter.mp own
    exact List.mem_map.mpr ⟨entry, inEntries, of_decide_eq_true found⟩
  have distinct : ((cpuNumbers counters.length).map some).Nodup :=
    (nodup_cpuNumbers counters.length).map (Option.some_injective Int)
  refine ((List.subperm_of_subset distinct present).perm_of_length_le ?_).symm
  simp [cpuNumbers, attributed.count]

/-! ### What the tool printed -/

variable {limit : Type}

/-- A run of the tool for a key is successful and prints a document with these entries. -/
def Prints (tool : Tool limit) (run : List String → Run) (map : String) (key : Int)
    (entries : List Json) : Prop :=
  ∃ words output errors document, command tool map key = .ok words ∧
    run words = .ended 0 output errors ∧
    Json.readDocument (Utf8.decodeLossy output) = .ok document ∧ HasEntries document entries

variable {tool : Tool limit} {run : List String → Run} {map : String} {key : Int}

/-- Where a document was printed, what is looked up is what it decodes to. -/
theorem exists_document_of_prints (prints : Prints tool run map key entries) :
    ∃ document, HasEntries document entries ∧
      ∀ counters, lookup tool run map key = .ok counters ↔ decode document = .ok counters := by
  obtain ⟨words, output, errors, document, command, ended, read, has⟩ := prints
  refine ⟨document, has, fun counters => ?_⟩
  simp only [lookup, command, ended, interpret, readOutput, read]
  cases decode document <;> simp

/-- Counters are looked up only where a document was printed. -/
theorem exists_prints_of_lookup (found : lookup tool run map key = .ok counters) :
    ∃ entries, Prints tool run map key entries := by
  unfold lookup at found
  split at found
  · cases found
  rename_i words command
  cases ended : run words with
  | notStarted | timedOut | refused => simp [interpret, ended] at found
  | ended status output errors =>
    simp only [interpret, ended] at found
    split at found
    · cases found
    rename_i successful
    obtain rfl := not_not.mp successful
    unfold readOutput at found
    dsimp only at found
    split at found
    · cases found
    · cases found
    · cases found
    rename_i document read
    split at found
    · rename_i decoded
      obtain ⟨entries, has⟩ := hasEntries_of_decode decoded
      exact ⟨entries, words, output, errors, document, command, ended, read, has⟩
    · cases found

theorem length_of_lookup (prints : Prints tool run map key entries)
    (found : lookup tool run map key = .ok counters) : entries.length = counters.length := by
  obtain ⟨document, has, same⟩ := exists_document_of_prints prints
  exact length_of_decode has ((same counters).mp found)

/-- Counters that are looked up are those of the CPUs that the entries name, just where each CPU is
named once. -/
theorem attributed_iff_of_lookup (prints : Prints tool run map key entries)
    (found : lookup tool run map key = .ok counters) :
    Attributed entries counters ↔ NumberedOnce counters.length entries := by
  obtain ⟨document, has, same⟩ := exists_document_of_prints prints
  exact ⟨Attributed.numberedOnce, attributed_of_numberedOnce has ((same counters).mp found)⟩

/-- Entries that integers number are looked up as soon as each has its bytes, whichever integers
these are. -/
theorem exists_lookup_iff (prints : Prints tool run map key entries)
    (integers : ∀ entry ∈ entries, IsNumbered entry) :
    (∃ counters, lookup tool run map key = .ok counters) ↔
      ∀ entry ∈ entries, ∃ pair, countersOfEntry entry = .ok pair := by
  obtain ⟨document, has, same⟩ := exists_document_of_prints prints
  obtain ⟨ordered, -, rearranged, read⟩ := decode_of_integers has integers
  simp only [same, read]
  refine ⟨fun ⟨counters, found⟩ entry inEntries => ?_, fun each => ?_⟩
  · obtain ⟨pair, -, own⟩ := Report.exists_of_mem_right (forall₂_of_mapM found).flip
      (rearranged.perm.symm.subset inEntries)
    exact ⟨pair, own⟩
  · obtain ⟨counters, own⟩ := Report.exists_forall₂ fun entry inOrdered =>
      each entry (rearranged.perm.subset inOrdered)
    exact ⟨counters, mapM_of_forall₂ own.flip⟩

/-- Entries that integers number are looked up in the order of these, so that the number of entries
with lower numbers tells the place of an entry. -/
theorem exists_ordered_of_lookup (prints : Prints tool run map key entries)
    (integers : ∀ entry ∈ entries, IsNumbered entry)
    (found : lookup tool run map key = .ok counters) :
    ∃ ordered, ordered.Perm entries ∧
      List.Forall₂ (fun entry pair => countersOfEntry entry = .ok pair) ordered counters ∧
      ∀ (core : Nat) (entry : Json) (number : Int), ordered[core]? = some entry →
        (cpuNumber entry = number ↔
          entries.countP (fun other => cpuNumber other < number) ≤ core ∧
            core < entries.countP fun other => cpuNumber other ≤ number) := by
  obtain ⟨document, has, same⟩ := exists_document_of_prints prints
  obtain ⟨ordered, inOrder, rearranged, read⟩ := decode_of_integers has integers
  refine ⟨ordered, rearranged.perm,
    forall₂_of_mapM (read.symm.trans ((same counters).mp found)), fun core entry number place => ?_⟩
  rw [inOrder.rank_eq_iff place number, rearranged.perm.countP_eq, rearranged.perm.countP_eq]

end Bpftool

namespace World

variable {σ limit : Type}

/-- A reading leaves a sample as it was, or gives its cores the values that were looked up, and then
the tool has printed a document. In that case each core holds the pair of the only entry of its CPU
just where the entries are numbered from zero on, each number once. Where integers number the
entries, whichever these are, the reading has values as soon as there are as many entries as cores,
each entry has its bytes and the clock answers; a core then holds the pair of an entry of which the
number of those below it tells the core. -/
theorem ofTool_attributes_iff_numbered_once (tool : Bpftool.Tool limit)
    (run : List String → σ → Bpftool.Run × σ) (clock : σ → Except ClockFault Int × σ)
    (map : String) (key : Int) (state : σ) (sample : Sample) :
    let world := ofTool tool run clock
    let reading := (world.read sample.cores.length map key state).1
    let after := sample.receive reading
    let Printed := Bpftool.Prints tool (fun words => (run words state).1) map key
    ((∀ time values, reading ≠ .taken time values) → after = sample) ∧
    (∀ time values, reading = .taken time values →
      after.cores = values ∧ ∃ entries, Printed entries) ∧
    ∀ entries, Printed entries →
      (∀ time values, reading = .taken time values →
        (Bpftool.Attributed entries after.cores ↔
          Bpftool.NumberedOnce sample.cores.length entries)) ∧
      ((∀ entry ∈ entries, Bpftool.IsNumbered entry) →
        ((∃ time values, reading = .taken time values) ↔
          entries.length = sample.cores.length ∧
            (∀ entry ∈ entries, ∃ pair, Bpftool.countersOfEntry entry = .ok pair) ∧
            ∃ time, (clock (world.lookup map key state).2).1 = .ok time) ∧
        ∀ time values, reading = .taken time values →
          ∃ ordered, ordered.Perm entries ∧
            List.Forall₂ (fun entry pair => Bpftool.countersOfEntry entry = .ok pair) ordered
              after.cores ∧
            ∀ (core : Nat) (entry : Json) (number : Int), ordered[core]? = some entry →
              (Bpftool.cpuNumber entry = number ↔
                entries.countP (fun other => Bpftool.cpuNumber other < number) ≤ core ∧
                  core < entries.countP fun other => Bpftool.cpuNumber other ≤ number)) := by
  intro world reading after Printed
  have fits : reading.Fits sample.cores.length := world.read_fits _ map key state
  have received : after = reading.sample?.getD sample :=
    sample.receive_of_fits reading _ fits (Int.toNat_natCast _).symm
  have answered (time : Int) (values : List Counters) : reading = .taken time values ↔
      Bpftool.lookup tool (fun words => (run words state).1) map key = .ok values ∧
        (values.length : Int) = sample.cores.length ∧
        (clock (world.lookup map key state).2).1 = .ok time := by
    rw [← ofTool_lookup tool run clock]
    exact world.read_eq_taken_iff _ map key state time values
  have stored {time : Int} {values : List Counters} (taken : reading = .taken time values) :
      after.cores = values := by
    rw [received, taken]
    rfl
  refine ⟨fun untaken => ?_, fun time values taken => ?_, fun entries printed => ⟨?_, ?_⟩⟩
  · cases result : reading with
    | taken time values => exact absurd result (untaken time values)
    | unread failure | broken fault => rw [received, result]; rfl
  · exact ⟨stored taken, Bpftool.exists_prints_of_lookup ((answered time values).mp taken).1⟩
  · intro time values taken
    obtain ⟨found, counted, -⟩ := (answered time values).mp taken
    rw [stored taken, ← Int.ofNat_inj.mp counted]
    exact Bpftool.attributed_iff_of_lookup printed found
  · refine fun integers => ⟨?_, fun time values taken => ?_⟩
    · rw [← Bpftool.exists_lookup_iff printed integers]
      simp only [answered]
      constructor
      · rintro ⟨time, values, found, counted, now⟩
        have each := Bpftool.length_of_lookup printed found
        exact ⟨each.trans (Int.ofNat_inj.mp counted), ⟨values, found⟩, time, now⟩
      · rintro ⟨counted, ⟨values, found⟩, time, now⟩
        have each := Bpftool.length_of_lookup printed found
        exact ⟨time, values, found, congrArg Nat.cast (each.symm.trans counted), now⟩
    · rw [stored taken]
      exact Bpftool.exists_ordered_of_lookup printed integers ((answered time values).mp taken).1

/-- What a tool prints that leaves out a CPU: the counters of the first and of the third. -/
def gappedText (first third : Counters) : List Char :=
  Bpftool.objectText [Bpftool.memberText "values"
    (Bpftool.listText [Bpftool.valueText 0 first, Bpftool.valueText 2 third])]

/-- The entries of that text. -/
def gappedEntries (first third : Counters) : List Json :=
  [Bpftool.entryValue 0 first, Bpftool.entryValue 2 third]

/-- The document of that text. -/
def gappedDocument (first third : Counters) : Json :=
  .object [(Json.key "values", .array (gappedEntries first third))]

theorem written_gappedText (first third : Counters) :
    Json.Written (gappedDocument first third) (gappedText first third) := by
  have entries : Json.Spelled 989 (.array (gappedEntries first third))
      (Bpftool.listText [Bpftool.valueText 0 first, Bpftool.valueText 2 third]) :=
    .inr (.inl (.mk (Json.listed_join (.cons (Bpftool.spelled_valueText 986 first (by decide))
      (.cons (Bpftool.spelled_valueText 986 third (by decide)) .nil)))))
  have spelled : Json.Spelled Json.nestingLimit (gappedDocument first third)
      (gappedText first third) :=
    .inr (.inr (.mk (Json.listed_join
      (.cons (Bpftool.spelled_memberText "values" (by decide) entries) .nil))))
  simpa using Json.Written.mk Json.blanks_nil spelled Json.blanks_nil

theorem ofTool_passes_gap :
    let run := fun (_ : List String) (state : Unit) =>
      (Bpftool.Run.ended 0 (Utf8.encode (gappedText ⟨10, 1⟩ ⟨20, 2⟩)) [], state)
    let world := ofTool plainTool run fun state => (.ok 7, state)
    let after := (Sample.blank 2).receive (world.read 2 "rx_cnt" 0 ()).1
    after.cores = [⟨10, 1⟩, ⟨20, 2⟩] ∧
      ¬Bpftool.Attributed (gappedEntries ⟨10, 1⟩ ⟨20, 2⟩) after.cores := by
  intro run world after
  have prints : Bpftool.Prints plainTool (fun words => (run words ()).1) "rx_cnt" 0
      (gappedEntries ⟨10, 1⟩ ⟨20, 2⟩) := by
    obtain ⟨words, command⟩ :=
      Bpftool.command_ok plainTool "rx_cnt" (show (0 : Int) ≤ 0 by decide) (by decide)
    refine ⟨words, _, _, gappedDocument ⟨10, 1⟩ ⟨20, 2⟩, command, rfl, ?_, _, rfl, rfl⟩
    rw [Utf8.decodeLossy_encode]
    exact Json.readDocument_of_written (written_gappedText ⟨10, 1⟩ ⟨20, 2⟩)
  obtain ⟨-, stored, ofPrinted⟩ := ofTool_attributes_iff_numbered_once plainTool run
    (fun state => (.ok 7, state)) "rx_cnt" 0 () (Sample.blank 2)
  obtain ⟨attributed, -⟩ := ofPrinted _ prints
  have taken : (world.read 2 "rx_cnt" 0 ()).1 = .taken 7 [⟨10, 1⟩, ⟨20, 2⟩] := by decide +kernel
  refine ⟨(stored _ _ taken).1, fun own => ?_⟩
  exact absurd ((attributed _ _ taken).mp own) (by decide +kernel)

end World

end RedirectMonitor
