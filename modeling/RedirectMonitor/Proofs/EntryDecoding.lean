/-
This file says what becomes of the entries of a document, whatever the document is made of. Values
of any kind may stand in any place; decoding either stops at the first step that fails, which a
lookup contains, or gives one counter pair of 64-bit words for each entry.

The content is in the sort by CPU number. Numbers may be of any kind that can be compared, and even
where they make no order the entries are only rearranged. Where all of them are integers the sort
cannot fail: the entries come in ascending order, those of one CPU in the order of the document, and
decoding is nothing but reading their counters in this order.
-/

import RedirectMonitor.Proofs.Permuted
import RedirectMonitor.Proofs.PrintedCounters

namespace RedirectMonitor.Bpftool

open RedirectMonitor.Text

/-! ### Entries and their numbers -/

/-- The entries of a document are the items of its values. -/
def HasEntries (document : Json) (entries : List Json) : Prop :=
  ∃ values, member "values" document = .ok values ∧ items values = .ok entries

/-- The number of an entry is an integer. -/
def IsNumbered (entry : Json) : Prop :=
  ∃ number, member "cpu" entry = .ok (.integer number)

/-- The integer that numbers an entry. -/
def cpuNumber (entry : Json) : Int :=
  match member "cpu" entry with
  | .ok (.integer number) => number
  | _ => 0

theorem IsNumbered.member_eq {entry : Json} (numbered : IsNumbered entry) :
    member "cpu" entry = .ok (.integer (cpuNumber entry)) := by
  obtain ⟨number, found⟩ := numbered
  rw [cpuNumber, found]

/-- Entries with the integers that number them. -/
theorem numbered_of_integers {entries : List Json}
    (integers : ∀ entry ∈ entries, IsNumbered entry) :
    entries.mapM numberedEntry =
      .ok (entries.map fun entry => (.integer (cpuNumber entry), entry)) := by
  refine mapM_of_forall₂ ?_
  rw [List.forall₂_map_left_iff, List.forall₂_same]
  intro entry inEntries
  rw [numberedEntry, (integers entry inEntries).member_eq]
  rfl

/-- What a list of steps comes to is, one by one, what each step comes to. -/
theorem forall₂_of_mapM {α β ε : Type} {step : α → Except ε β} {inputs : List α}
    {results : List β} (found : inputs.mapM step = .ok results) :
    List.Forall₂ (fun input result => step input = .ok result) inputs results := by
  induction inputs generalizing results with
  | nil =>
    obtain rfl := Except.ok.inj found
    exact .nil
  | cons input rest inductionHypothesis =>
    rw [List.mapM_cons] at found
    obtain ⟨result, first, found⟩ := bind_eq_ok_iff.mp found
    obtain ⟨others, later, found⟩ := bind_eq_ok_iff.mp found
    obtain rfl := Except.ok.inj found
    exact .cons first (inductionHypothesis later)

/-- An entry keeps its place when it is numbered. -/
theorem map_snd_of_numbered {entries : List Json} {numbered : List (Json × Json)}
    (found : entries.mapM numberedEntry = .ok numbered) : numbered.map Prod.snd = entries := by
  have each := forall₂_of_mapM found
  clear found
  induction each with
  | nil => rfl
  | @cons entry item entries numbered first later inductionHypothesis =>
    obtain ⟨number, -, same⟩ := bind_eq_ok_iff.mp first
    obtain rfl := Except.ok.inj same
    rw [List.map_cons, inductionHypothesis]

/-! ### Decoding entry by entry -/

/-- Decoding numbers the entries, sorts them, and reads their counters in the order of the sort. -/
theorem decode_of_hasEntries {document : Json} {entries : List Json}
    (has : HasEntries document entries) :
    decode document = (entries.mapM numberedEntry >>= Sorting.sort entryLess >>= fun sorted =>
      (sorted.map Prod.snd).mapM countersOfEntry) := by
  obtain ⟨values, found, parts⟩ := has
  have read (sorted : List (Json × Json)) :
      (sorted.map Prod.snd).mapM countersOfEntry =
        sorted.mapM fun numbered => countersOfEntry numbered.2 := List.mapM_map
  simp only [decode, found, read, bind_assoc]
  show (items values >>= _) = _
  rw [parts]
  rfl

/-- A document decodes only if it has entries. -/
theorem hasEntries_of_decode {document : Json} {counters : List Counters}
    (found : decode document = .ok counters) : ∃ entries, HasEntries document entries := by
  obtain ⟨values, valued, found⟩ := bind_eq_ok_iff.mp found
  obtain ⟨entries, parts, -⟩ := bind_eq_ok_iff.mp found
  exact ⟨entries, values, valued, parts⟩

/-- What decodes are the counters of the entries in some order, each once. -/
theorem exists_perm_of_decode {document : Json} {counters : List Counters}
    (found : decode document = .ok counters) :
    ∃ entries ordered, HasEntries document entries ∧ ordered.Perm entries ∧
      List.Forall₂ (fun entry pair => countersOfEntry entry = .ok pair) ordered counters := by
  obtain ⟨entries, has⟩ := hasEntries_of_decode found
  rw [decode_of_hasEntries has] at found
  obtain ⟨sorted, sorts, read⟩ := bind_eq_ok_iff.mp found
  obtain ⟨numbered, numbers, sorts⟩ := bind_eq_ok_iff.mp sorts
  refine ⟨entries, sorted.map Prod.snd, has, ?_, forall₂_of_mapM read⟩
  rw [← map_snd_of_numbered numbers]
  exact (Sorting.perm_of_sort sorts).map Prod.snd

/-- Entries that integers number are read in the order of these, and those of one number in the
order of the document. -/
theorem decode_of_integers {document : Json} {entries : List Json}
    (has : HasEntries document entries) (integers : ∀ entry ∈ entries, IsNumbered entry) :
    ∃ ordered, Sorting.Ordered cpuNumber ordered ∧
      Sorting.Rearranges cpuNumber ordered entries ∧
      decode document = ordered.mapM countersOfEntry := by
  have ofNumbers : ∀ item ∈ entries.map fun entry => (Json.integer (cpuNumber entry), entry),
      item.1 = .integer (cpuOf item) ∧ cpuOf item = cpuNumber item.2 := by
    intro item member
    obtain ⟨entry, -, rfl⟩ := List.mem_map.mp member
    exact ⟨rfl, rfl⟩
  obtain ⟨sorted, sorts, ordered, same⟩ :=
    Sorting.sort_spec (decides_of_integers fun item member => (ofNumbers item member).1)
  have ofSorted : ∀ item ∈ sorted, cpuOf item = cpuNumber item.2 := fun item member =>
    (ofNumbers item (same.perm.subset member)).2
  refine ⟨sorted.map Prod.snd, ?_, fun value => ?_, ?_⟩
  · refine List.pairwise_map.mpr (ordered.imp_of_mem fun {first second} member member' low => ?_)
    rwa [← ofSorted first member, ← ofSorted second member']
  · have kept := congrArg (List.map Prod.snd) (same value)
    have unnumbered : (entries.map fun entry =>
        (Json.integer (cpuNumber entry), entry)).map Prod.snd = entries := by
      simp [Function.comp_def]
    rw [← unnumbered, List.filter_map, List.filter_map]
    refine Eq.trans ?_ (kept.trans ?_)
    · exact congrArg (List.map Prod.snd) (List.filter_congr fun item member => by
        simp [ofSorted item member])
    · exact congrArg (List.map Prod.snd) (List.filter_congr fun item member => by
        simp [(ofNumbers item member).2])
  · rw [decode_of_hasEntries has, numbered_of_integers integers]
    show (Sorting.sort entryLess _ >>= _) = _
    rw [sorts]
    rfl

/-- Decoding a document of any shape fails, and then the lookup contains the failure, or it gives
one pair of 64-bit words for each entry, read from the entries in some order. Entries that integers
number are read in ascending order, those of one number in the order of the document, and decoding
comes to just what reading them in this order comes to. -/
theorem decode_accounts_for_entries (document : Json) :
    ((∃ error, decode document = .error error ∧
        ∀ output, Json.readDocument (Utf8.decodeLossy output) = .ok document →
          readOutput output = .error (.contained (.malformed error))) ∨
      ∃ counters entries ordered, decode document = .ok counters ∧
        HasEntries document entries ∧ ordered.Perm entries ∧
        List.Forall₂ (fun entry pair => countersOfEntry entry = .ok pair) ordered counters ∧
        counters.length = entries.length ∧ ∀ pair ∈ counters, pair.IsWord) ∧
    ∀ entries, HasEntries document entries → (∀ entry ∈ entries, IsNumbered entry) →
      ∃ ordered, Sorting.Ordered cpuNumber ordered ∧
        Sorting.Rearranges cpuNumber ordered entries ∧
        decode document = ordered.mapM countersOfEntry := by
  refine ⟨?_, fun entries has integers => decode_of_integers has integers⟩
  cases outcome : decode document with
  | error error =>
    refine .inl ⟨error, rfl, fun output read => ?_⟩
    simp only [readOutput, read, outcome]
  | ok counters =>
    obtain ⟨entries, ordered, has, same, each⟩ := exists_perm_of_decode outcome
    exact .inr ⟨counters, entries, ordered, rfl, has, same, each,
      each.length_eq.symm.trans same.length_eq, decode_isWord outcome⟩

/-- An entry of any number, even one that no CPU has. -/
def entryNumbered (number : Int) (pair : Counters) : Json :=
  .object [(Json.key "cpu", .integer number),
    (Json.key "value", .array ((pairBytes pair).map byteValue))]

/-- A document with two entries of one number, and one of a negative number between them. -/
def repetitive : Json :=
  .object [(Json.key "values",
    .array [entryNumbered 2 ⟨1, 7⟩, entryNumbered (-5) ⟨2, 8⟩, entryNumbered 2 ⟨3, 9⟩])]

theorem decode_accounts_for_repetitive :
    ∃ ordered, Sorting.Ordered cpuNumber ordered ∧
      ordered.filter (fun entry => cpuNumber entry = 2) =
        [entryNumbered 2 ⟨1, 7⟩, entryNumbered 2 ⟨3, 9⟩] ∧
      ordered.mapM countersOfEntry = .ok [⟨2, 8⟩, ⟨1, 7⟩, ⟨3, 9⟩] := by
  have integers : ∀ entry ∈ [entryNumbered 2 ⟨1, 7⟩, entryNumbered (-5) ⟨2, 8⟩,
      entryNumbered 2 ⟨3, 9⟩], IsNumbered entry := by
    simp only [List.forall_mem_cons]
    exact ⟨⟨2, rfl⟩, ⟨-5, rfl⟩, ⟨2, rfl⟩, fun _ member => absurd member List.not_mem_nil⟩
  obtain ⟨ordered, inOrder, same, read⟩ :=
    (decode_accounts_for_entries repetitive).2 _ ⟨_, rfl, rfl⟩ integers
  have computed : decode repetitive = .ok [⟨2, 8⟩, ⟨1, 7⟩, ⟨3, 9⟩] := by decide +kernel
  exact ⟨ordered, inOrder, same 2, read.symm.trans computed⟩

end RedirectMonitor.Bpftool
