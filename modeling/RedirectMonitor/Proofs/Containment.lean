/-
This file says what can come out of a lookup that runs the tool, whatever the tool does. A run
that does not start, does not end in time, or ends with a failure status is a failure that the
reading contains, and so is output that is no JSON text or does not decode; where output decodes,
its counters are words of 64 bits.

The content is that of all that a process can come to, a fault leaves the lookup just where the
output of a successful run exceeds a limit of the reader of JSON: an integer of too many digits, or
containers nested too deep. The other fault is that of a run which the system refuses, so that there
is no such process. A reading lets these faults pass, and beside them only the failure of the clock.
-/

import RedirectMonitor.Proofs.Deliveries
import RedirectMonitor.Proofs.JsonLimits

namespace RedirectMonitor

/-! ### Counters of 64 bits -/

/-- Both counters of a pair are words of 64 bits. -/
def Counters.IsWord (pair : Counters) : Prop :=
  (0 ≤ pair.processed ∧ pair.processed < (Nat.pow 2 64 : Int)) ∧
    0 ≤ pair.dropped ∧ pair.dropped < (Nat.pow 2 64 : Int)

namespace Bpftool

theorem littleEndian_lt (bytes : List Nat) (small : ∀ byte ∈ bytes, byte < 256) :
    littleEndian bytes < Nat.pow 256 bytes.length := by
  induction bytes with
  | nil => exact Nat.one_pos
  | cons byte rest inductionHypothesis =>
    have first := small byte List.mem_cons_self
    have later := inductionHypothesis fun other member =>
      small other (List.mem_cons_of_mem _ member)
    rw [littleEndian]
    show byte + 256 * littleEndian rest < Nat.pow 256 rest.length * 256
    omega

theorem byte_lt {value : Json} {number : Nat} (found : byte value = .ok number) : number < 256 := by
  unfold byte at found
  split at found
  · split at found
    · split at found
      · rename_i inRange
        obtain rfl := Except.ok.inj found
        omega
      · cases found
    · cases found
  · cases found

/-- What a list of steps comes to is made of what each step comes to. -/
theorem exists_of_mem_mapM {α β ε : Type} {step : α → Except ε β} {inputs : List α}
    {results : List β} (found : inputs.mapM step = .ok results) :
    ∀ result ∈ results, ∃ input ∈ inputs, step input = .ok result := by
  induction inputs generalizing results with
  | nil =>
    obtain rfl := Except.ok.inj found
    exact fun result member => absurd member List.not_mem_nil
  | cons input rest inductionHypothesis =>
    rw [List.mapM_cons] at found
    obtain ⟨value, first, found⟩ := bind_eq_ok_iff.mp found
    obtain ⟨values, later, found⟩ := bind_eq_ok_iff.mp found
    obtain rfl := Except.ok.inj found
    intro result member
    rcases List.mem_cons.mp member with rfl | old
    · exact ⟨input, List.mem_cons_self, first⟩
    · obtain ⟨other, inRest, same⟩ := inductionHypothesis later result old
      exact ⟨other, List.mem_cons_of_mem _ inRest, same⟩

/-- Counters of eight bytes each are words. -/
theorem countersOfBytes_isWord {bytes : List Nat} {pair : Counters}
    (small : ∀ byte ∈ bytes, byte < 256) (found : countersOfBytes bytes = .ok pair) :
    pair.IsWord := by
  have bounded (part : List Nat) (inBytes : part ⊆ bytes) (short : part.length ≤ counterWidth) :
      (littleEndian part : Int) < (Nat.pow 2 64 : Int) := by
    have word : littleEndian part < Nat.pow 256 counterWidth :=
      Nat.lt_of_lt_of_le (littleEndian_lt part fun byte member => small byte (inBytes member))
        (Nat.pow_le_pow_right (by decide) short)
    exact Int.ofNat_lt.mpr word
  unfold countersOfBytes at found
  split at found
  · cases found
  · obtain rfl := Except.ok.inj found
    refine ⟨⟨Int.natCast_nonneg _, bounded _ (List.take_subset _ _) (List.length_take_le _ _)⟩,
      Int.natCast_nonneg _, bounded _ ?_ (List.length_take_le _ _)⟩
    exact List.Subset.trans (List.take_subset _ _) (List.drop_subset _ _)

theorem countersOfEntry_isWord {entry : Json} {pair : Counters}
    (found : countersOfEntry entry = .ok pair) : pair.IsWord := by
  unfold countersOfEntry at found
  obtain ⟨value, -, found⟩ := bind_eq_ok_iff.mp found
  obtain ⟨values, -, found⟩ := bind_eq_ok_iff.mp found
  obtain ⟨numbers, read, found⟩ := bind_eq_ok_iff.mp found
  refine countersOfBytes_isWord (fun number inNumbers => ?_) found
  obtain ⟨text, -, same⟩ := exists_of_mem_mapM read number inNumbers
  exact byte_lt same

/-- What decodes is made of words of 64 bits. -/
theorem decode_isWord {document : Json} {counters : List Counters}
    (found : decode document = .ok counters) : ∀ pair ∈ counters, pair.IsWord := by
  unfold decode at found
  obtain ⟨values, -, found⟩ := bind_eq_ok_iff.mp found
  obtain ⟨entries, -, found⟩ := bind_eq_ok_iff.mp found
  obtain ⟨numbered, -, found⟩ := bind_eq_ok_iff.mp found
  obtain ⟨ordered, -, found⟩ := bind_eq_ok_iff.mp found
  intro pair inCounters
  obtain ⟨entry, -, same⟩ := exists_of_mem_mapM found pair inCounters
  exact countersOfEntry_isWord same

end Bpftool

/-! ### Faults of a lookup -/

/-- The fault that a stop at a limit is. -/
def LookupFault.ofStop? : Json.Stop → Option LookupFault
  | .flawed _ _ => none
  | .tooManyDigits count => some (.tooManyDigits count)
  | .tooDeep container => some (.tooDeep container)

theorem LookupFault.atLimit_of_ofStop? {stop : Json.Stop} {fault : LookupFault}
    (same : ofStop? stop = some fault) : stop.AtLimit := by
  cases stop with
  | flawed flaw left => cases same
  | tooManyDigits count | tooDeep container => exact trivial

namespace Bpftool

/-- What the tool printed exceeds a limit of the reader of JSON. -/
def OutputExceeds (output : List UInt8) (fault : LookupFault) : Prop :=
  ∃ stop, LookupFault.ofStop? stop = some fault ∧
    Json.Exceeds Json.nestingLimit (Json.skipBlanks (Utf8.decodeLossy output)) stop

theorem readOutput_isWord {output : List UInt8} {counters : List Counters}
    (found : readOutput output = .ok counters) : ∀ pair ∈ counters, pair.IsWord := by
  unfold readOutput at found
  dsimp only at found
  split at found
  · cases found
  · cases found
  · cases found
  · split at found
    · rename_i decoded
      obtain rfl := Except.ok.inj found
      exact decode_isWord decoded
    · cases found

/-- Reading output is a fault just where the output exceeds a limit. -/
theorem readOutput_fault_iff (output : List UInt8) (fault : LookupFault) :
    readOutput output = .error (.fault fault) ↔ OutputExceeds output fault := by
  have stops : readOutput output = .error (.fault fault) ↔
      ∃ stop, LookupFault.ofStop? stop = some fault ∧
        Json.readDocument (Utf8.decodeLossy output) = .error stop := by
    unfold readOutput
    dsimp only
    cases Json.readDocument (Utf8.decodeLossy output) with
    | error stop =>
      cases stop with
      | flawed flaw left => simp [LookupFault.ofStop?]
      | tooManyDigits count => simp [LookupFault.ofStop?]
      | tooDeep container => simp [LookupFault.ofStop?]
    | ok document =>
      cases decoded : decode document <;> simp [decoded]
  rw [stops]
  refine exists_congr fun stop => and_congr_right fun same => ?_
  exact Json.readDocument_atLimit_iff (LookupFault.atLimit_of_ofStop? same) _

theorem interpret_isWord {limit : Type} {tool : Tool limit} {map : String} {key : Int} {run : Run}
    {counters : List Counters} (found : interpret tool map key run = .ok counters) :
    ∀ pair ∈ counters, pair.IsWord := by
  cases run with
  | notStarted number reason => cases found
  | timedOut => cases found
  | refused refusal => cases found
  | ended status output errors =>
    unfold interpret at found
    dsimp only at found
    split at found
    · cases found
    · exact readOutput_isWord found

/-- A run of the tool is a fault just where it was successful and its output exceeds a limit, or
where it was refused. -/
theorem interpret_fault_iff {limit : Type} (tool : Tool limit) (map : String) (key : Int)
    (run : Run) (fault : LookupFault) :
    interpret tool map key run = .error (.fault fault) ↔
      (∃ output errors, run = .ended 0 output errors ∧ OutputExceeds output fault) ∨
        ∃ refusal, run = .refused refusal ∧ fault = .run refusal := by
  cases run with
  | notStarted number reason => simp [interpret]
  | timedOut => simp [interpret]
  | refused refusal => simp [interpret, eq_comm]
  | ended status output errors =>
    unfold interpret
    dsimp only
    split
    · rename_i failed
      simp [failed]
    · rename_i succeeded
      obtain rfl := not_not.mp succeeded
      rw [readOutput_fault_iff]
      simp

/-- A key of 32 bits can be written as four bytes. -/
theorem command_ok {limit : Type} (tool : Tool limit) (map : String) {key : Int}
    (natural : 0 ≤ key) (small : key < (Nat.pow 2 32 : Int)) :
    ∃ words, command tool map key = .ok words := by
  have bytes : ∃ bytes, keyBytes key = .ok bytes := by
    have wide : (Nat.pow 2 32 : Int) ≤ (Nat.pow 2 64 : Int) := by decide
    unfold keyBytes
    rw [if_neg (by omega), if_neg (by omega)]
    exact ⟨_, rfl⟩
  obtain ⟨bytes, same⟩ := bytes
  unfold command
  rw [same]
  exact ⟨_, rfl⟩

end Bpftool

namespace World

variable {σ limit : Type}

/-- A lookup in the world of the tool is what its run says. -/
theorem ofTool_lookup (tool : Bpftool.Tool limit) (run : List String → σ → Bpftool.Run × σ)
    (clock : σ → Except ClockFault Int × σ) (map : String) (key : Int) (state : σ) :
    ((ofTool tool run clock).lookup map key state).1 =
      Bpftool.lookup tool (fun words => (run words state).1) map key := by
  unfold ofTool Bpftool.lookup
  dsimp only
  cases Bpftool.command tool map key <;> rfl

/-- What breaks a reading is a fault of its lookup, or a failure of the clock after as many values
as there are cores. -/
theorem read_eq_broken_iff (world : World σ) (cores : Int) (map : String) (key : Int) (state : σ)
    (fault : Fault) :
    (world.read cores map key state).1 = .broken fault ↔
      (∃ cause, (world.lookup map key state).1 = .error (.fault cause) ∧ fault = .lookup cause) ∨
        ∃ values cause, (world.lookup map key state).1 = .ok values ∧
          (values.length : Int) = cores ∧
          (world.clock (world.lookup map key state).2).1 = .error cause ∧
          fault = .error (.clock cause) := by
  unfold World.read
  rcases answer : world.lookup map key state with ⟨failure | values, after⟩
  · cases failure with
    | contained failure => simp
    | fault cause => simp [eq_comm]
  · by_cases counted : (values.length : Int) = cores
    · rcases clocked : world.clock after with ⟨cause | time, later⟩
      · simp [World.stamp, counted, clocked, eq_comm]
      · simp [World.stamp, counted, clocked]
    · simp [counted]

/-- Whatever a tool does that is run for a key of 32 bits, the counters that a lookup gives are
words of 64 bits. Its only faults are those of a successful run whose output exceeds a limit of the
reader of JSON, and, where no process came to anything because the system refused to run it, that
refusal. A reading over it breaks on these and on a failure of the clock, and on nothing else. -/
theorem ofTool_contained_but_for_limits (tool : Bpftool.Tool limit)
    (run : List String → σ → Bpftool.Run × σ) (clock : σ → Except ClockFault Int × σ)
    (cores : Int) (map : String) (key : Int) (state : σ) (natural : 0 ≤ key)
    (small : key < (Nat.pow 2 32 : Int)) :
    let world := ofTool tool run clock
    let answer := Bpftool.lookup tool (fun words => (run words state).1) map key
    (∀ values, answer = .ok values → ∀ pair ∈ values, pair.IsWord) ∧
    (∀ fault, answer = .error (.fault fault) ↔
      ∃ words, Bpftool.command tool map key = .ok words ∧
        ((∃ output errors, (run words state).1 = .ended 0 output errors ∧
            Bpftool.OutputExceeds output fault) ∨
          ∃ refusal, (run words state).1 = .refused refusal ∧ fault = .run refusal)) ∧
    (∀ time values, (world.read cores map key state).1 = .taken time values →
      ∀ pair ∈ values, pair.IsWord) ∧
    ∀ fault, (world.read cores map key state).1 = .broken fault ↔
      (∃ cause, answer = .error (.fault cause) ∧ fault = .lookup cause) ∨
        ∃ values cause, answer = .ok values ∧ (values.length : Int) = cores ∧
          (clock (world.lookup map key state).2).1 = .error cause ∧
          fault = .error (.clock cause) := by
  intro world answer
  obtain ⟨words, command⟩ := Bpftool.command_ok tool map natural small
  have interpreted : answer = Bpftool.interpret tool map key (run words state).1 := by
    show Bpftool.lookup tool _ map key = _
    unfold Bpftool.lookup
    rw [command]
  have same : (world.lookup map key state).1 = answer := ofTool_lookup tool run clock map key state
  have bounded : ∀ values, answer = .ok values → ∀ pair ∈ values, pair.IsWord := by
    intro values found
    rw [interpreted] at found
    exact Bpftool.interpret_isWord found
  refine ⟨bounded, fun fault => ?_, fun time values taken => ?_, fun fault => ?_⟩
  · rw [interpreted, Bpftool.interpret_fault_iff]
    constructor
    · exact fun causes => ⟨words, command, causes⟩
    · rintro ⟨words', command', causes⟩
      obtain rfl := Except.ok.inj (command.symm.trans command')
      exact causes
  · have answered := ((world.read_eq_taken_iff cores map key state time values).mp taken).1
    exact bounded values (same.symm.trans answered)
  · rw [← same]
    exact world.read_eq_broken_iff cores map key state fault

/-- A tool without a time limit. -/
def plainTool : Bpftool.Tool Nat := { directory := .ofString "/maps" }

theorem ofTool_broken_by_deep_output :
    ((ofTool plainTool (fun _ state => (.ended 0 (List.replicate 991 0x5b) [], state))
      fun state => (.ok 1, state)).read 2 "rx_cnt" 0 ()).1 =
        .broken (.lookup (.tooDeep .array)) := by
  have broken := (ofTool_contained_but_for_limits plainTool
    (fun _ state => (.ended 0 (List.replicate 991 0x5b) [], state)) (fun state => (.ok 1, state))
    2 "rx_cnt" 0 () (by decide) (by decide)).2.2.2 (.lookup (.tooDeep .array))
  exact broken.mpr (.inl ⟨.tooDeep .array, by decide +kernel, rfl⟩)

end World

end RedirectMonitor
