/-
This file says that the counters which the tool prints are the counters that a lookup gives. The
bytes of a successful run are the text of a document, however it is laid out; the document tells
the counters of the CPUs, in whatever order; and a reading that expects as many of them stores
each pair under its CPU.
-/

import RedirectMonitor.Proofs.CounterDecoding

namespace RedirectMonitor

open RedirectMonitor.Text

/-! ### Printed texts -/

namespace Json

/-- A text without characters that need an escape. -/
def Plain (content : List Char) : Prop :=
  ∀ character ∈ content, 0x20 ≤ character.toNat ∧ character ≠ '\x22' ∧ character ≠ '\\'

instance (content : List Char) : Decidable (Plain content) := List.decidableBAll _ content

/-- Characters that need no escape are written as themselves. -/
theorem spelledText_of_plain {content : List Char} (plain : Plain content) :
    SpelledText content content := by
  induction content with
  | nil => exact .nil
  | cons character rest inductionHypothesis =>
    obtain ⟨printable, quote, slash⟩ := plain character List.mem_cons_self
    exact .cons (.plain printable quote slash)
      (inductionHypothesis fun other member => plain other (List.mem_cons_of_mem _ member))

theorem blanks_nil : Blanks [] := fun _ member => absurd member List.not_mem_nil

/-- Parts with a comma between any two and no blanks are a list of parts. -/
theorem listed_join {α : Type} {spelled : α → List Char → Prop} {items : List α}
    {texts : List (List Char)} (each : List.Forall₂ spelled items texts) :
    Listed spelled items (join [','] texts) := by
  have separated {item : α} {text : List Char} (first : spelled item text) {items : List α}
      {texts : List (List Char)} (later : List.Forall₂ spelled items texts) :
      Separated spelled (item :: items) (join [','] (text :: texts)) := by
    induction later generalizing item text with
    | nil => simpa [join] using Separated.last blanks_nil first blanks_nil
    | cons second _ inductionHypothesis =>
      simpa [join] using Separated.more blanks_nil first blanks_nil (inductionHypothesis second)
  cases each with
  | nil => exact .none blanks_nil
  | cons first later => exact .some (separated first later)

/-- The digits of a number have no zero in front. -/
theorem areWhole_digits (number : Nat) : AreWhole (digits number) := by
  refine ⟨⟨Nat.toDigits_ne_nil, fun digit member =>
    Nat.isDigit_of_mem_toDigits (by decide) (by decide) member⟩, ?_⟩
  induction number using Nat.strongRecOn with
  | ind number inductionHypothesis =>
    intro zero
    rcases Nat.lt_or_ge number 10 with small | large
    · have single : digits number = [number.digitChar] := Nat.toDigits_of_lt_base small
      rw [single] at zero ⊢
      rw [Option.some.inj zero]
    · -- All digits but the last are those of the tenth part, and that part is not zero.
      have more : digits number = digits (number / 10) ++ [(number % 10).digitChar] :=
        Nat.toDigits_of_base_le (by decide) large
      have nonempty : digits (number / 10) ≠ [] := Nat.toDigits_ne_nil
      rw [more, List.head?_append_of_ne_nil _ nonempty] at zero
      have part := inductionHypothesis (number / 10) (by omega) zero
      have none : number / 10 = 0 := by
        rw [← Nat.ofDigitChars_ten_toDigits (n := number / 10)]
        exact congrArg (Nat.ofDigitChars 10 · 0) part
      omega

theorem numberOf_digits (number : Nat) : numberOf (digits number) = number :=
  Nat.ofDigitChars_ten_toDigits

end Json

namespace Bpftool

/-! ### What the tool prints -/

/-- The value of a byte in what the tool prints. -/
def byteValue (byte : Nat) : Json :=
  .string (codePoints ['0', 'x', (byte / 16).digitChar, (byte % 16).digitChar])

theorem plain_digitChar : ∀ value < 16,
    0x20 ≤ value.digitChar.toNat ∧ value.digitChar ≠ '\x22' ∧ value.digitChar ≠ '\\' := by
  decide

theorem spelledByte_byteValue {byte : Nat} (small : byte < 256) :
    SpelledByte byte (byteValue byte) :=
  .mk small List.mem_cons_self List.mem_cons_self

theorem spelledBytes_map {bytes : List Nat} (small : ∀ byte ∈ bytes, byte < 256) :
    List.Forall₂ SpelledByte bytes (bytes.map byteValue) := by
  rw [List.forall₂_map_right_iff, List.forall₂_same]
  exact fun byte member => spelledByte_byteValue (small byte member)

theorem spelled_byteText {byte : Nat} (small : byte < 256) :
    Json.SpelledScalar (byteValue byte) (byteText byte) := by
  refine .text (Json.spelledText_of_plain fun character member => ?_)
  simp only [List.mem_cons, List.not_mem_nil, or_false] at member
  rcases member with rfl | rfl | rfl | rfl
  · decide
  · decide
  · exact plain_digitChar _ (by omega)
  · exact plain_digitChar _ (by omega)

/-- A value without parts is spelled at every depth. -/
theorem spelled_of_scalar {depth : Nat} {value : Json} {text : List Char}
    (scalar : Json.SpelledScalar value text) : Json.Spelled depth value text := by
  cases depth with
  | zero => exact scalar
  | succ depth => exact .inl scalar

theorem spelled_bytesText (depth : Nat) {bytes : List Nat} (small : ∀ byte ∈ bytes, byte < 256) :
    Json.Spelled (depth + 1) (.array (bytes.map byteValue)) (bytesText bytes) := by
  refine .inr (.inl (.mk (Json.listed_join ?_)))
  rw [List.forall₂_map_left_iff, List.forall₂_map_right_iff, List.forall₂_same]
  exact fun byte member => spelled_of_scalar (spelled_byteText (small byte member))

theorem littleEndianBytes_lt (count number : Nat) :
    ∀ byte ∈ littleEndianBytes count number, byte < 256 := by
  induction count generalizing number with
  | zero => exact fun _ member => absurd member List.not_mem_nil
  | succ count inductionHypothesis =>
    intro byte member
    rcases List.mem_cons.mp member with rfl | later
    · exact Nat.mod_lt _ (by decide)
    · exact inductionHypothesis _ byte later

theorem pairBytes_lt (pair : Counters) : ∀ byte ∈ pairBytes pair, byte < 256 := by
  intro byte member
  rcases List.mem_append.mp member with processed | dropped
  · exact littleEndianBytes_lt 8 _ byte processed
  · exact littleEndianBytes_lt 8 _ byte dropped

/-- A member whose name needs no escape, without blanks. -/
theorem spelled_memberText {spelled : Json → List Char → Prop} (name : String)
    (plain : Json.Plain name.toList)
    {value : Json} {text : List Char} (valued : spelled value text) :
    Json.SpelledMember spelled (name.toList, value) (memberText name text) := by
  have member := Json.SpelledMember.mk (Json.spelledText_of_plain plain) Json.blanks_nil
    Json.blanks_nil valued
  simpa [memberText] using member

/-- The value of an entry in what the tool prints. -/
def entryValue (cpu : Nat) (pair : Counters) : Json :=
  .object [(Json.key "cpu", .integer cpu),
    (Json.key "value", .array ((pairBytes pair).map byteValue))]

theorem spelled_digits {depth number : Nat} (short : (digits number).length ≤ decimalDigitLimit) :
    Json.Spelled depth (.integer number) (digits number) := by
  have same : signed false (Json.numberOf (digits number)) = number := by
    rw [Json.numberOf_digits]
    rfl
  rw [← same]
  exact spelled_of_scalar (.integer (Json.areWhole_digits number) short)

theorem spelled_valueText (depth : Nat) {cpu : Nat} (pair : Counters)
    (short : (digits cpu).length ≤ decimalDigitLimit) :
    Json.Spelled (depth + 2) (entryValue cpu pair) (valueText cpu pair) := by
  have bytes := spelled_bytesText depth (pairBytes_lt pair)
  exact .inr (.inr (.mk (Json.listed_join
    (.cons (spelled_memberText "cpu" (by decide) (spelled_digits short))
      (.cons (spelled_memberText "value" (by decide) bytes) .nil)))))

/-! ### What a lookup gives -/

/-- A successful run that prints a text of a document is read as what the document tells. -/
theorem interpret_of_written {limit : Type} (tool : Tool limit) (map : String) (key : Int)
    {document : Json} {text : List Char} (written : Json.Written document text)
    {pairs : List Counters} (tells : Tells pairs document)
    (words : ∀ pair ∈ pairs, pair.IsWord) (errors : List UInt8) :
    interpret tool map key (.ended 0 (Utf8.encode text) errors) = .ok pairs := by
  unfold interpret readOutput
  simp only [ne_eq, not_true_eq_false, if_false]
  rw [Utf8.decodeLossy_encode, Json.readDocument_of_written written]
  simp only [decode_of_tells tells words]

end Bpftool

namespace World

variable {σ limit : Type}

/-- Where a successful run of the tool prints a text of a document that tells counters, a lookup
gives just these counters in the order of the CPUs, and a reading that expects as many stores each
pair under its CPU. -/
theorem ofTool_reads_what_is_printed (tool : Bpftool.Tool limit)
    (run : List String → σ → Bpftool.Run × σ) (clock : σ → Except ClockFault Int × σ)
    (map : String) (key : Int) (state : σ) {words : List String}
    (command : Bpftool.command tool map key = .ok words) {text : List Char} {errors : List UInt8}
    (printed : (run words state).1 = .ended 0 (Utf8.encode text) errors) {document : Json}
    (written : Json.Written document text) {pairs : List Counters}
    (tells : Bpftool.Tells pairs document) (fits : ∀ pair ∈ pairs, pair.IsWord) :
    let world := ofTool tool run clock
    let reading := (world.read pairs.length map key state).1
    Bpftool.lookup tool (fun words => (run words state).1) map key = .ok pairs ∧
    ∀ time, (clock (world.lookup map key state).2).1 = .ok time →
      reading = .taken time pairs ∧
      ∀ (sample : Sample) (cpu : Nat) (inside : cpu < pairs.length), cpu < sample.cores.length →
        (sample.receive reading).cores[cpu]? = some pairs[cpu] := by
  intro world reading
  have answer : Bpftool.lookup tool (fun words => (run words state).1) map key = .ok pairs := by
    unfold Bpftool.lookup
    rw [command]
    show Bpftool.interpret tool map key (run words state).1 = .ok pairs
    rw [printed]
    exact Bpftool.interpret_of_written tool map key written tells fits errors
  refine ⟨answer, fun time now => ?_⟩
  have found : (world.lookup map key state).1 = .ok pairs :=
    (ofTool_lookup tool run clock map key state).trans answer
  have taken : reading = .taken time pairs :=
    (world.read_eq_taken_iff pairs.length map key state time pairs).mpr ⟨found, rfl, now⟩
  refine ⟨taken, fun sample cpu inside covered => ?_⟩
  have stored : (sample.receive reading).cores =
      pairs.take sample.cores.length ++ sample.cores.drop pairs.length := by
    rw [taken]
    rfl
  rw [stored, List.getElem?_append_left (by simp only [List.length_take]; omega),
    List.getElem?_take_of_lt covered, List.getElem?_eq_getElem inside]

/-- Counters at the ends of their range. -/
def extremes : List Counters :=
  [{ processed := 1, dropped := Nat.pow 2 64 - 1 }, { processed := Nat.pow 2 63, dropped := 0 }]

/-- The entry of the first CPU, its members in the other order and with a byte more. -/
def looseEntry : List Char :=
  Bpftool.objectText [
    Bpftool.memberText "value" (Bpftool.bytesText (Bpftool.pairBytes extremes[0] ++ [255])),
    Bpftool.memberText "cpu" (digits 0)]

/-- A text of these counters that differs from the printed one: with blanks between its tokens and
the entries in the other order. -/
def looseText : List Char :=
  ['\n'] ++ ('\x7b' :: ([' '] ++ Bpftool.memberText "key" (Bpftool.bytesText [3, 0, 0, 0]) ++
    [' '] ++ ',' :: (['\n'] ++ Bpftool.memberText "values" ('[' :: ([' '] ++
      Bpftool.valueText 1 extremes[1] ++ ['\n'] ++ ',' :: (['\t'] ++ looseEntry ++ [])) ++
        [']']) ++ [])) ++ ['\x7d']) ++ ['\r', '\n']

/-- The document of that text. -/
def looseDocument : Json :=
  .object [(Json.key "key", .array ([3, 0, 0, 0].map Bpftool.byteValue)),
    (Json.key "values", .array [Bpftool.entryValue 1 extremes[1],
      .object [(Json.key "value",
          .array ((Bpftool.pairBytes extremes[0] ++ [255]).map Bpftool.byteValue)),
        (Json.key "cpu", .integer 0)]])]

theorem written_looseText : Json.Written looseDocument looseText := by
  have entry : Json.Spelled 988 (.object [(Json.key "value",
      .array ((Bpftool.pairBytes extremes[0] ++ [255]).map Bpftool.byteValue)),
        (Json.key "cpu", .integer 0)]) looseEntry := by
    have small : ∀ byte ∈ Bpftool.pairBytes extremes[0] ++ [255], byte < 256 := by decide
    have number : Json.Spelled 987 (.integer (0 : Nat)) (digits 0) :=
      Bpftool.spelled_digits (by decide)
    exact .inr (.inr (.mk (Json.listed_join
      (.cons (Bpftool.spelled_memberText "value" (by decide) (Bpftool.spelled_bytesText 986 small))
        (.cons (Bpftool.spelled_memberText "cpu" (by decide) number) .nil)))))
  have one : (digits 1).length ≤ decimalDigitLimit := by decide
  have space : Json.Blanks [' '] := by decide
  have line : Json.Blanks ['\n'] := by decide
  have tab : Json.Blanks ['\t'] := by decide
  have ending : Json.Blanks ['\r', '\n'] := by decide
  have entries := Json.Separated.more space
    (Bpftool.spelled_valueText 986 extremes[1] one) line
    (.last tab entry Json.blanks_nil)
  have values : Json.Spelled 989 _ _ := .inr (.inl (.mk (.some entries)))
  have key : ∀ byte ∈ [3, 0, 0, 0], byte < 256 := by decide
  have members := Json.Separated.more space
    (Bpftool.spelled_memberText "key" (by decide) (Bpftool.spelled_bytesText 988 key)) space
    (.last line (Bpftool.spelled_memberText "values" (by decide) values) Json.blanks_nil)
  have document : Json.Spelled 990 _ _ := .inr (.inr (.mk (.some members)))
  exact .mk line document ending

theorem tells_looseDocument : Bpftool.Tells extremes looseDocument := by
  have first : ∀ byte ∈ Bpftool.pairBytes extremes[0] ++ [255], byte < 256 := by decide
  have second : ∀ byte ∈ Bpftool.pairBytes extremes[1] ++ [], byte < 256 := by decide
  have bytes := Bpftool.spelledBytes_map first
  have bytes' := Bpftool.spelledBytes_map second
  exact .mk rfl (.cons (.mk rfl rfl bytes') (.cons (.mk rfl rfl bytes) .nil))
    (.swap (extremes[0], 0) (extremes[1], 1) [])

theorem ofTool_reads_looseText :
    let world := ofTool plainTool (fun _ (state : Unit) =>
      (.ended 0 (Utf8.encode looseText) [], state)) fun state => (.ok 7, state)
    (world.read 2 "rx_cnt" 3 ()).1 = .taken 7 extremes ∧
      ((Sample.blank 2).receive (world.read 2 "rx_cnt" 3 ()).1).cores[1]? = some extremes[1] := by
  intro world
  obtain ⟨words, command⟩ :=
    Bpftool.command_ok plainTool "rx_cnt" (show (0 : Int) ≤ 3 by decide) (by decide)
  have fits : ∀ pair ∈ extremes, pair.IsWord := by
    unfold Counters.IsWord
    decide
  obtain ⟨-, reads⟩ := ofTool_reads_what_is_printed plainTool
    (fun _ (state : Unit) => (.ended 0 (Utf8.encode looseText) [], state))
    (fun state => (.ok 7, state)) "rx_cnt" 3 () command rfl written_looseText
    tells_looseDocument fits
  obtain ⟨taken, stored⟩ := reads 7 rfl
  exact ⟨taken, stored (.blank 2) 1 (by decide) (by decide)⟩

end World

end RedirectMonitor
