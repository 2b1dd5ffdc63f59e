/-
This file says that settings can be written as a command line. Each setting is one word, a switch
with the text of the setting behind an equals sign, and the words stand in any order. Reading them
gives the settings back, also after other values for the same switches.

The content is that a draft is a set of registers, one for each switch. A word writes the register
of its own switch and leaves the others alone, so that what stood in a register before its setting
was given does not count, and neither does the order of the words. What is left is that each setting
is read from its text: a path name from its parts, an integer from its digits, and a whole time
limit from the shortest text of its number.
-/

import RedirectMonitor.Proofs.NormalPaths
import RedirectMonitor.Proofs.PositiveNumbers
import RedirectMonitor.Proofs.WholeNumbers

namespace RedirectMonitor

open RedirectMonitor.Text RedirectMonitor.Switch

/-! ### Numerals -/

/-- The digits of a number are read as the number. -/
theorem Text.readDecimal?_digits {number : Nat}
    (short : (digits number).length ≤ decimalDigitLimit) :
    readDecimal? (digits number) = some (number : Int) :=
  PossibleCpus.readDecimal?_of_spelled
    ⟨(Json.areWhole_digits number).toAreDigits, short, Json.numberOf_digits number⟩

/-- A text that starts with the digits of a number is not the mark that ends the switches. -/
theorem Text.digits_append_ne_endMark (number : Nat) (rest : List Char) :
    digits number ++ rest ≠ endMark := by
  obtain ⟨nonempty, decimal⟩ := (Json.areWhole_digits number).toAreDigits
  intro same
  cases written : digits number with
  | nil => exact nonempty written
  | cons first others =>
    rw [written] at same
    have digit : first.isDigit = true := decimal first (written ▸ List.mem_cons_self)
    rw [(List.cons.inj same).1] at digit
    exact absurd digit (by decide)

theorem Text.digits_ne_endMark (number : Nat) : digits number ≠ endMark :=
  List.append_nil (digits number) ▸ digits_append_ne_endMark number []

/-! ### Settings that can be written -/

namespace Quantity

/-- A positive integer within the digit limit. -/
def IsCount (value : Quantity) : Prop :=
  ∃ number : Nat, 0 < number ∧ (digits number).length ≤ decimalDigitLimit ∧
    value = .whole (number : Int)

/-- A positive whole number of less than 53 bits, as the floating point number that a time limit on
a command line is. -/
def IsWholeTime (value : Quantity) : Prop :=
  ∃ (seconds : Nat) (number : Binary64), 0 < seconds ∧ seconds < 2 ^ 53 ∧
    Binary64.ofInt? (seconds : Int) = some number ∧ value = .real number

theorem IsCount.isPositive {value : Quantity} (count : value.IsCount) : value.IsPositive := by
  obtain ⟨number, positive, -, rfl⟩ := count
  exact (isPositive_whole_iff number).mpr (Int.natCast_pos.mpr positive)

theorem IsWholeTime.isPositive {value : Quantity} (time : value.IsWholeTime) :
    value.IsPositive := by
  obtain ⟨seconds, number, positive, short, exact, rfl⟩ := time
  obtain ⟨significand, shift, same, units, -⟩ := Binary64.exists_ofInt?_exact short
  obtain rfl := Option.some.inj (exact.symm.trans same)
  have above : 0 < significand * 2 ^ shift := by
    rw [units]
    exact Nat.mul_pos positive Binary64.unitsPerOne_pos
  rw [IsPositive, compare?, Binary64.compareInt?, Int.zero_mul]
  exact congrArg some (Int.compare_eq_gt.mpr (Int.natCast_pos.mpr above))

/-- The text of a whole time limit is its digits and a zero behind the point. -/
theorem text_of_ofInt? {seconds : Nat} (positive : 0 < seconds) (short : seconds < 2 ^ 53)
    {number : Binary64} (exact : Binary64.ofInt? (seconds : Int) = some number) :
    (real number).text = digits seconds ++ ['.', '0'] := by
  obtain ⟨significand, shift, same, units, fine⟩ := Binary64.exists_ofInt?_exact short
  obtain rfl := Option.some.inj (exact.symm.trans same)
  exact Binary64.shortest_whole units fine positive short

end Quantity

namespace Settings

/-- The settings have a text: no setting is the mark that ends the switches, the directory is in
normal form, and the numbers are positive and short enough. -/
structure Writable (settings : Settings) : Prop where
  directory : ∃ path ∈ settings.directory, path.IsNormal ∧ path.toChars ≠ endMark
  interval : settings.interval.IsCount
  targets : settings.targets.IsCount
  program : ∃ program ∈ settings.program, program.toList ≠ endMark
  readTimeout : ∀ timeout ∈ settings.readTimeout, timeout.IsWholeTime

/-- The switches that the settings are written with. -/
def switches (settings : Settings) : List Switch :=
  [Switch.mapDirectory, Switch.interval, Switch.targets, Switch.program] ++
    (if settings.readTimeout.isSome then [Switch.readTimeout] else []) ++
    (if settings.liveView then [Switch.liveView] else []) ++
    (if settings.debug then [Switch.debug] else [])

end Settings

namespace CommandLine

/-- A switch given with the text of its setting, a whole time limit with or without the zero behind
its point. -/
inductive Spells (settings : Settings) : Given → Prop
  | mapDirectory {path : PathName} (set : path ∈ settings.directory) :
      Spells settings (.valued .mapDirectory path.toChars rfl)
  | interval : Spells settings (.valued .interval settings.interval.text rfl)
  | targets : Spells settings (.valued .targets settings.targets.text rfl)
  | program {program : String} (set : program ∈ settings.program) :
      Spells settings (.valued .program program.toList rfl)
  | readTimeout {timeout : Quantity} (set : timeout ∈ settings.readTimeout) :
      Spells settings (.valued .readTimeout timeout.text rfl)
  | wholeTimeout {seconds : Nat} {number : Binary64} (positive : 0 < seconds)
      (short : seconds < 2 ^ 53) (exact : Binary64.ofInt? (seconds : Int) = some number)
      (set : .real number ∈ settings.readTimeout) :
      Spells settings (.valued .readTimeout (digits seconds) rfl)
  | liveView (set : settings.liveView = true) : Spells settings (.plain .liveView rfl)
  | debug (set : settings.debug = true) : Spells settings (.plain .debug rfl)

/-- A switch that does not end the reading, given with a numeral or the mark that ends the switches
where it takes a number. -/
def Given.IsWellFormed (given : Given) : Prop :=
  match given.switch with
  | .interval | .targets =>
    ∀ value ∈ given.value, value = endMark ∨ (readDecimal? value).isSome
  | .readTimeout => ∀ value ∈ given.value, value = endMark ∨ (readReal? value).isSome
  | .mapDirectory | .program | .liveView | .debug => True
  | .help => False

/-! ### The registers of a draft -/

/-- What a draft holds for a switch is the setting. -/
def Draft.Holds (draft : Draft) (settings : Settings) : Switch → Prop
  | .help => True
  | .mapDirectory => draft.settings.directory = settings.directory
  | .interval =>
    draft.settings.interval = settings.interval ∧ .interval ∉ draft.withoutNumber
  | .targets => draft.settings.targets = settings.targets ∧ .targets ∉ draft.withoutNumber
  | .program => draft.settings.program = settings.program
  | .readTimeout =>
    draft.settings.readTimeout = settings.readTimeout ∧ .readTimeout ∉ draft.withoutNumber
  | .liveView => draft.settings.liveView = settings.liveView
  | .debug => draft.settings.debug = settings.debug

variable {settings : Settings} {draft next : Draft}

/-- The settings that an empty draft does not hold are the ones that are written. -/
theorem holds_empty {switch : Switch} (other : switch ∉ settings.switches) :
    ({} : Draft).Holds settings switch := by
  cases switch <;> simp_all [Settings.switches, Draft.Holds]

/-- A draft that holds all the settings gives them. -/
theorem Draft.settings_eq_of_holds (holds : ∀ switch, draft.Holds settings switch) :
    draft.settings = settings := by
  obtain ⟨directory, interval, targets, program, readTimeout, liveView, debug⟩ := settings
  obtain ⟨⟨_, _, _, _, _, _, _⟩, _⟩ := draft
  obtain rfl := holds .mapDirectory
  obtain ⟨rfl, -⟩ := holds .interval
  obtain ⟨rfl, -⟩ := holds .targets
  obtain rfl := holds .program
  obtain ⟨rfl, -⟩ := holds .readTimeout
  obtain rfl := holds .liveView
  obtain rfl := holds .debug
  rfl

theorem Draft.Holds.noNumber {switch written : Switch} (holds : draft.Holds settings switch)
    (other : written ≠ switch) : (draft.noNumber written).Holds settings switch := by
  cases switch with
  | interval | targets | readTimeout =>
    exact ⟨holds.1, List.not_mem_cons_of_ne_of_not_mem other.symm holds.2⟩
  | help | mapDirectory | program | liveView | debug => exact holds

theorem Draft.Holds.number {switch written : Switch} {change : Settings → Settings}
    (holds : { draft with settings := change draft.settings }.Holds settings switch) :
    (draft.number written change).Holds settings switch := by
  cases switch with
  | interval | targets | readTimeout =>
    exact ⟨holds.1, fun member => holds.2 (List.mem_of_mem_filter member)⟩
  | help | mapDirectory | program | liveView | debug => exact holds

/-- A value leaves what the draft holds for the other switches. -/
theorem Draft.Holds.give {switch written : Switch} (holds : draft.Holds settings switch)
    {value : Word} (given : draft.give written value = .ok next) (other : written ≠ switch) :
    next.Holds settings switch := by
  cases written with
  | interval | targets =>
    rw [Draft.give, Draft.whole_eq_numeral] at given
    rcases Draft.cases_of_numeral given with rfl | ⟨number, -, rfl⟩
    · exact holds.noNumber other
    · refine Holds.number ?_
      cases switch <;> first | exact absurd rfl other | exact holds
  | readTimeout =>
    rw [Draft.give, Draft.real_eq_numeral] at given
    rcases Draft.cases_of_numeral given with rfl | ⟨number, -, rfl⟩
    · exact holds.noNumber other
    · refine Holds.number ?_
      cases switch <;> first | exact absurd rfl other | exact holds
  | mapDirectory | program =>
    obtain rfl := Except.ok.inj given
    cases switch <;> first | exact absurd rfl other | exact holds
  | help | liveView | debug => exact Except.ok.inj given ▸ holds

/-- So does a switch without a value. -/
theorem Draft.Holds.turnOn {switch turned : Switch} (holds : draft.Holds settings switch)
    (given : draft.turnOn turned = .ok next) (other : turned ≠ switch) :
    next.Holds settings switch := by
  cases turned with
  | help => cases given
  | liveView | debug =>
    obtain rfl := Except.ok.inj given
    cases switch <;> first | exact absurd rfl other | exact holds
  | mapDirectory | interval | targets | program | readTimeout =>
    exact Except.ok.inj given ▸ holds

theorem Draft.Holds.take {switch : Switch} (holds : draft.Holds settings switch) {given : Given}
    (taken : given.take draft = .ok next) (other : given.switch ≠ switch) :
    next.Holds settings switch := by
  obtain ⟨written, _ | value, whole⟩ := given
  · exact holds.turnOn taken other
  · exact holds.give taken other

/-! ### Words that are taken -/

theorem Draft.exists_numeral {switch : Switch} {value : Word} {number? : Option Quantity}
    (readable : value = endMark ∨ number?.isSome) (misuse : Misuse)
    (change : Quantity → Settings → Settings) (draft : Draft) :
    ∃ next, draft.numeral switch value number? misuse change = .ok next := by
  unfold numeral
  split
  · exact ⟨_, rfl⟩
  · rename_i noMark
    obtain ⟨number, numeral⟩ := Option.isSome_iff_exists.mp (readable.resolve_left noMark)
    exact ⟨_, by rw [numeral]⟩

/-- A well-formed switch takes effect on every draft. -/
theorem Given.IsWellFormed.exists_take {given : Given} (wellFormed : given.IsWellFormed)
    (draft : Draft) : ∃ next, given.take draft = .ok next := by
  obtain ⟨switch, value, whole⟩ := given
  cases value with
  | none =>
    show ∃ next, draft.turnOn switch = .ok next
    cases switch with
    | help => exact absurd wellFormed not_false
    | liveView | debug | mapDirectory | interval | targets | program | readTimeout =>
      exact ⟨_, rfl⟩
  | some value =>
    show ∃ next, draft.give switch value = .ok next
    cases switch with
    | interval | targets =>
      rw [Draft.give, Draft.whole_eq_numeral]
      exact Draft.exists_numeral (by simpa using wellFormed value rfl) _ _ draft
    | readTimeout =>
      rw [Draft.give, Draft.real_eq_numeral]
      exact Draft.exists_numeral (by simpa using wellFormed value rfl) _ _ draft
    | mapDirectory | program | help | liveView | debug => exact ⟨_, rfl⟩

/-- Well-formed switches are taken, and leave what the draft holds for the switches that are not
among them. -/
theorem exists_foldlM_take (settings : Settings) {givens : List Given}
    (wellFormed : ∀ given ∈ givens, given.IsWellFormed) (draft : Draft) :
    ∃ last, givens.foldlM Given.take draft = .ok last ∧
      ∀ {switch}, (∀ given ∈ givens, given.switch ≠ switch) → draft.Holds settings switch →
        last.Holds settings switch := by
  induction givens generalizing draft with
  | nil => exact ⟨draft, rfl, fun _ holds => holds⟩
  | cons given givens inductionHypothesis =>
    obtain ⟨now, later⟩ := List.forall_mem_cons.mp wellFormed
    obtain ⟨next, taken⟩ := now.exists_take draft
    obtain ⟨last, folded, kept⟩ := inductionHypothesis later next
    refine ⟨last, ?_, fun others holds => ?_⟩
    · rw [List.foldlM_cons, taken]
      exact folded
    · obtain ⟨other, others⟩ := List.forall_mem_cons.mp others
      exact kept others (holds.take taken other)

theorem Draft.not_mem_number (draft : Draft) (switch : Switch) (change : Settings → Settings) :
    switch ∉ (draft.number switch change).withoutNumber := by
  simp [number]

theorem Draft.numeral_some {value : Word} (noMark : value ≠ endMark) (draft : Draft)
    (switch : Switch) (number : Quantity) (misuse : Misuse)
    (change : Quantity → Settings → Settings) :
    draft.numeral switch value (some number) misuse change =
      .ok (draft.number switch (change number)) :=
  if_neg noMark

/-- An integer is taken from the text of a count. -/
theorem Draft.whole_text {value : Quantity} (count : value.IsCount) (draft : Draft)
    (switch : Switch) (change : Quantity → Settings → Settings) :
    draft.whole switch value.text change = .ok (draft.number switch (change value)) := by
  obtain ⟨number, -, short, rfl⟩ := count
  rw [Quantity.text, decimal_natCast, whole_eq_numeral, readDecimal?_digits short, Option.map_some]
  exact numeral_some (digits_ne_endMark number) draft _ _ _ _

/-- A time limit is taken from its digits, and also with a zero behind the point. -/
theorem Draft.real_digits {seconds : Nat} (positive : 0 < seconds) (short : seconds < 2 ^ 53)
    {number : Binary64} (exact : Binary64.ofInt? (seconds : Int) = some number) {value : Word}
    (digital : value = digits seconds ∨ value = digits seconds ++ ['.', '0']) (draft : Draft)
    (switch : Switch) (change : Quantity → Settings → Settings) :
    draft.real switch value change = .ok (draft.number switch (change (.real number))) := by
  have read : readReal? value = some number := by
    rcases digital with rfl | rfl
    · rw [readReal?_digits positive short, exact]
    · rw [readReal?_digits_point positive short, exact]
  have noMark : value ≠ endMark := by
    rcases digital with rfl | rfl
    · exact digits_ne_endMark seconds
    · exact digits_append_ne_endMark seconds _
  rw [real_eq_numeral, read, Option.map_some]
  exact numeral_some noMark draft _ _ _ _

/-- A setting in words is taken by every draft, which then holds it. -/
theorem Spells.exists_take {given : Given} (spells : Spells settings given)
    (writable : settings.Writable) (draft : Draft) :
    ∃ next, given.take draft = .ok next ∧ next.Holds settings given.switch := by
  cases spells with
  | @mapDirectory path set =>
    obtain ⟨path', set', normal, noMark⟩ := writable.directory
    obtain rfl := Option.mem_unique set set'
    refine ⟨_, rfl, ?_⟩
    show (Draft.given? path.toChars).map PathName.ofString = settings.directory
    rw [Draft.given?, if_neg noMark, Option.map_some, PathName.ofString, String.toList_ofList,
      PathName.ofChars_toChars normal]
    exact set.symm
  | interval =>
    show ∃ next, draft.give .interval settings.interval.text = .ok next ∧ _
    rw [Draft.give, Draft.whole_text writable.interval]
    exact ⟨_, rfl, rfl, draft.not_mem_number _ _⟩
  | targets =>
    show ∃ next, draft.give .targets settings.targets.text = .ok next ∧ _
    rw [Draft.give, Draft.whole_text writable.targets]
    exact ⟨_, rfl, rfl, draft.not_mem_number _ _⟩
  | @program program set =>
    obtain ⟨program', set', noMark⟩ := writable.program
    obtain rfl := Option.mem_unique set set'
    refine ⟨_, rfl, ?_⟩
    show Draft.given? program.toList = settings.program
    rw [Draft.given?, if_neg noMark, String.ofList_toList]
    exact set.symm
  | readTimeout set =>
    obtain ⟨seconds, number, positive, short, exact, rfl⟩ := writable.readTimeout _ set
    show ∃ next, draft.give .readTimeout _ = .ok next ∧ _
    rw [Draft.give, Draft.real_digits positive short exact
      (.inr (Quantity.text_of_ofInt? positive short exact))]
    exact ⟨_, rfl, set.symm, draft.not_mem_number _ _⟩
  | wholeTimeout positive short exact set =>
    show ∃ next, draft.give .readTimeout _ = .ok next ∧ _
    rw [Draft.give, Draft.real_digits positive short exact (.inl rfl)]
    exact ⟨_, rfl, set.symm, draft.not_mem_number _ _⟩
  | liveView set => exact ⟨_, rfl, set.symm⟩
  | debug set => exact ⟨_, rfl, set.symm⟩

/-- Settings in words are taken one by one, and the draft then holds those that are among them and
those that it held before. -/
theorem exists_foldlM_spelled {givens : List Given} (writable : settings.Writable)
    (spelled : ∀ given ∈ givens, Spells settings given) (draft : Draft) :
    ∃ last, givens.foldlM Given.take draft = .ok last ∧
      ∀ {switch}, switch ∈ givens.map Given.switch ∨ draft.Holds settings switch →
        last.Holds settings switch := by
  induction givens generalizing draft with
  | nil => exact ⟨draft, rfl, fun holds => holds.resolve_left List.not_mem_nil⟩
  | cons given givens inductionHypothesis =>
    obtain ⟨now, later⟩ := List.forall_mem_cons.mp spelled
    obtain ⟨next, taken, own⟩ := now.exists_take writable draft
    obtain ⟨last, folded, kept⟩ := inductionHypothesis later next
    refine ⟨last, ?_, fun {switch} holds => kept ?_⟩
    · rw [List.foldlM_cons, taken]
      exact folded
    · by_cases same : given.switch = switch
      · exact .inr (same ▸ own)
      · rcases holds with member | holds
        · exact .inl ((List.mem_cons.mp member).resolve_left fun this => same this.symm)
        · exact .inr (holds.take taken same)

/-- A draft that holds all of them is let through with just these settings. -/
theorem Draft.check_of_holds {draft : Draft} (holds : ∀ switch, draft.Holds settings switch)
    (typed : draft.Typed) (writable : settings.Writable) : draft.check = .ok settings := by
  have same := Draft.settings_eq_of_holds holds
  rw [typed.check_eq_ok_iff, typed.withoutNumber_eq_nil_iff, same]
  exact ⟨rfl, ⟨(holds .interval).2, (holds .targets).2, (holds .readTimeout).2⟩,
    writable.interval.isPositive, writable.targets.isPositive,
    fun timeout set => .inl (writable.readTimeout timeout set).isPositive⟩

/-- Settings written in words, one for each of them and in any order, are read back as they are,
also after other values for the same switches. -/
theorem read_of_spells (writable : settings.Writable) {earlier givens : List Given}
    (wellFormed : ∀ given ∈ earlier, given.IsWellFormed)
    (settled : ∀ given ∈ earlier, given.switch ∈ settings.switches)
    (spelled : ∀ given ∈ givens, Spells settings given)
    (each : (givens.map Given.switch).Perm settings.switches) :
    read ((earlier ++ givens).map Given.word) = .ok settings := by
  obtain ⟨before, taken, kept⟩ := exists_foldlM_take settings wellFormed {}
  obtain ⟨last, taken', held⟩ := exists_foldlM_spelled writable spelled before
  have drafts : Drafts ((earlier ++ givens).map Given.word) last := by
    refine drafts_map_word ?_
    rw [List.foldlM_append, taken]
    exact taken'
  rw [drafts.read_eq]
  refine Draft.check_of_holds (fun switch => held ?_) drafts.typed writable
  by_cases written : switch ∈ settings.switches
  · exact .inl (each.mem_iff.mpr written)
  · refine .inr (kept (fun given member same => ?_) (holds_empty written))
    exact written (same ▸ settled given member)

/-- Settings with a directory that has a space and an equals sign in it, a program that looks like a
switch, and a time limit of five seconds. -/
def unusual : Settings where
  directory := some (.ofString "/a b//c=d/.")
  interval := .whole 3
  program := some "--sec=1"
  readTimeout := (Binary64.ofInt? (5 : Nat)).map .real
  liveView := true

/-- Values that other ones replace. -/
def replaced : List Given :=
  [.valued .interval "-3".toList rfl, .valued .program endMark rfl,
    .valued .interval endMark rfl]

/-- The unusual settings in words, in an order of their own. -/
def unusualWords : List Given :=
  [.plain .liveView rfl, .valued .readTimeout ['5'] rfl, .valued .program "--sec=1".toList rfl,
    .valued .targets ['1', '2'] rfl, .valued .mapDirectory "/a b/c=d".toList rfl,
    .valued .interval ['3'] rfl]

theorem unusual_read :
    unusual.Writable ∧
      read (["--sec=-3", "--bpftool=--", "--sec=--", "--tui", "--read-timeout=5",
        "--bpftool=--sec=1", "--targets=12", "--map-dir=/a b/c=d", "--sec=3"].map String.toList) =
        .ok unusual := by
  obtain ⟨significand, shift, exact, -, -⟩ :=
    Binary64.exists_ofInt?_exact (show 5 < 2 ^ 53 by decide)
  have limited : unusual.readTimeout = some (.real (.finite false significand shift)) := by
    rw [unusual, exact, Option.map_some]
  have writable : unusual.Writable := by
    refine ⟨⟨_, rfl, PathName.isNormal_ofChars _, by decide⟩, ⟨3, by decide, by decide, rfl⟩,
      ⟨12, by decide, by decide, rfl⟩, ⟨_, rfl, by decide⟩, fun timeout set => ?_⟩
    obtain rfl := Option.mem_unique limited set
    exact ⟨5, _, by decide, by decide, exact, rfl⟩
  have switches : unusual.switches =
      [.mapDirectory, .interval, .targets, .program, .readTimeout, .liveView] := by
    rw [Settings.switches, limited]
    rfl
  have wellFormed : ∀ given ∈ replaced, given.IsWellFormed := by
    simp only [replaced, List.forall_mem_cons, List.not_mem_nil, false_implies, implies_true,
      and_true]
    refine ⟨?_, trivial, ?_⟩
    · rintro _ ⟨rfl⟩
      exact .inr rfl
    · rintro _ ⟨rfl⟩
      exact .inl rfl
  have settled : ∀ given ∈ replaced, given.switch ∈ unusual.switches := by
    rw [switches]
    decide
  have spelled : ∀ given ∈ unusualWords, Spells unusual given := by
    simp only [unusualWords, List.forall_mem_cons, List.not_mem_nil, false_implies, implies_true,
      and_true]
    exact ⟨.liveView rfl, .wholeTimeout (by decide) (by decide) exact limited, .program rfl,
      .targets, @Spells.mapDirectory unusual (.ofString _) rfl, .interval⟩
  have each : (unusualWords.map Given.switch).Perm unusual.switches := by
    rw [switches]
    decide
  have words : (replaced ++ unusualWords).map Given.word =
      ["--sec=-3", "--bpftool=--", "--sec=--", "--tui", "--read-timeout=5", "--bpftool=--sec=1",
        "--targets=12", "--map-dir=/a b/c=d", "--sec=3"].map String.toList := rfl
  exact ⟨writable, words ▸ read_of_spells writable wellFormed settled spelled each⟩

end CommandLine

end RedirectMonitor
