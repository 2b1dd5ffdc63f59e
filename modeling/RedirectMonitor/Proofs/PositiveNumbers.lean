/-
This file says which numbers the monitor is set to. The interval, the number of targets and the time
limit of a read are to be positive, and so is the interval that a loop is created with or started
again with. Each check refuses what is at most zero, and what is no number is not at most zero.

The content is that this is the only gap. The interval and the targets of a command line are read as
integers, so the checks let through just the positive ones; a time limit, and an interval that a
loop is given itself, pass if they are positive or no number. What is refused is refused before
anything happens: the program ends with a complaint, and the loop stays as it was.
-/

import RedirectMonitor.Proofs.CommandWords
import RedirectMonitor.Proofs.ExitStatus

namespace RedirectMonitor

/-! ### Numbers above zero -/

theorem Binary64.compareInt?_eq_none_iff {value : Binary64} {integer : Int} :
    value.compareInt? integer = none ↔ value = .nan := by
  cases value with
  | nan => exact iff_of_true rfl rfl
  | infinite negative => cases negative <;> exact iff_of_false (Option.some_ne_none _) nofun
  | finite negative significand shift => exact iff_of_false (Option.some_ne_none _) nofun

namespace Quantity

/-- The quantity is above zero, which what is no number is not. -/
def IsPositive (value : Quantity) : Prop := value.compare? (.whole 0) = some .gt

instance (value : Quantity) : Decidable value.IsPositive :=
  inferInstanceAs (Decidable (value.compare? (.whole 0) = some .gt))

theorem isPositive_whole_iff (value : Int) : (whole value).IsPositive ↔ 0 < value := by
  rw [IsPositive, compare?, Option.some.injEq, Int.compare_eq_gt]

/-- Just what is above zero and what is no number is not at most zero. -/
theorem isNonpositive_eq_false_iff (value : Quantity) :
    value.isNonpositive = false ↔ value.IsPositive ∨ value = .real .nan := by
  cases value with
  | whole value => simp [isNonpositive, isPositive_whole_iff]
  | real value =>
    rw [real.injEq, ← @Binary64.compareInt?_eq_none_iff value 0]
    show value.isNonpositive = false ↔ value.compareInt? 0 = some .gt ∨ _
    unfold Binary64.isNonpositive
    rcases value.compareInt? 0 with _ | _ | _ | _ <;> simp

theorem isNonpositive_iff (value : Quantity) :
    value.isNonpositive = true ↔ ¬value.IsPositive ∧ value ≠ .real .nan := by
  rw [← not_or, ← isNonpositive_eq_false_iff, Bool.not_eq_false]

end Quantity

namespace CommandLine

open RedirectMonitor.Switch RedirectMonitor.Text

/-! ### What a draft holds -/

/-- The numbers of a draft are of the kinds that its readers give, and only switches that need a
number are without one. -/
structure Draft.Typed (draft : Draft) : Prop where
  interval : ∃ number, draft.settings.interval = .whole number
  targets : ∃ number, draft.settings.targets = .whole number
  readTimeout : ∀ timeout ∈ draft.settings.readTimeout, ∃ number, timeout = .real number
  marked : ∀ switch ∈ draft.withoutNumber,
    switch = .interval ∨ switch = .targets ∨ switch = .readTimeout

theorem typed_empty : ({} : Draft).Typed where
  interval := ⟨2, rfl⟩
  targets := ⟨defaultTargets, rfl⟩
  readTimeout := fun _ none => by cases none
  marked := fun _ member => by cases member

variable {draft next : Draft}

theorem Draft.Typed.noNumber (typed : draft.Typed) {switch : Switch}
    (needs : switch = .interval ∨ switch = .targets ∨ switch = .readTimeout) :
    (draft.noNumber switch).Typed where
  interval := typed.interval
  targets := typed.targets
  readTimeout := typed.readTimeout
  marked := List.forall_mem_cons.mpr ⟨needs, typed.marked⟩

/-- The draft after a value was given that is read as a number or as none. -/
def Draft.numeral (draft : Draft) (switch : Switch) (value : Word) (number? : Option Quantity)
    (misuse : Misuse) (change : Quantity → Settings → Settings) : Except Stop Draft :=
  if value = endMark then .ok (draft.noNumber switch)
  else match number? with
    | some number => .ok (draft.number switch (change number))
    | none => .error (.misuse misuse)

theorem Draft.whole_eq_numeral (draft : Draft) (switch : Switch) (value : Word)
    (change : Quantity → Settings → Settings) :
    draft.whole switch value change =
      draft.numeral switch value ((readDecimal? value).map .whole) (.notWhole switch value)
        change := by
  unfold whole numeral
  cases readDecimal? value <;> rfl

theorem Draft.real_eq_numeral (draft : Draft) (switch : Switch) (value : Word)
    (change : Quantity → Settings → Settings) :
    draft.real switch value change =
      draft.numeral switch value ((readReal? value).map .real) (.notReal switch value) change := by
  unfold real numeral
  cases readReal? value <;> rfl

theorem Draft.cases_of_numeral {switch : Switch} {value : Word} {number? : Option Quantity}
    {misuse : Misuse} {change : Quantity → Settings → Settings}
    (given : draft.numeral switch value number? misuse change = .ok next) :
    next = draft.noNumber switch ∨
      ∃ number ∈ number?, next = draft.number switch (change number) := by
  unfold numeral at given
  split at given
  · exact .inl (Except.ok.inj given).symm
  · split at given
    · exact .inr ⟨_, rfl, (Except.ok.inj given).symm⟩
    · cases given

theorem Draft.Typed.give (typed : draft.Typed) {switch : Switch} {value : Word}
    (given : draft.give switch value = .ok next) : next.Typed := by
  have kept (switch : Switch) : ∀ other ∈ draft.withoutNumber.filter (· != switch),
      other = .interval ∨ other = .targets ∨ other = .readTimeout :=
    fun other member => typed.marked other (List.mem_of_mem_filter member)
  cases switch with
  | interval =>
    rw [Draft.give, Draft.whole_eq_numeral] at given
    rcases Draft.cases_of_numeral given with rfl | ⟨_, read, rfl⟩
    · exact typed.noNumber (.inl rfl)
    · obtain ⟨number, -, rfl⟩ := Option.map_eq_some_iff.mp read
      exact ⟨⟨number, rfl⟩, typed.targets, typed.readTimeout, kept _⟩
  | targets =>
    rw [Draft.give, Draft.whole_eq_numeral] at given
    rcases Draft.cases_of_numeral given with rfl | ⟨_, read, rfl⟩
    · exact typed.noNumber (.inr (.inl rfl))
    · obtain ⟨number, -, rfl⟩ := Option.map_eq_some_iff.mp read
      exact ⟨typed.interval, ⟨number, rfl⟩, typed.readTimeout, kept _⟩
  | readTimeout =>
    rw [Draft.give, Draft.real_eq_numeral] at given
    rcases Draft.cases_of_numeral given with rfl | ⟨_, read, rfl⟩
    · exact typed.noNumber (.inr (.inr rfl))
    · obtain ⟨number, -, rfl⟩ := Option.map_eq_some_iff.mp read
      refine ⟨typed.interval, typed.targets, ?_, kept _⟩
      rintro _ ⟨rfl⟩
      exact ⟨number, rfl⟩
  | mapDirectory | program | help | liveView | debug =>
    exact Except.ok.inj given ▸ ⟨typed.interval, typed.targets, typed.readTimeout, typed.marked⟩

theorem Draft.Typed.turnOn (typed : draft.Typed) {switch : Switch}
    (turned : draft.turnOn switch = .ok next) : next.Typed := by
  cases switch with
  | help => cases turned
  | liveView | debug | mapDirectory | interval | targets | program | readTimeout =>
    exact Except.ok.inj turned ▸ ⟨typed.interval, typed.targets, typed.readTimeout, typed.marked⟩

/-- What each step of a fold keeps, a fold keeps that succeeds. -/
theorem holds_of_foldlM {ε α β : Type} {holds : β → Prop} {step : β → α → Except ε β}
    (keeps : ∀ {before item after}, holds before → step before item = .ok after → holds after)
    (items : List α) {first last : β} (start : holds first)
    (folded : items.foldlM step first = .ok last) : holds last := by
  induction items generalizing first with
  | nil => exact Except.ok.inj folded ▸ start
  | cons item items inductionHypothesis =>
    rw [List.foldlM_cons, bind_eq_ok_iff] at folded
    obtain ⟨after, stepped, folded⟩ := folded
    exact inductionHypothesis (keeps start stepped) folded

theorem Reading.typed_perform {reading after : Reading} (typed : reading.draft.Typed)
    {before : List Switch} {last : Switch} {value : Option Word}
    (performed : reading.perform before last value = .ok after) : after.draft.Typed := by
  rw [perform, bind_eq_ok_iff] at performed
  obtain ⟨turned, folded, performed⟩ := performed
  have typed : turned.Typed := holds_of_foldlM (fun typed => typed.turnOn) before typed folded
  cases value with
  | none =>
    obtain ⟨draft, given, same⟩ := bind_eq_ok_iff.mp performed
    exact Except.ok.inj same ▸ typed.turnOn given
  | some value =>
    obtain ⟨draft, given, same⟩ := bind_eq_ok_iff.mp performed
    exact Except.ok.inj same ▸ typed.give given

theorem Reading.typed_step {reading after : Reading} {token : Token}
    (typed : reading.draft.Typed) (taken : reading.step token = .ok after) :
    after.draft.Typed := by
  unfold step at taken
  split at taken
  · exact typed_perform typed taken
  · cases taken
  · exact Except.ok.inj taken ▸ typed
  · exact Except.ok.inj taken ▸ typed
  · exact Except.ok.inj taken ▸ typed
  · simp only [Reading.switch, bind_eq_ok_iff] at taken
    obtain ⟨cluster, -, taken⟩ := taken
    split at taken
    · exact Except.ok.inj taken ▸ typed
    · exact typed_perform typed taken

/-! ### The check of a draft -/

variable {words : List Word}

theorem Drafts.typed (drafts : Drafts words draft) : draft.Typed := by
  obtain ⟨taken, reading, -, folded, -, -, rfl⟩ := drafts
  have keeps {before after : Reading} {token : Token} (typed : before.draft.Typed)
      (stepped : before.step token = .ok after) : after.draft.Typed :=
    Reading.typed_step typed stepped
  exact holds_of_foldlM keeps taken typed_empty folded

theorem Draft.Typed.withoutNumber_eq_nil_iff (typed : draft.Typed) :
    draft.withoutNumber = [] ↔ .interval ∉ draft.withoutNumber ∧ .targets ∉ draft.withoutNumber ∧
      .readTimeout ∉ draft.withoutNumber := by
  constructor
  · rintro empty
    simp [empty]
  · rintro ⟨interval, targets, readTimeout⟩
    refine List.eq_nil_iff_forall_not_mem.mpr fun switch member => ?_
    rcases typed.marked switch member with rfl | rfl | rfl
    · exact interval member
    · exact targets member
    · exact readTimeout member

/-- The first setting that is not let through, in the order of the checks. -/
inductive FirstRefused (settings : Settings) : SettingsError → Prop
  | interval (refused : ¬settings.interval.IsPositive) :
      FirstRefused settings (.interval settings.interval)
  | targets (passed : settings.interval.IsPositive) (refused : ¬settings.targets.IsPositive) :
      FirstRefused settings (.targets settings.targets)
  | readTimeout {timeout : Quantity} (passed : settings.interval.IsPositive)
      (passed' : settings.targets.IsPositive) (limited : settings.readTimeout = some timeout)
      (refused : ¬timeout.IsPositive) (isNumber : timeout ≠ .real .nan) :
      FirstRefused settings (.readTimeout timeout)

/-- Settings are let through if all their checks are. -/
theorem Settings.check_eq_ok_iff {settings accepted : Settings} :
    settings.check = .ok accepted ↔ settings.checkInterval = .ok () ∧
      settings.checkTargets = .ok () ∧ settings.checkReadTimeout = .ok () ∧
      settings = accepted := by
  unfold Settings.check
  rcases settings.checkInterval with _ | _ <;> rcases settings.checkTargets with _ | _ <;>
    rcases settings.checkReadTimeout with _ | _ <;> simp [bind, Except.bind, pure, Except.pure]

/-- They are refused by the first check that refuses one of them. -/
theorem Settings.check_eq_error_iff {settings : Settings} {error : SettingsError} :
    settings.check = .error error ↔ settings.checkInterval = .error error ∨
      settings.checkInterval = .ok () ∧ (settings.checkTargets = .error error ∨
        settings.checkTargets = .ok () ∧ settings.checkReadTimeout = .error error) := by
  unfold Settings.check
  rcases settings.checkInterval with _ | _ <;> rcases settings.checkTargets with _ | _ <;>
    rcases settings.checkReadTimeout with _ | _ <;> simp [bind, Except.bind, pure, Except.pure]

theorem Draft.check_of_numbered (numbered : draft.withoutNumber = []) :
    draft.check = draft.settings.check.mapError .refused := by
  unfold Draft.check hasNumber Settings.check
  rw [numbered]
  rcases draft.settings.checkInterval with _ | _ <;>
    rcases draft.settings.checkTargets with _ | _ <;>
    rcases draft.settings.checkReadTimeout with _ | _ <;> rfl

theorem Draft.hasNumber_eq_ok_iff {switch : Switch} {nothing : Unit} :
    draft.hasNumber switch = .ok nothing ↔ switch ∉ draft.withoutNumber := by
  unfold hasNumber
  split <;> simp_all

theorem Draft.Typed.numbered_of_check (typed : draft.Typed) {settings : Settings}
    (accepted : draft.check = .ok settings) : draft.withoutNumber = [] := by
  simp only [Draft.check, bind_eq_ok_iff, Draft.hasNumber_eq_ok_iff] at accepted
  obtain ⟨-, interval, -, -, -, targets, -, -, -, readTimeout, -⟩ := accepted
  exact typed.withoutNumber_eq_nil_iff.mpr ⟨interval, targets, readTimeout⟩

section Refusal

variable {value : Quantity} {error error' : SettingsError}

/-- A check lets through what is positive and what is no number. -/
theorem refuse_eq_ok_iff :
    (if value.isNonpositive then .error error else .ok () : Except SettingsError Unit) = .ok () ↔
      value.IsPositive ∨ value = .real .nan := by
  rw [← value.isNonpositive_eq_false_iff]
  split <;> simp_all

theorem refuse_eq_ok_iff_of_whole (isWhole : ∃ number, value = .whole number) :
    (if value.isNonpositive then .error error else .ok () : Except SettingsError Unit) = .ok () ↔
      value.IsPositive := by
  obtain ⟨number, rfl⟩ := isWhole
  rw [refuse_eq_ok_iff, or_iff_left (by simp)]

theorem refuse_eq_error_iff :
    (if value.isNonpositive then .error error else .ok () : Except SettingsError Unit) =
        .error error' ↔
      (¬value.IsPositive ∧ value ≠ .real .nan) ∧ error = error' := by
  rw [← value.isNonpositive_iff]
  split <;> simp_all

end Refusal

theorem Settings.checkReadTimeout_eq_ok_iff {settings : Settings} :
    settings.checkReadTimeout = .ok () ↔
      ∀ timeout ∈ settings.readTimeout, timeout.IsPositive ∨ timeout = .real .nan := by
  unfold Settings.checkReadTimeout
  cases settings.readTimeout with
  | none => simp
  | some timeout => simpa using @refuse_eq_ok_iff timeout (.readTimeout timeout)

theorem Settings.checkReadTimeout_eq_error_iff {settings : Settings} {error : SettingsError} :
    settings.checkReadTimeout = .error error ↔
      ∃ timeout, settings.readTimeout = some timeout ∧
        (¬timeout.IsPositive ∧ timeout ≠ .real .nan) ∧ .readTimeout timeout = error := by
  unfold Settings.checkReadTimeout
  cases settings.readTimeout with
  | none => simp
  | some timeout => simpa using refuse_eq_error_iff

/-- A draft is let through if it has all its numbers and none of them is at most zero. -/
theorem Draft.Typed.check_eq_ok_iff (typed : draft.Typed) {settings : Settings} :
    draft.check = .ok settings ↔ draft.settings = settings ∧ draft.withoutNumber = [] ∧
      draft.settings.interval.IsPositive ∧ draft.settings.targets.IsPositive ∧
      ∀ timeout ∈ draft.settings.readTimeout, timeout.IsPositive ∨ timeout = .real .nan := by
  have checks (numbered : draft.withoutNumber = []) : draft.check = .ok settings ↔
      draft.settings.interval.IsPositive ∧ draft.settings.targets.IsPositive ∧
        (∀ timeout ∈ draft.settings.readTimeout, timeout.IsPositive ∨ timeout = .real .nan) ∧
        draft.settings = settings := by
    rw [Draft.check_of_numbered numbered, mapError_eq_ok_iff, Settings.check_eq_ok_iff,
      Settings.checkInterval, Settings.checkTargets, refuse_eq_ok_iff_of_whole typed.interval,
      refuse_eq_ok_iff_of_whole typed.targets, Settings.checkReadTimeout_eq_ok_iff]
  constructor
  · intro accepted
    have numbered := typed.numbered_of_check accepted
    obtain ⟨interval, targets, readTimeout, same⟩ := (checks numbered).mp accepted
    exact ⟨same, numbered, interval, targets, readTimeout⟩
  · rintro ⟨same, numbered, interval, targets, readTimeout⟩
    exact (checks numbered).mpr ⟨interval, targets, readTimeout, same⟩

/-- A draft with all its numbers is refused for the first one that is at most zero. -/
theorem Draft.Typed.check_eq_refused_iff (typed : draft.Typed)
    (numbered : draft.withoutNumber = []) {error : SettingsError} :
    draft.check = .error (.refused error) ↔ FirstRefused draft.settings error := by
  rw [Draft.check_of_numbered numbered, mapError_eq_error_iff Stop.refused.inj,
    Settings.check_eq_error_iff, Settings.checkInterval, Settings.checkTargets,
    refuse_eq_ok_iff_of_whole typed.interval, refuse_eq_ok_iff_of_whole typed.targets,
    refuse_eq_error_iff, refuse_eq_error_iff, Settings.checkReadTimeout_eq_error_iff]
  obtain ⟨interval, isWhole⟩ := typed.interval
  obtain ⟨targets, isWhole'⟩ := typed.targets
  constructor
  · rintro (⟨⟨refused, -⟩, rfl⟩ | ⟨passed, ⟨⟨refused, -⟩, rfl⟩ |
      ⟨passed', timeout, limited, ⟨refused, isNumber⟩, rfl⟩⟩)
    · exact .interval refused
    · exact .targets passed refused
    · exact .readTimeout passed passed' limited refused isNumber
  · rintro (refused | ⟨passed, refused⟩ | ⟨passed, passed', limited, refused, isNumber⟩)
    · exact .inl ⟨⟨refused, by simp [isWhole]⟩, rfl⟩
    · exact .inr ⟨passed, .inl ⟨⟨refused, by simp [isWhole']⟩, rfl⟩⟩
    · exact .inr ⟨passed, .inr ⟨passed', _, limited, ⟨refused, isNumber⟩, rfl⟩⟩

end CommandLine

namespace Monitor

variable {σ : Type}

open RedirectMonitor.CommandLine RedirectMonitor.Activity RedirectMonitor.PollLoop

/-- A loop takes an interval that is not at most zero, when it is created and when it is started. -/
theorem interval_taken {value : Quantity} (passed : value.isNonpositive = false) (store : Store)
    (activity : Activity σ) :
    (∃ loop, create store value = .ok loop ∧ loop.interval = value) ∧
      ∃ begun, activity.start (some value) = .ok begun ∧ begun.loop.interval = value := by
  refine ⟨⟨{ store, interval := value }, create_eq_ok_iff.mpr ⟨passed, rfl⟩, rfl⟩,
    { activity with loop := { activity.loop with interval := value }, call := some .launched },
    ?_, rfl⟩
  rw [start_some, passed, if_neg Bool.false_ne_true]

/-- It refuses every other one, and a start that is refused changes nothing and shows nothing. -/
theorem interval_refused (world : World σ) {value : Quantity} (refused : value.isNonpositive = true)
    (store : Store) (activity next : Activity σ) (turns : List (Turn σ)) (shown : List Event)
    (result : Option Fault) :
    create store value = .error (.interval value) ∧
      (Serves world activity (.start (some value) turns) next shown result ↔
        next = activity ∧ shown = [] ∧ result = some (.interval value)) := by
  have rejects : activity.start (some value) = .error (.interval value) := by
    rw [start_some, if_pos refused]
  refine ⟨by rw [create, checkInterval, if_pos refused]; rfl, ?_, ?_⟩
  · intro served
    cases served with
    | rejected refused' =>
      obtain rfl := Except.error.inj (rejects.symm.trans refused')
      exact ⟨rfl, rfl, rfl⟩
    | returned started => cases rejects.symm.trans started
  · rintro ⟨rfl, rfl, rfl⟩
    exact .rejected rejects

/-- The settings that a command line gives are positive, but that the time limit may be no number,
and so may the interval that a loop takes when it is created or started. A command line whose
numbers are all given is refused just for one that is at most zero, the first of them, and the
program then ends before it looks at anything. A loop refuses what is at most zero, and stays as it
was. -/
theorem numbers_taken_iff_positive_or_nan (world : World σ) :
    (∀ words settings, CommandLine.read words = .ok settings →
      settings.interval.IsPositive ∧ settings.targets.IsPositive ∧
        ∀ timeout ∈ settings.readTimeout, timeout.IsPositive ∨ timeout = .real .nan) ∧
    (∀ words draft, Drafts words draft →
      (CommandLine.read words = .ok draft.settings ↔ draft.withoutNumber = [] ∧
        draft.settings.interval.IsPositive ∧ draft.settings.targets.IsPositive ∧
        ∀ timeout ∈ draft.settings.readTimeout, timeout.IsPositive ∨ timeout = .real .nan) ∧
      (draft.withoutNumber = [] → ∀ error,
        CommandLine.read words = .error (.refused error) ↔ FirstRefused draft.settings error)) ∧
    (∀ words error, CommandLine.read words = .error (.refused error) →
      ∀ (environment : Environment σ) steps state,
        main environment words steps state =
          { ending := .returned ExitStatus.badOption.code, state,
            handler := environment.handler,
            complaint := ("ERR: " ++ error.message ++ "\n").toList }) ∧
    ∀ value : Quantity,
      (value.IsPositive ∨ value = .real .nan → ∀ store (activity : Activity σ),
        (∃ loop, create store value = .ok loop ∧ loop.interval = value) ∧
        ∃ begun, activity.start (some value) = .ok begun ∧ begun.loop.interval = value) ∧
      (¬(value.IsPositive ∨ value = .real .nan) →
        ∀ store (activity next : Activity σ) turns shown result,
          create store value = .error (.interval value) ∧
          (Serves world activity (.start (some value) turns) next shown result ↔
            next = activity ∧ shown = [] ∧ result = some (.interval value))) := by
  refine ⟨fun words settings accepted => ?_,
    fun words draft drafts => ⟨?_, fun numbered error => ?_⟩,
    fun words error refused environment => main_of_error environment refused,
    fun value => ⟨fun taken => ?_, fun refused => ?_⟩⟩
  · obtain ⟨draft, drafts⟩ := exists_drafts_of_read accepted
    rw [drafts.read_eq, drafts.typed.check_eq_ok_iff] at accepted
    obtain ⟨rfl, -, positive⟩ := accepted
    exact positive
  · rw [drafts.read_eq, drafts.typed.check_eq_ok_iff, eq_self, true_and]
  · rw [drafts.read_eq, drafts.typed.check_eq_refused_iff numbered]
  · exact interval_taken (value.isNonpositive_eq_false_iff.mpr taken)
  · exact interval_refused world (value.isNonpositive_iff.mpr (not_or.mp refused))

/-- A command line with a time limit that is no number. -/
def endlessLimit : List Switch.Word := ["--read-timeout=nan".toList]

/-- A command line with an interval of zero. -/
def restless : List Switch.Word := ["-s".toList, "0".toList]

theorem nan_taken_and_zero_refused :
    CommandLine.read endlessLimit = .ok { readTimeout := some (.real .nan) } ∧
      (∃ loop, create (.blank 1 1) (.real .nan) = .ok loop ∧ loop.interval = .real .nan) ∧
      CommandLine.read restless = .error (.refused (.interval (.whole 0))) ∧
      (main busy restless 100 0).ending = .returned 2 ∧
      create (.blank 1 1) (.whole 0) = .error (.interval (.whole 0)) := by
  obtain ⟨-, checked, refuses, loops⟩ :=
    numbers_taken_iff_positive_or_nan (surroundings busy busyRun.1).world
  have endless : Drafts endlessLimit { settings := { readTimeout := some (.real .nan) } } :=
    ⟨_, _, rfl, rfl, rfl, rfl, rfl⟩
  have resting : Drafts restless { settings := { interval := .whole 0 } } :=
    ⟨_, _, rfl, rfl, rfl, rfl, rfl⟩
  have taken : CommandLine.read endlessLimit = .ok { readTimeout := some (.real .nan) } := by
    refine (checked _ _ endless).1.mpr ⟨rfl, rfl, rfl, ?_⟩
    rintro _ ⟨rfl⟩
    exact .inr rfl
  have refused : CommandLine.read restless = .error (.refused (.interval (.whole 0))) :=
    ((checked _ _ resting).2 rfl _).mpr (.interval (by decide))
  refine ⟨taken, ((loops (.real .nan)).1 (.inr rfl) (.blank 1 1) busyRun.2).1, refused, ?_, ?_⟩
  · rw [refuses _ _ refused]
    rfl
  · exact ((loops (.whole 0)).2 (by decide) (.blank 1 1) busyRun.2 busyRun.2 [] [] none).1

end Monitor

end RedirectMonitor
