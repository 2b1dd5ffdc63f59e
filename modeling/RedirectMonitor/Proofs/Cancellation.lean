/-
This file says where a run ends that was asked to end: with the collection at hand, or with the
report at hand and the wait after it. From the moment of the request no report is begun, and no
lookup is made but those that the collection has left.

The content is two accounts of lookups and reports. As long as a run goes on, they determine each
other: every collection has a lookup for each group, the first one has no report, and each of the
others has one. From the request on, the lookups made and those left add up to a total that no
step changes.
-/

import RedirectMonitor.Proofs.Turns

namespace RedirectMonitor

namespace PollLoop

/-! ### Accounts of a run -/

/-- How many groups the collection at hand has left. -/
def Phase.left : Phase → Nat
  | .collecting _ _ left _ => left.length
  | .launched | .rendered | .waiting | .leaving _ | .over _ => 0

/-- How the lookups and reports of a run determine each other, for so many groups. -/
def Phase.Tallied (groups lookups reports : Nat) : Phase → Prop
  | .launched => lookups = 0 ∧ reports = 0
  | .collecting .priming _ left _ => lookups + left.length = groups ∧ reports = 0
  | .collecting .cycle _ left _ =>
    left.length ≤ groups ∧ lookups + left.length = (reports + 2) * groups
  | .rendered | .waiting => ∃ earlier, reports = earlier + 1 ∧ lookups = (earlier + 2) * groups
  | .leaving _ | .over _ => True

variable {loop loop' : PollLoop} {phase phase' : Phase} {made shown : Nat}

theorem Passes.groups (passes : Passes loop phase phase' loop' made shown) :
    loop'.store.groups = loop.store.groups := by
  cases passes with
  | reads groups => exact groups
  | refused | primes | stops | cycles | renders | fails | rests | leaves => rfl

theorem Passes.tallied (passes : Passes loop phase phase' loop' made shown)
    {lookups reports : Nat}
    (tallied : phase.Tallied loop.store.groups.length lookups reports) :
    phase'.Tallied loop'.store.groups.length (lookups + made) (reports + shown) := by
  rw [passes.groups]
  cases passes with
  | primes free =>
    obtain ⟨rfl, rfl⟩ := tallied
    exact ⟨Nat.zero_add _, rfl⟩
  | @reads purpose side group left failed _ store groups onward =>
    rcases onward with ⟨failed', rfl⟩ | ⟨fault, rfl⟩
    · cases purpose with
      | priming =>
        obtain ⟨sum, none⟩ := tallied
        refine ⟨?_, none⟩
        rw [List.length_cons] at sum
        omega
      | cycle =>
        obtain ⟨bound, sum⟩ := tallied
        rw [List.length_cons] at bound sum
        exact ⟨by omega, by rw [← sum]; omega⟩
    · exact trivial
  | cycles free complete =>
    rcases complete with rfl | ⟨side, failed, rfl⟩
    · obtain ⟨earlier, rfl, rfl⟩ := tallied
      exact ⟨Nat.le_refl _, (Nat.succ_mul _ _).symm⟩
    · obtain ⟨sum, rfl⟩ := tallied
      refine ⟨Nat.le_refl _, ?_⟩
      rw [List.length_nil] at sum
      omega
  | renders free =>
    obtain ⟨-, sum⟩ := tallied
    exact ⟨reports, rfl, sum⟩
  | rests => exact tallied
  | refused | stops | fails | leaves => exact trivial

/-- A collection that meets a request to end is the one that its next lookup belongs to. -/
theorem counts_of_collecting {groups lookups reports last : Nat} {purpose : Purpose} {side : Side}
    {group : Group} {left : List Group} {failed : Nat}
    (tallied : (Phase.collecting purpose side (group :: left) failed).Tallied groups lookups
      reports)
    (total : last + 0 = lookups + (group :: left).length) :
    let cycle := lookups / groups
    last = (cycle + 1) * groups ∧ reports = cycle - 1 := by
  intro cycle
  rw [List.length_cons] at total
  cases purpose with
  | priming =>
    obtain ⟨sum, rfl⟩ := tallied
    rw [List.length_cons] at sum
    have first : cycle = 0 := Nat.div_eq_of_lt (by omega)
    rw [first]
    omega
  | cycle =>
    obtain ⟨bound, sum⟩ := tallied
    rw [List.length_cons] at bound sum
    have next : (reports + 2) * groups = (reports + 1) * groups + groups := Nat.succ_mul _ _
    have this : cycle = reports + 1 :=
      Nat.div_eq_of_lt_le (by omega) (show lookups < (reports + 2) * groups by omega)
    rw [this]
    exact ⟨show last = (reports + 2) * groups by omega, rfl⟩

/-- Whether a phase is not that of a run which a fault has ended. -/
def Phase.IsUnbroken : Phase → Prop
  | .leaving (some _) | .over (some _) => False
  | .launched | .collecting .. | .rendered | .waiting | .leaving none | .over none => True

/-- What is left of a run that was asked to end: lookups up to a total, which it reaches unless a
fault ends it, and no report. -/
structure Phase.Ending (total rendered lookups reports : Nat) (phase : Phase) : Prop where
  within : lookups + phase.left ≤ total
  exact : phase.IsUnbroken → lookups + phase.left = total
  silent : reports = rendered

theorem Passes.ending (passes : Passes loop phase phase' loop' made shown)
    (pending : loop.cancelled = true) {total rendered lookups reports : Nat}
    (ending : phase.Ending total rendered lookups reports) :
    phase'.Ending total rendered (lookups + made) (reports + shown) := by
  obtain ⟨within, exact, silent⟩ := ending
  cases passes with
  | refused => exact ⟨within, fun _ => exact trivial, silent⟩
  | @reads purpose side group left failed _ store groups onward =>
    have exact := exact trivial
    simp only [Phase.left, List.length_cons] at within exact
    rcases onward with ⟨failed', rfl⟩ | ⟨fault, rfl⟩
    · exact ⟨by simp only [Phase.left]; omega, fun _ => by simp only [Phase.left]; omega, silent⟩
    · exact ⟨by simp only [Phase.left]; omega, fun broken => broken.elim, silent⟩
  | stops _ complete =>
    rcases complete with rfl | ⟨purpose, side, failed, rfl⟩
    · exact ⟨within, fun _ => exact trivial, silent⟩
    · exact ⟨within, fun _ => exact trivial, silent⟩
  | rests => exact ⟨within, fun _ => exact trivial, silent⟩
  | leaves fault =>
    refine ⟨within, fun unbroken => exact ?_, silent⟩
    cases fault with
    | none => exact trivial
    | some fault => exact unbroken
  | primes free | cycles free | renders free | fails free =>
    rw [pending] at free
    cases free

/-- How many steps a run makes at most that was asked to end. -/
def Phase.ahead : Phase → Nat
  | .launched => 1
  | .collecting _ _ left _ => left.length + 2
  | .rendered => 3
  | .waiting => 2
  | .leaving _ => 1
  | .over _ => 0

theorem ahead_le {groups lookups reports : Nat}
    (tallied : phase.Tallied (groups + 3) lookups reports) : phase.ahead ≤ groups + 5 := by
  cases phase with
  | collecting purpose side left failed =>
    cases purpose with
    | priming =>
      have sum := tallied.1
      simp only [Phase.ahead]
      omega
    | cycle =>
      have bound := tallied.1
      simp only [Phase.ahead]
      omega
  | launched | rendered | waiting | leaving | «over» =>
    simp only [Phase.ahead]
    omega

theorem Passes.ahead_lt (passes : Passes loop phase phase' loop' made shown)
    (pending : loop.cancelled = true) : phase'.ahead < phase.ahead := by
  cases passes with
  | reads groups onward =>
    rcases onward with ⟨failed', rfl⟩ | ⟨fault, rfl⟩ <;> simp [Phase.ahead]
  | stops _ complete =>
    rcases complete with rfl | ⟨purpose, side, failed, rfl⟩ <;> simp [Phase.ahead]
  | refused | rests | leaves => simp [Phase.ahead]
  | primes free | cycles free | renders free | fails free =>
    rw [pending] at free
    cases free

/-- The flag stays until the run is over. -/
theorem Passes.cancelled (passes : Passes loop phase phase' loop' made shown)
    (pending : loop.cancelled = true) (underWay : ∀ fault, phase' ≠ .over fault) :
    loop'.cancelled = true := by
  cases passes with
  | reads | stops | rests | fails => exact pending
  | refused => exact absurd rfl (underWay none)
  | leaves fault => exact absurd rfl (underWay fault)
  | primes free | cycles free | renders free =>
    rw [pending] at free
    cases free

end PollLoop

namespace Activity

open RedirectMonitor.PollLoop

variable {σ : Type} {world : World σ}

/-! ### Accounts of a start -/

/-- The account of a run as long as it goes on. -/
def Tallied (groups : Nat) (phase : Phase) (loop : PollLoop) (lookups reports : Nat) : Prop :=
  loop.store.groups.length = groups ∧ phase.Tallied groups lookups reports

theorem tallied_play (turns : List (Turn σ)) {groups : Nat} {activity : Activity σ}
    {events : List Event} (start : activity.Accounts (Tallied groups) events) :
    (play world turns activity).1.Accounts (Tallied groups)
      (events ++ (play world turns activity).2) := by
  refine accounts_play (fun passes tallied => ?_) (fun _ waits _ tallied => ?_) turns start
  · obtain ⟨rfl, tally⟩ := tallied
    refine ⟨congrArg List.length passes.groups, ?_⟩
    rw [← passes.groups]
    exact passes.tallied tally
  · obtain ⟨size, tally⟩ := tallied
    refine ⟨size, ?_⟩
    cases waits with
    | same => exact tally
    | broken fault => exact trivial

/-- The account of a run that was asked to end. -/
structure Ending (total rendered : Nat) (phase : Phase) (loop : PollLoop) (lookups reports : Nat) :
    Prop where
  left : phase.Ending total rendered lookups reports
  pending : (∀ fault, phase ≠ .over fault) → loop.cancelled = true

variable (world) in
/-- The flag stays set while the run is under way. -/
theorem pending_turn {activity : Activity σ} (underWay : activity.isUnderWay = true)
    (pending : activity.loop.cancelled = true) (turn : Turn σ)
    (goesOn : (activity.turn world turn).1.isUnderWay = true) :
    (activity.turn world turn).1.loop.cancelled = true := by
  obtain ⟨phase, call, notOver⟩ := (isUnderWay_iff activity).mp underWay
  obtain ⟨next, after, ⟨-, passes⟩ | ⟨-, -, -, flag, kept, raised⟩⟩ :=
    turn_cases world call notOver turn
  · obtain ⟨next', after', notOver'⟩ := (isUnderWay_iff _).mp goesOn
    obtain rfl := Option.some.inj (after.symm.trans after')
    exact passes.cancelled pending notOver'
  · rw [kept]
    exact raised pending

theorem ending_play (turns : List (Turn σ)) {total rendered : Nat} {activity : Activity σ}
    {events : List Event} (start : activity.Accounts (Ending total rendered) events) :
    (play world turns activity).1.Accounts (Ending total rendered)
      (events ++ (play world turns activity).2) := by
  refine accounts_play (fun passes ending => ?_) (fun notOver waits raised ending => ?_) turns start
  · have pending := ending.pending passes.notOver
    exact ⟨passes.ending pending ending.left, passes.cancelled pending⟩
  · obtain ⟨left, pending⟩ := ending
    refine ⟨?_, fun _ => raised (pending notOver)⟩
    cases waits with
    | same => exact left
    | broken fault =>
      have within := left.within
      exact ⟨by simp only [Phase.left]; omega, fun broken => broken.elim, left.silent⟩

/-- A run that was asked to end is over after as many steps as it has ahead. -/
theorem over_of_steps (turns : List (Turn σ)) {activity : Activity σ} {phase : Phase}
    (call : activity.call = some phase)
    (pending : activity.isUnderWay = true → activity.loop.cancelled = true)
    (enough : phase.ahead ≤ turns.countP Turn.isStep) :
    (play world turns activity).1.isUnderWay = false := by
  induction turns generalizing activity phase with
  | nil =>
    cases phase with
    | «over» fault => simp [play, isUnderWay, call]
    | launched | collecting | rendered | waiting | leaving => simp [Phase.ahead] at enough
  | cons turn rest inductionHypothesis =>
    rw [play]
    cases underWay : activity.isUnderWay with
    | false => simpa using underWay
    | true =>
      simp only [if_true]
      obtain ⟨phase', call', notOver⟩ := (isUnderWay_iff activity).mp underWay
      obtain rfl := Option.some.inj (call.symm.trans call')
      have flagged := pending underWay
      have pending' := pending_turn world underWay flagged turn
      rw [List.countP_cons] at enough
      obtain ⟨next, after, ⟨isStep, passes⟩ | ⟨isStep, -, waits, -⟩⟩ :=
        turn_cases world call notOver turn
      · have fewer := passes.ahead_lt flagged
        refine inductionHypothesis after pending' ?_
        rw [isStep, if_pos rfl] at enough
        omega
      · have noMore : next.ahead ≤ phase.ahead := by
          cases waits with
          | same => exact Nat.le_refl _
          | broken fault => simp [Phase.ahead]
        refine inductionHypothesis after pending' ?_
        rw [isStep, if_neg Bool.false_ne_true] at enough
        omega

/-- Once a run was asked to end, further requests change nothing. -/
theorem play_filter (turns : List (Turn σ)) {activity : Activity σ}
    (pending : activity.isUnderWay = true → activity.loop.cancelled = true) :
    play world turns activity =
      play world (turns.filter fun turn => !turn.isCancel) activity := by
  induction turns generalizing activity with
  | nil => rfl
  | cons turn rest inductionHypothesis =>
    cases underWay : activity.isUnderWay with
    | false => rw [play_of_over underWay, play_of_over underWay]
    | true =>
      have flagged := pending underWay
      cases isCancel : turn.isCancel with
      | true =>
        have same : activity.turn world turn = (activity, []) := by
          cases turn with
          | cancel =>
            show (activity.cancel, []) = (activity, [])
            unfold Activity.cancel PollLoop.cancel
            rw [← flagged]
          | step | drift | breaks => cases isCancel
        rw [play, underWay, List.filter_cons_of_neg (by simp [isCancel])]
        simp only [if_true, same, List.nil_append]
        exact inductionHypothesis pending
      | false =>
        rw [List.filter_cons_of_pos (by simp [isCancel]), play, play, underWay]
        simp only [if_true]
        rw [inductionHypothesis (pending_turn world underWay flagged turn)]

/-- A request to end that meets a run sets its flag. -/
theorem play_cancel {activity : Activity σ} (underWay : activity.isUnderWay = true)
    (turns : List (Turn σ)) :
    play world (.cancel :: turns) activity = play world turns activity.cancel := by
  rw [play, underWay]
  rfl

theorem length_groups (store : Store) : store.groups.length = store.targets.toNat + 3 := by
  simp [Store.groups, Group.tracked]

/-- From a request to end on, a run makes the lookups that the collection at hand has left and
renders no report. -/
theorem ending_of_cancel (turns : List (Turn σ)) {activity : Activity σ} {events : List Event}
    {phase : Phase} (call : activity.call = some phase) :
    let later := play world (.cancel :: turns) activity
    later.1.Accounts (Ending (lookups events + phase.left) (reports events))
      (events ++ later.2) := by
  intro later
  have account : phase.Ending (lookups events + phase.left) (reports events) (lookups events)
      (reports events) := ⟨Nat.le_refl _, fun _ => rfl, rfl⟩
  cases underWay : activity.isUnderWay with
  | false =>
    have same : later = (activity, []) := play_of_over underWay _
    rw [same, List.append_nil]
    refine ⟨phase, call, account, fun goesOn => ?_⟩
    have still : activity.isUnderWay = true := (isUnderWay_iff activity).mpr ⟨phase, call, goesOn⟩
    rw [underWay] at still
    cases still
  | true =>
    have same : later = play world turns activity.cancel := play_cancel underWay turns
    rw [same]
    exact ending_play turns ⟨phase, call, account, fun _ => rfl⟩

/-- Wherever a request to end meets the run of a start, the run ends with the collection or the
report at hand. -/
theorem cancel_ends_run_exactly (world : World σ) {activity begun : Activity σ}
    {interval : Option Quantity} (started : activity.start interval = .ok begun)
    (before after : List (Turn σ)) :
    let groups := activity.loop.store.targets.toNat + 3
    let met := play world before begun
    let ended := play world (before ++ .cancel :: after) begun
    (reports ended.2 = reports met.2 ∧
      ∀ phase, met.1.call = some phase → lookups ended.2 ≤ lookups met.2 + phase.left) ∧
    (ended.1.call = some (.over none) →
      (∀ purpose side group left failed,
        met.1.call = some (.collecting purpose side (group :: left) failed) →
          let cycle := lookups met.2 / groups
          lookups ended.2 = (cycle + 1) * groups ∧ reports ended.2 = cycle - 1) ∧
      (met.1.call = some .rendered ∨ met.1.call = some .waiting →
        ∃ report, reports met.2 = report + 1 ∧
          lookups ended.2 = (report + 2) * groups ∧ reports ended.2 = report + 1)) ∧
    (groups + 2 ≤ after.countP Turn.isStep → ended.1.isUnderWay = false) ∧
    ended = play world (before ++ .cancel :: after.filter fun turn => !turn.isCancel) begun := by
  intro groups met ended
  obtain ⟨interval', rfl⟩ := begun_of_start started
  have tallied : met.1.Accounts (Tallied groups) ([] ++ met.2) :=
    tallied_play before ⟨.launched, rfl, length_groups activity.loop.store, rfl, rfl⟩
  obtain ⟨phase, call, -, tally⟩ := tallied
  rw [List.nil_append] at tally
  have parts : ended = ((play world (.cancel :: after) met.1).1,
      met.2 ++ (play world (.cancel :: after) met.1).2) := play_append world _ _ _
  have ending : ended.1.Accounts (Ending (lookups met.2 + phase.left) (reports met.2))
      ended.2 := by
    rw [parts]
    exact ending_of_cancel after call
  obtain ⟨last, callLast, account, -⟩ := ending
  refine ⟨⟨account.silent, fun phase' call' => ?_⟩, fun isOver => ?_, fun enough => ?_, ?_⟩
  · obtain rfl := Option.some.inj (call.symm.trans call')
    have within := account.within
    omega
  · obtain rfl := Option.some.inj (callLast.symm.trans isOver)
    have total := account.exact trivial
    rw [account.silent]
    refine ⟨fun purpose side group left failed during => ?_, fun during => ?_⟩
    · obtain rfl := Option.some.inj (call.symm.trans during)
      exact counts_of_collecting tally total
    · have counted : ∃ report, reports met.2 = report + 1 ∧
          lookups met.2 = (report + 2) * groups ∧ phase.left = 0 := by
        rcases during with rendered | waiting
        · obtain rfl := Option.some.inj (call.symm.trans rendered)
          obtain ⟨report, shown, made⟩ := tally
          exact ⟨report, shown, made, rfl⟩
        · obtain rfl := Option.some.inj (call.symm.trans waiting)
          obtain ⟨report, shown, made⟩ := tally
          exact ⟨report, shown, made, rfl⟩
      obtain ⟨report, shown, made, none⟩ := counted
      rw [none] at total
      exact ⟨report, shown, total.trans made, shown⟩
  · rw [parts]
    cases underWay : met.1.isUnderWay with
    | false => rw [play_of_over underWay]; exact underWay
    | true =>
      rw [play_cancel underWay]
      exact over_of_steps after call (fun _ => rfl) (Nat.le_trans (ahead_le tally) enough)
  · rw [parts, play_append]
    show _ = ((play world (.cancel :: _) met.1).1, met.2 ++ (play world (.cancel :: _) met.1).2)
    cases underWay : met.1.isUnderWay with
    | false => rw [play_of_over underWay, play_of_over underWay]
    | true =>
      rw [play_cancel underWay, play_cancel underWay, ← play_filter after fun _ => rfl]

/-- A world whose counters and clock go on with every reading. -/
def steady : World Nat where
  lookup _ _ state := (.ok [{ processed := 3 * state, dropped := state }], state + 1)
  clock state := (.ok state, state)

/-- A loop over one core and one target that has not run. -/
def idle : Activity Nat :=
  { loop := { store := .blank 1 1, interval := .whole 1 }, state := 1 }

/-- The same loop with a run that was just started. -/
def freshRun : Activity Nat := { idle with call := some .launched }

theorem cancel_ends_second_cycle :
    let before := List.replicate 15 Turn.step
    let after := List.replicate 6 Turn.step ++ [.cancel]
    idle.start none = .ok freshRun ∧ lookups (play steady before freshRun).2 = 10 ∧
      lookups (play steady (before ++ .cancel :: after) freshRun).2 = 12 ∧
      reports (play steady (before ++ .cancel :: after) freshRun).2 = 1 := by
  intro before after
  have started : idle.start none = .ok freshRun := rfl
  have made : lookups (play steady before freshRun).2 = 10 := by decide +kernel
  have collects : (play steady before freshRun).1.call =
      some (.collecting .cycle .first [.enqueue 0, .kthread] 0) := by
    decide +kernel
  have isOver : (play steady (before ++ .cancel :: after) freshRun).1.call =
      some (.over none) := by
    decide +kernel
  obtain ⟨-, exact, -⟩ := cancel_ends_run_exactly steady started before after
  obtain ⟨total, shown⟩ := (exact isOver).1 _ _ _ _ _ collects
  rw [made] at total shown
  exact ⟨started, made, total, shown⟩

end Activity

end RedirectMonitor
