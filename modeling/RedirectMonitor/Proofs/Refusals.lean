/-
This file says what the system refuses of its own accord, and what comes of it in a lookup. A time
limit is kept up to the longest one, and what is no number is not kept. A command line is refused
before its program starts, a time limit only after that, so that a program which cannot be started
is reported as such whatever its time limit.

The content is that a lookup which the system performs has a fault just where the run is refused, or
where it is not and the output of the successful program exceeds a limit of the reader of JSON.
-/

import RedirectMonitor.Proofs.Containment

namespace RedirectMonitor

/-! ### Limits -/

/-- A finite number compares with all quantities but with what is no number. -/
theorem Quantity.compare?_finite_eq_none_iff (quantity : Quantity) (negative : Bool)
    (significand shift : Nat) :
    quantity.compare? (.real (.finite negative significand shift)) = none ↔
      quantity = .real .nan := by
  rcases quantity with count | _ | negative' | ⟨negative', significand', shift'⟩
  · cases negative <;> exact iff_of_false (Option.some_ne_none _) nofun
  · exact iff_of_true rfl rfl
  · cases negative' <;> exact iff_of_false (Option.some_ne_none _) nofun
  · cases negative' <;> exact iff_of_false (Option.some_ne_none _) nofun

namespace Refusal

/-- The longest time limit as the number of 2147483.647 seconds that is kept. -/
theorem longestLimit_eq : longestLimit = .real (.finite false 4611686016279904 1043) := by
  decide +kernel

/-- A time limit can be kept that compares with the longest one and does not exceed it. -/
theorem ofLimit?_eq_none_iff (limit : Quantity) :
    ofLimit? limit = none ↔
      limit.compare? longestLimit = some .lt ∨ limit.compare? longestLimit = some .eq := by
  have compares := limit.compare?_finite_eq_none_iff false 4611686016279904 1043
  rw [← longestLimit_eq] at compares
  unfold ofLimit?
  split
  · simp [compares.mpr rfl]
  · have above : (Quantity.real (.infinite false)).compare? longestLimit = some .gt := by
      rw [longestLimit_eq]
      rfl
    simp [above]
  · rename_i number _
    cases compared : limit.compare? longestLimit with
    | none => exact absurd (compares.mp compared) number
    | some order => cases order <;> simp

/-- A whole number of seconds can be waited that fits into 64 bits as nanoseconds. -/
theorem ofWait?_whole_eq_none_iff (seconds : Int) :
    ofWait? (.whole seconds) = none ↔ seconds * 1000000000 < (Nat.pow 2 63 : Int) := by
  have order : (Quantity.whole seconds).compare? longestWait = some (compare seconds 9223372036) :=
    rfl
  have bound : (Nat.pow 2 63 : Int) = 9223372036854775808 := by decide
  unfold ofWait?
  rw [order, bound]
  simp only [Option.some.injEq, Int.compare_eq_gt, ite_eq_right_iff, reduceCtorEq, imp_false]
  omega

end Refusal

namespace Bpftool

/-! ### Runs that the system performs -/

/-- The system refuses to run a tool: its command line is ill-formed, or the program has started and
the time limit cannot be kept. -/
inductive Tool.Refuses (tool : Tool Quantity) (words : List String) (run : Run)
    (refusal : Refusal) : Prop
  | command (illFormed : tool.refusal? words = some refusal)
  | limit {limit : Quantity} (wellFormed : tool.refusal? words = none)
      (started : ∀ number reason, run ≠ .notStarted number reason)
      (given : tool.timeout = some limit) (unkept : Refusal.ofLimit? limit = some refusal)

theorem limited_of_started (tool : Tool Quantity) {run : Run}
    (started : ∀ number reason, run ≠ .notStarted number reason) :
    tool.limited run = ((tool.timeout.bind Refusal.ofLimit?).map Run.refused).getD run := by
  cases run with
  | notStarted number reason => exact absurd rfl (started number reason)
  | timedOut | ended | refused =>
    unfold Tool.limited
    cases tool.timeout.bind Refusal.ofLimit? <;> rfl

/-- What a program comes to is never a refusal of its own, so that a run which is performed is
refused just where the system refuses it. -/
theorem perform_eq_refused_iff (tool : Tool Quantity) (words : List String) {run : Run}
    (own : ∀ refusal, run ≠ .refused refusal) (refusal : Refusal) :
    tool.perform words run = .refused refusal ↔ tool.Refuses words run refusal := by
  unfold Tool.perform
  cases command : tool.refusal? words with
  | some found =>
    constructor
    · intro same
      cases same
      exact .command command
    · rintro (illFormed | ⟨wellFormed⟩)
      · rw [Option.some.inj (command.symm.trans illFormed)]
      · cases command.symm.trans wellFormed
  | none =>
    dsimp only
    constructor
    · intro limited
      have started (number : Int) (reason : String) : run ≠ .notStarted number reason := by
        rintro rfl
        cases limited
      rw [limited_of_started tool started] at limited
      cases unkept : tool.timeout.bind Refusal.ofLimit? with
      | none => exact absurd (by simpa [unkept] using limited) (own refusal)
      | some found =>
        obtain ⟨limit, given, unkept'⟩ := Option.bind_eq_some_iff.mp unkept
        obtain rfl : found = refusal := by simpa [unkept] using limited
        exact .limit command started given unkept'
    · rintro (illFormed | ⟨-, started, given, unkept⟩)
      · cases command.symm.trans illFormed
      · simp [limited_of_started tool started, given, unkept]

/-- A run is what the program comes to, or it is refused. -/
theorem perform_eq_self_or_refused (tool : Tool Quantity) (words : List String) (run : Run) :
    tool.perform words run = run ∨ ∃ refusal, tool.perform words run = .refused refusal := by
  unfold Tool.perform
  cases tool.refusal? words with
  | some refusal => exact .inr ⟨refusal, rfl⟩
  | none =>
    by_cases started : ∀ number reason, run ≠ .notStarted number reason
    · dsimp only
      rw [limited_of_started tool started]
      cases tool.timeout.bind Refusal.ofLimit? with
      | none => exact .inl rfl
      | some refusal => exact .inr ⟨refusal, rfl⟩
    · push Not at started
      obtain ⟨number, reason, rfl⟩ := started
      exact .inl rfl

/-- The faults of a lookup whose run the system performs are its refusals and, where it refuses
nothing, those of a successful program whose output exceeds a limit. -/
theorem interpret_perform_fault_iff (tool : Tool Quantity) (map : String) (key : Int)
    (words : List String) {run : Run} (own : ∀ refusal, run ≠ .refused refusal)
    (fault : LookupFault) :
    interpret tool map key (tool.perform words run) = .error (.fault fault) ↔
      (∃ refusal, tool.Refuses words run refusal ∧ fault = .run refusal) ∨
        (∀ refusal, ¬tool.Refuses words run refusal) ∧
          ∃ output errors, run = .ended 0 output errors ∧ OutputExceeds output fault := by
  simp only [interpret_fault_iff, perform_eq_refused_iff tool words own]
  rw [or_comm]
  refine or_congr_right ?_
  rcases perform_eq_self_or_refused tool words run with same | ⟨refusal, refused⟩
  · have accepted (refusal : Refusal) : ¬tool.Refuses words run refusal := fun refuses =>
      own refusal (same.symm.trans ((perform_eq_refused_iff tool words own refusal).mpr refuses))
    simp [same, accepted]
  · have refuses := (perform_eq_refused_iff tool words own refusal).mp refused
    simp only [refused]
    constructor
    · rintro ⟨output, errors, ended, -⟩
      cases ended
    · exact fun ⟨accepted, _⟩ => absurd refuses (accepted refusal)

end Bpftool

end RedirectMonitor
