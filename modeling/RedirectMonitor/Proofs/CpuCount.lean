/-
This file says when the number of CPUs is found. What the kernel's list says does not matter: a text
that is no list, a list without a number, and a missing list all leave the number that the system
reports, or one. But a list is read as a text first, and for bytes that no text is written as the
count fails, and with it the preparation of a run.

The content is that nothing else fails. Every way to the end of the count gives at least one CPU,
unless the system itself reports a negative number, so that the snapshots have a sample for each.
-/

import RedirectMonitor.Proofs.ExitStatus

namespace RedirectMonitor

namespace Monitor

variable {σ : Type}

theorem prepare_cpuList_iff (environment : Environment σ) (settings : Settings)
    (tool : Bpftool.Tool Quantity) (cause : Utf8.IllFormed) :
    (prepare environment settings tool).outcome = .error (.cpuList cause) ↔
      MapDirectory.check environment.files tool.directory counterMapNames = .ok () ∧
        (PossibleCpus.count environment.cpuListPath environment.cpuList
          environment.reportedCpus).outcome = .error cause := by
  rw [prepare_outcome]
  rcases MapDirectory.check environment.files tool.directory counterMapNames with
    (reason | name) | _
  · simp
  · simp
  · rcases (PossibleCpus.count environment.cpuListPath environment.cpuList
      environment.reportedCpus).outcome with other | cores
    · simp
    · cases environment.memory <;> simp

theorem cores_of_prepare {environment : Environment σ} {settings : Settings}
    {tool : Bpftool.Tool Quantity} {store : Store}
    (prepared : (prepare environment settings tool).outcome = .ok store) :
    (PossibleCpus.count environment.cpuListPath environment.cpuList
      environment.reportedCpus).outcome = .ok store.cores := by
  rw [prepare_outcome] at prepared
  split at prepared
  · cases prepared
  · cases prepared
  · cases prepared
  · rename_i cores _ counted
    split at prepared
    · rw [counted, ← Except.ok.inj prepared]
      rfl
    · cases prepared

/-- The count of the CPUs gives at least one unless the kernel's list is a file whose bytes no text
is written as; for such a file it fails, and with it the preparation of a run, and nothing takes the
place of the list. So the snapshots that a run begins with have at least one core. -/
theorem cores_counted_iff_isText {environment : Environment σ}
    (sound : ∀ count ∈ environment.reportedCpus, 0 ≤ count) :
    let counted := (PossibleCpus.count environment.cpuListPath environment.cpuList
      environment.reportedCpus).outcome
    ((∃ cores, 1 ≤ cores ∧ counted = .ok cores) ↔ environment.cpuList.IsText) ∧
    ((∃ cause, counted = .error cause) ↔ ¬environment.cpuList.IsText) ∧
    ∀ (settings : Settings) (tool : Bpftool.Tool Quantity),
      (∀ store, (prepare environment settings tool).outcome = .ok store → 1 ≤ store.cores) ∧
      ((∃ cause, (prepare environment settings tool).outcome = .error (.cpuList cause)) ↔
        MapDirectory.check environment.files tool.directory counterMapNames = .ok () ∧
          ¬environment.cpuList.IsText) := by
  intro counted
  have fails : (∃ cause, counted = .error cause) ↔ ¬environment.cpuList.IsText := by
    constructor
    · rintro ⟨cause, failed⟩ isText
      obtain ⟨cores, given, -⟩ := PossibleCpus.count_of_isText _ isText _
      cases failed.symm.trans given
    · intro noText
      obtain ⟨bytes, cause, listed, illFormed⟩ := PossibleCpus.exists_illFormed noText
      refine ⟨cause, ?_⟩
      simp only [counted, listed]
      exact PossibleCpus.count_of_illFormed _ illFormed _
  have found {cores : Int} (given : counted = .ok cores) :
      environment.cpuList.IsText ∧ 1 ≤ cores := by
    have isText : environment.cpuList.IsText := by
      by_contra noText
      obtain ⟨cause, failed⟩ := fails.mpr noText
      cases failed.symm.trans given
    obtain ⟨cores', given', least⟩ := PossibleCpus.count_of_isText _ isText _
    rw [Except.ok.inj (given.symm.trans given')]
    exact ⟨isText, least sound⟩
  have counts (isText : environment.cpuList.IsText) : ∃ cores, 1 ≤ cores ∧ counted = .ok cores := by
    obtain ⟨cores, given, least⟩ := PossibleCpus.count_of_isText _ isText _
    exact ⟨cores, least sound, given⟩
  refine ⟨⟨fun ⟨_, _, given⟩ => (found given).1, counts⟩, fails,
    fun settings tool => ⟨fun store prepared => (found (cores_of_prepare prepared)).2, ?_⟩⟩
  simp only [prepare_cpuList_iff, exists_and_left]
  exact and_congr_right fun _ => fails

/-- A system like the busy one whose list of possible CPUs starts like a range and goes on with a
byte that starts no character. -/
def binaryList : Environment Nat :=
  { busy with cpuList := .file [0x30, 0x2d, 0x33, 0xff, 0x0a] }

theorem prepare_fails_on_binaryList :
    (∀ count ∈ binaryList.reportedCpus, 0 ≤ count) ∧
      ∃ cause, (prepare binaryList {} busyRun.1).outcome = .error (.cpuList cause) := by
  have sound : ∀ count ∈ binaryList.reportedCpus, 0 ≤ count := by decide
  obtain ⟨-, -, prepares⟩ := cores_counted_iff_isText sound
  refine ⟨sound, (prepares {} busyRun.1).2.mpr ⟨rfl, fun ⟨text, encoded⟩ => ?_⟩⟩
  have decoded := Utf8.decode_eq_ok_iff.mpr encoded
  cases decoded

end Monitor

end RedirectMonitor
