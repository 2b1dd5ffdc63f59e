/-
This file says that the sort sorts, and that it is stable. Whatever runs the items are cut into
and in whatever order these are merged, every run that waits is in order, and all runs together,
followed by what is still to come, are a stable rearrangement of the items.

The content is that the counts of turns suffice: a run takes an item at least, so that no item
is left when all runs are found, and a merge leaves one run less, so that one is left in the
end.
-/

import RedirectMonitor.Proofs.StableMerge

namespace RedirectMonitor.Sorting

variable {α ε κ : Type} [LinearOrder κ]

namespace Runs

/-- Every run that waits is in order. -/
def Sound (rank : α → κ) (runs : Runs α) : Prop :=
  ∀ run ∈ runs.waiting, Ordered rank run.items

/-- Runs that came from others by merging: they are in order, their items are those of the others,
and they are not more. -/
structure Merged (rank : α → κ) (runs next : Runs α) : Prop where
  sound : next.Sound rank
  same : Rearranges rank next.items runs.items
  count : next.waiting.length ≤ runs.waiting.length

theorem items_cons (run : Run α) (others : List (Run α)) (patience : Nat) :
    items { waiting := run :: others, patience := patience } =
      items { waiting := others, patience := patience } ++ run.items := by
  simp [items]

variable {rank : α → κ} {less : α → α → Except ε Bool} {runs : Runs α}

theorem Merged.refl (sound : runs.Sound rank) : Merged rank runs runs :=
  ⟨sound, .refl rank _, Nat.le_refl _⟩

theorem Merged.trans {next last : Runs α} (first : Merged rank runs next)
    (second : Merged rank next last) : Merged rank runs last :=
  ⟨second.sound, second.same.trans first.same, second.count.trans first.count⟩

theorem Merged.decides {next : Runs α} (merged : Merged rank runs next)
    (decides : Decides rank less runs.items) : Decides rank less next.items :=
  decides.subset merged.same.perm.subset

/-- The latest two runs become one that is in order. -/
theorem mergeLatest_spec (decides : Decides rank less runs.items) (sound : runs.Sound rank) :
    ∃ next, runs.mergeLatest less = .ok next ∧ Merged rank runs next ∧
      (2 ≤ runs.waiting.length → next.waiting.length + 1 = runs.waiting.length) := by
  obtain ⟨waiting, patience⟩ := runs
  rcases waiting with - | ⟨latest, - | ⟨earlier, others⟩⟩
  · exact ⟨_, rfl, .refl sound, fun two => absurd two (by simp)⟩
  · exact ⟨_, rfl, .refl sound, fun two => absurd two (by simp)⟩
  · rw [items_cons, items_cons] at decides
    have decidesBoth : Decides rank less (earlier.items ++ latest.items) :=
      decides.subset fun item member => by
        rw [List.append_assoc]
        exact List.mem_append_right _ member
    obtain ⟨patience', items, merged, ordered, same⟩ := mergeRuns_spec patience decidesBoth
      (sound earlier (by simp)) (sound latest (by simp))
    unfold mergeLatest
    simp only [merged, bind, Except.bind]
    refine ⟨_, rfl, ⟨fun run member => ?_, ?_, Nat.le_succ _⟩, fun _ => rfl⟩
    · rcases List.mem_cons.mp member with rfl | old
      · exact ordered
      · exact sound run (by simp [old])
    · rw [items_cons, items_cons, items_cons, List.append_assoc]
      exact (Rearranges.refl rank _).append same

/-- The two runs before the latest become one that is in order. -/
theorem mergeBeforeLatest_spec (decides : Decides rank less runs.items)
    (sound : runs.Sound rank) :
    ∃ next, runs.mergeBeforeLatest less = .ok next ∧ Merged rank runs next ∧
      (3 ≤ runs.waiting.length → next.waiting.length + 1 = runs.waiting.length) := by
  obtain ⟨waiting, patience⟩ := runs
  rcases waiting with - | ⟨latest, others⟩
  · exact ⟨_, rfl, .refl sound, fun three => absurd three (by simp)⟩
  · rw [items_cons] at decides
    obtain ⟨next, found, merged, fewer⟩ := mergeLatest_spec
      (decides.subset (List.subset_append_left _ _)) fun run member => sound run (by simp_all)
    unfold mergeBeforeLatest
    simp only [found, bind, Except.bind]
    refine ⟨_, rfl, ⟨fun run member => ?_, ?_, Nat.succ_le_succ merged.count⟩, fun three => ?_⟩
    · rcases List.mem_cons.mp member with rfl | old
      · exact sound run (by simp)
      · exact merged.sound run old
    · rw [items_cons, items_cons]
      exact merged.same.append (.refl rank _)
    · simp only [List.length_cons] at three fewer ⊢
      have := fewer (by omega)
      omega

theorem settle_spec (depth turns : Nat) (decides : Decides rank less runs.items)
    (sound : runs.Sound rank) :
    ∃ next, runs.settle less depth turns = .ok next ∧ Merged rank runs next := by
  induction turns generalizing runs with
  | zero => exact ⟨runs, rfl, .refl sound⟩
  | succ turns inductionHypothesis =>
    rw [settle]
    split
    · split
      · obtain ⟨next, found, merged, -⟩ := mergeLatest_spec decides sound
        obtain ⟨last, settled, merged'⟩ := inductionHypothesis (merged.decides decides) merged.sound
        simp only [found, bind, Except.bind]
        exact ⟨last, settled, merged.trans merged'⟩
      · exact ⟨runs, rfl, .refl sound⟩
    · exact ⟨runs, rfl, .refl sound⟩

/-- One more run is added behind the others, whichever of these are merged before. -/
theorem add_spec (count : Nat) {items : List α} (decides : Decides rank less runs.items)
    (sound : runs.Sound rank) (ordered : Ordered rank items) :
    ∃ next, runs.add less count items = .ok next ∧ next.Sound rank ∧
      Rearranges rank next.items (runs.items ++ items) := by
  unfold add
  split
  · rename_i none
    refine ⟨_, rfl, fun run member => ?_, ?_⟩
    · rw [List.mem_singleton.mp member]
      exact ordered
    · have all : runs.items ++ items = Runs.items { runs with
          waiting := [{ items := items, depth := 0 }] } := by simp [Runs.items, none]
      rw [all]
      exact .refl rank _
  · rename_i latest others waiting
    obtain ⟨settled, found, merged⟩ := settle_spec
      (boundaryDepth count runs.items.length latest.items.length items.length)
      runs.waiting.length decides sound
    simp only [found, bind, Except.bind]
    refine ⟨_, rfl, fun run member => ?_, ?_⟩
    · rcases List.mem_cons.mp member with rfl | old
      · exact ordered
      · exact merged.sound run old
    · rw [items_cons]
      exact merged.same.append (.refl rank _)

/-- The items are cut into runs, each in order, with nothing left over. -/
theorem ofItems_spec (count turns : Nat) (rest : List α) (enough : rest.length ≤ turns)
    (decides : Decides rank less (runs.items ++ rest)) (sound : runs.Sound rank) :
    ∃ last, ofItems less count turns runs rest = .ok last ∧ last.Sound rank ∧
      Rearranges rank last.items (runs.items ++ rest) := by
  induction turns generalizing runs rest with
  | zero =>
    obtain rfl := List.eq_nil_of_length_eq_zero (Nat.le_zero.mp enough)
    exact ⟨runs, rfl, sound, by rw [List.append_nil]; exact .refl rank _⟩
  | succ turns inductionHypothesis =>
    rw [ofItems]
    rcases rest with - | ⟨first, rest⟩
    · exact ⟨runs, rfl, sound, by rw [List.append_nil]; exact .refl rank _⟩
    · obtain ⟨items, left, found, ordered, same, shorter⟩ := longRun_spec (leastRun count)
        (first :: rest) (decides.subset (List.subset_append_right _ _))
      obtain ⟨next, added, soundNext, sameNext⟩ := add_spec count
        (decides.subset (List.subset_append_left _ _)) sound ordered
      have whole : Rearranges rank (next.items ++ left) (runs.items ++ first :: rest) := by
        have together := sameNext.append (.refl rank left)
        rw [List.append_assoc] at together
        exact together.trans ((Rearranges.refl rank _).append same)
      obtain ⟨last, done, soundLast, sameLast⟩ := inductionHypothesis left
        (by have := shorter (List.cons_ne_nil _ _); omega)
        (decides.subset whole.perm.subset) soundNext
      simp only [List.isEmpty_cons, found, added, bind, Except.bind]
      exact ⟨last, done, soundLast, sameLast.trans whole⟩

/-- The runs become one, or none if there were none. -/
theorem unite_spec (turns : Nat) (enough : runs.waiting.length ≤ turns)
    (decides : Decides rank less runs.items) (sound : runs.Sound rank) :
    ∃ last, runs.unite less turns = .ok last ∧ Merged rank runs last ∧
      last.waiting.length ≤ 1 := by
  induction turns generalizing runs with
  | zero => exact ⟨runs, rfl, .refl sound, by omega⟩
  | succ turns inductionHypothesis =>
    have onward {next : Runs α} (merged : Merged rank runs next)
        (fewer : next.waiting.length + 1 = runs.waiting.length) :
        ∃ last, next.unite less turns = .ok last ∧ Merged rank runs last ∧
          last.waiting.length ≤ 1 := by
      obtain ⟨last, united, merged', one⟩ := inductionHypothesis (by omega)
        (merged.decides decides) merged.sound
      exact ⟨last, united, merged.trans merged', one⟩
    rw [unite]
    split
    · rename_i latest middle earlier others waiting
      have three : 3 ≤ runs.waiting.length := by simp [waiting]
      split
      · obtain ⟨next, found, merged, fewer⟩ := mergeBeforeLatest_spec decides sound
        simp only [found, bind, Except.bind]
        exact onward merged (fewer three)
      · obtain ⟨next, found, merged, fewer⟩ := mergeLatest_spec decides sound
        simp only [found, bind, Except.bind]
        exact onward merged (fewer (by omega))
    · rename_i few
      obtain ⟨next, found, merged, fewer⟩ := mergeLatest_spec decides sound
      refine ⟨next, found, merged, ?_⟩
      have two : runs.waiting.length ≤ 2 := by
        rcases waiting : runs.waiting with - | ⟨latest, - | ⟨middle, - | ⟨earlier, others⟩⟩⟩
        · simp
        · simp
        · simp
        · exact absurd waiting (few latest middle earlier others)
      by_cases both : 2 ≤ runs.waiting.length
      · have := fewer both
        omega
      · have := merged.count
        omega

/-- A single run that is in order is all there is. -/
theorem Sound.ordered_items (sound : runs.Sound rank) (single : runs.waiting.length ≤ 1) :
    Ordered rank runs.items := by
  obtain ⟨waiting, patience⟩ := runs
  rcases waiting with - | ⟨run, - | ⟨other, others⟩⟩
  · exact List.Pairwise.nil
  · have all : items { waiting := [run], patience := patience } = run.items := by simp [items]
    rw [all]
    exact sound run (by simp)
  · simp at single

end Runs

/-- Where a comparison decides the order of ranks, the sort succeeds: the items come out in the
order of their ranks, and those of one rank in the order given. -/
theorem sort_spec {rank : α → κ} {less : α → α → Except ε Bool} {items : List α}
    (decides : Decides rank less items) :
    ∃ sorted, sort less items = .ok sorted ∧ Ordered rank sorted ∧
      Rearranges rank sorted items := by
  have none : Runs.empty.Sound rank := fun _ member => absurd member List.not_mem_nil
  obtain ⟨runs, found, sound, same⟩ :=
    Runs.ofItems_spec items.length items.length items (Nat.le_refl _) decides none
  obtain ⟨last, united, merged, single⟩ := Runs.unite_spec runs.waiting.length (Nat.le_refl _)
    (decides.subset same.perm.subset) sound
  refine ⟨last.items, ?_, merged.sound.ordered_items single, merged.same.trans same⟩
  unfold sort
  simp only [found, united, bind, Except.bind]
  rfl

end RedirectMonitor.Sorting
