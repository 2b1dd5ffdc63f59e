/-
This file says that the sort loses nothing and doubles nothing, whatever the comparison answers. A
comparison that fails ends it; where none fails, the items come out each as often as they went in,
even if the answers make no order.

The content is that no step of the sort drops an item. Looking ahead cuts a list in two and leaves
both parts as they stand, and a merge has all its items at every moment, so that it does not matter
when it stops. Only the search for runs depends on a count of turns, and each of its turns takes
an item at least.
-/

import Mathlib.Data.List.Basic
import RedirectMonitor.Proofs.JsonProgress
import RedirectMonitor.Sorting

namespace RedirectMonitor.Sorting

variable {α ε : Type}

/-! ### Looking ahead -/

section Cutting

variable {side : End} {leads : α → Except ε Bool} {items given rest : List α}

/-- Halving cuts a list in two, wherever it cuts. -/
theorem append_of_splitWithin {turns : Nat}
    (found : splitWithin side leads turns items = .ok (given, rest)) : given ++ rest = items := by
  induction turns generalizing items given rest with
  | zero =>
    obtain ⟨rfl, rfl⟩ := Prod.mk.inj (Except.ok.inj found)
    rfl
  | succ turns inductionHypothesis =>
    have halves := List.take_append_drop (side.middle items.length) items
    rw [splitWithin] at found
    split at found
    · obtain ⟨rfl, rfl⟩ := Prod.mk.inj (Except.ok.inj found)
      rfl
    · rename_i middle above upper
      rw [upper] at halves
      obtain ⟨answer, -, found⟩ := bind_eq_ok_iff.mp found
      split at found
      all_goals
        obtain ⟨⟨leading, others⟩, inner, found⟩ := bind_eq_ok_iff.mp found
        obtain ⟨rfl, rfl⟩ := Prod.mk.inj (Except.ok.inj found)
        refine Eq.trans ?_ halves
        rw [← inductionHypothesis inner]
        simp

theorem append_of_split (found : split side leads items = .ok (given, rest)) :
    given ++ rest = items :=
  append_of_splitWithin found

theorem append_of_leapWithin {turns width : Nat}
    (found : leapWithin side leads turns width items = .ok (given, rest)) :
    given ++ rest = items := by
  induction turns generalizing width items given rest with
  | zero =>
    obtain ⟨rfl, rfl⟩ := Prod.mk.inj (Except.ok.inj found)
    rfl
  | succ turns inductionHypothesis =>
    have parts := List.take_append_drop width items
    rw [leapWithin] at found
    split at found
    · exact append_of_split found
    · rename_i landing beyond upper
      rw [upper] at parts
      obtain ⟨answer, -, found⟩ := bind_eq_ok_iff.mp found
      split at found
      all_goals
        obtain ⟨⟨leading, others⟩, inner, found⟩ := bind_eq_ok_iff.mp found
        obtain ⟨rfl, rfl⟩ := Prod.mk.inj (Except.ok.inj found)
      · refine Eq.trans ?_ parts
        rw [← inductionHypothesis inner]
        simp
      · refine Eq.trans ?_ parts
        rw [← append_of_split inner]
        simp

/-- Leaps cut a list in two, wherever they land. -/
theorem append_of_leap (found : leap side leads items = .ok (given, rest)) :
    given ++ rest = items := by
  cases items with
  | nil =>
    obtain ⟨rfl, rfl⟩ := Prod.mk.inj (Except.ok.inj found)
    rfl
  | cons first others =>
    rw [leap] at found
    obtain ⟨answer, -, found⟩ := bind_eq_ok_iff.mp found
    split at found
    · obtain ⟨⟨leading, left⟩, inner, found⟩ := bind_eq_ok_iff.mp found
      obtain ⟨rfl, rfl⟩ := Prod.mk.inj (Except.ok.inj found)
      rw [List.cons_append, append_of_leapWithin inner]
    · obtain ⟨rfl, rfl⟩ := Prod.mk.inj (Except.ok.inj found)
      rfl

end Cutting

/-! ### Runs and insertion -/

section Running

variable {less : α → α → Except ε Bool} {items sorted rest : List α}

theorem perm_of_insert {item : α} (found : insert less items item = .ok sorted) :
    sorted.Perm (items ++ [item]) := by
  obtain ⟨⟨before, behind⟩, halves, found⟩ := bind_eq_ok_iff.mp found
  obtain rfl := Except.ok.inj found
  rw [← append_of_split halves, List.append_assoc]
  exact (List.perm_append_singleton item behind).symm.append_left before

theorem perm_of_foldlM_insert {more : List α}
    (found : more.foldlM (insert less) items = .ok sorted) : sorted.Perm (items ++ more) := by
  induction more generalizing items with
  | nil =>
    obtain rfl := Except.ok.inj found
    rw [List.append_nil]
  | cons item more inductionHypothesis =>
    rw [List.foldlM_cons] at found
    obtain ⟨longer, inserted, found⟩ := bind_eq_ok_iff.mp found
    have together := (inductionHypothesis found).trans ((perm_of_insert inserted).append_right more)
    rwa [List.append_assoc, List.singleton_append] at together

theorem append_of_run {follows : α → α → Except ε Bool} {previous : α} {taken : List α}
    (found : run follows previous items = .ok (taken, rest)) : taken ++ rest = items := by
  induction items generalizing previous taken with
  | nil =>
    obtain ⟨rfl, rfl⟩ := Prod.mk.inj (Except.ok.inj found)
    rfl
  | cons item items inductionHypothesis =>
    rw [run] at found
    obtain ⟨answer, -, found⟩ := bind_eq_ok_iff.mp found
    split at found
    · obtain ⟨⟨later, left⟩, inner, found⟩ := bind_eq_ok_iff.mp found
      obtain ⟨rfl, rfl⟩ := Prod.mk.inj (Except.ok.inj found)
      rw [List.cons_append, inductionHypothesis inner]
    · obtain ⟨rfl, rfl⟩ := Prod.mk.inj (Except.ok.inj found)
      rfl

/-- The run at the front and the rest are the items, and the run is not empty unless they are. -/
theorem perm_of_frontRun (found : frontRun less items = .ok (sorted, rest)) :
    (sorted ++ rest).Perm items ∧ (items ≠ [] → rest.length < items.length) := by
  match items with
  | [] | [item] =>
    obtain ⟨rfl, rfl⟩ := Prod.mk.inj (Except.ok.inj found)
    simp
  | first :: second :: items =>
    rw [frontRun] at found
    obtain ⟨answer, -, found⟩ := bind_eq_ok_iff.mp found
    split at found
    all_goals
      obtain ⟨⟨taken, left⟩, inner, found⟩ := bind_eq_ok_iff.mp found
      obtain ⟨rfl, rfl⟩ := Prod.mk.inj (Except.ok.inj found)
      rw [← append_of_run inner]
      refine ⟨?_, fun _ => by simp only [List.length_cons, List.length_append]; omega⟩
    · exact (List.reverse_perm _).append_right left
    · exact List.Perm.refl _

theorem perm_of_longRun {least : Nat} (found : longRun less least items = .ok (sorted, rest)) :
    (sorted ++ rest).Perm items ∧ (items ≠ [] → rest.length < items.length) := by
  obtain ⟨⟨front, left⟩, first, found⟩ := bind_eq_ok_iff.mp found
  obtain ⟨longer, folded, found⟩ := bind_eq_ok_iff.mp found
  obtain ⟨rfl, rfl⟩ := Prod.mk.inj (Except.ok.inj found)
  obtain ⟨same, shorter⟩ := perm_of_frontRun first
  refine ⟨?_, fun nonempty => ?_⟩
  · refine ((perm_of_foldlM_insert folded).append_right _).trans ?_
    rw [List.append_assoc, List.take_append_drop]
    exact same
  · rw [List.length_drop]
    exact (Nat.sub_le _ _).trans_lt (shorter nonempty)

end Running

/-! ### Merges -/

namespace Merge

variable {less : α → α → Except ε Bool} {side : End} {merge next : Merge α}

/-- Items that move from the short run to the merged ones are not lost. -/
theorem items_give_short (merge : Merge α) (given rest : List α)
    (parts : given ++ rest = merge.short) :
    (items { merge with merged := given.reverse ++ merge.merged, short := rest }).Perm
      merge.items := by
  unfold items
  rw [← parts, List.reverse_append, List.reverse_reverse, List.append_assoc, List.append_assoc,
    List.append_assoc]
  refine List.Perm.append_left _ ?_
  rw [← List.append_assoc, ← List.append_assoc]
  exact List.perm_append_comm.append_right rest

theorem items_give_long (merge : Merge α) (given rest : List α)
    (parts : given ++ rest = merge.long) :
    items { merge with merged := given.reverse ++ merge.merged, long := rest } = merge.items := by
  simp [items, ← parts]

theorem perm_of_turn {byLong : Bool} {streak : Nat}
    (found : merge.turn less side byLong streak = .ok next) : next.items.Perm merge.items := by
  unfold turn at found
  split at found
  · rename_i first short first' long isShort isLong
    obtain ⟨answer, -, found⟩ := bind_eq_ok_iff.mp found
    split at found
    · obtain rfl := Except.ok.inj found
      exact .of_eq (items_give_long merge [first'] long isLong.symm)
    · obtain rfl := Except.ok.inj found
      exact items_give_short merge [first] short isShort.symm
  · obtain rfl := Except.ok.inj found
    exact .refl _

theorem perm_of_strideShort {count : Nat}
    (found : merge.strideShort less side = .ok (count, next)) : next.items.Perm merge.items := by
  unfold strideShort at found
  split at found
  · obtain ⟨-, rfl⟩ := Prod.mk.inj (Except.ok.inj found)
    exact .refl _
  · rename_i first long isLong
    obtain ⟨⟨given, short⟩, leaps, found⟩ := bind_eq_ok_iff.mp found
    have moved := items_give_short merge given short (append_of_leap leaps)
    dsimp only at found
    split at found
    all_goals obtain ⟨-, rfl⟩ := Prod.mk.inj (Except.ok.inj found)
    · exact moved
    · refine .trans (.of_eq ?_) moved
      exact items_give_long { merge with merged := given.reverse ++ merge.merged, short } [first]
        long isLong.symm

theorem perm_of_strideLong {count : Nat}
    (found : merge.strideLong less side = .ok (count, next)) : next.items.Perm merge.items := by
  unfold strideLong at found
  split at found
  · obtain ⟨-, rfl⟩ := Prod.mk.inj (Except.ok.inj found)
    exact .refl _
  · rename_i first short isShort
    obtain ⟨⟨given, long⟩, leaps, found⟩ := bind_eq_ok_iff.mp found
    have moved := items_give_long merge given long (append_of_leap leaps)
    dsimp only at found
    split at found
    all_goals obtain ⟨-, rfl⟩ := Prod.mk.inj (Except.ok.inj found)
    · exact .of_eq moved
    · refine .trans ?_ (.of_eq moved)
      exact items_give_short { merge with merged := given.reverse ++ merge.merged, long } [first]
        short isShort.symm

theorem perm_of_strides (found : merge.strides less side = .ok next) :
    next.items.Perm merge.items := by
  have both (one other : Merge α → Except ε (Nat × Merge α))
      (ofOne : ∀ {merge next : Merge α} {count}, one merge = .ok (count, next) →
        next.items.Perm merge.items)
      (ofOther : ∀ {merge next : Merge α} {count}, other merge = .ok (count, next) →
        next.items.Perm merge.items)
      (found : (one merge >>= fun first =>
          if first.2.isOver then pure first.2
          else other first.2 >>= fun second =>
            if second.2.isOver then pure second.2
            else pure (second.2.afterStrides first.1 second.1)) = .ok next) :
      next.items.Perm merge.items := by
    obtain ⟨⟨count, middle⟩, first, found⟩ := bind_eq_ok_iff.mp found
    split at found
    · obtain rfl := Except.ok.inj found
      exact ofOne first
    · obtain ⟨⟨count', last⟩, second, found⟩ := bind_eq_ok_iff.mp found
      have kept : next.items = last.items := by
        split at found
        · obtain rfl := Except.ok.inj found
          rfl
        · obtain rfl := Except.ok.inj found
          unfold afterStrides
          split <;> rfl
      rw [kept]
      exact (ofOther second).trans (ofOne first)
  unfold strides at found
  cases side with
  | front => exact both _ _ perm_of_strideShort perm_of_strideLong found
  | rear => exact both _ _ perm_of_strideLong perm_of_strideShort found

theorem perm_of_steps {turns : Nat} (found : merge.steps less side turns = .ok next) :
    next.items.Perm merge.items := by
  induction turns generalizing merge with
  | zero =>
    obtain rfl := Except.ok.inj found
    exact .refl _
  | succ turns inductionHypothesis =>
    rw [steps] at found
    split at found
    · obtain rfl := Except.ok.inj found
      exact .refl _
    · obtain ⟨middle, stepped, found⟩ := bind_eq_ok_iff.mp found
      refine (inductionHypothesis found).trans ?_
      unfold step at stepped
      split at stepped
      · exact perm_of_turn stepped
      · exact perm_of_strides stepped

theorem items_start (patience : Nat) (short long : List α) :
    (start patience short long).items = long ++ short := by
  cases long <;> rfl

end Merge

section Runs

variable {less : α → α → Except ε Bool} {left right items : List α} {patience patience' : Nat}

theorem perm_of_mergeWhole (found : mergeWhole less patience left right = .ok (patience', items)) :
    items.Perm (left ++ right) := by
  unfold mergeWhole at found
  split at found
  all_goals
    obtain ⟨merge, finished, found⟩ := bind_eq_ok_iff.mp found
    obtain ⟨-, rfl⟩ := Prod.mk.inj (Except.ok.inj found)
    have same := Merge.perm_of_steps finished
    rw [Merge.items_start] at same
  · exact same.trans List.perm_append_comm
  · rw [← List.reverse_append] at same
    exact (List.reverse_perm _).trans
      (same.trans ((List.reverse_perm _).trans List.perm_append_comm))

theorem perm_of_mergeRuns (found : mergeRuns less patience left right = .ok (patience', items)) :
    items.Perm (left ++ right) := by
  unfold mergeRuns at found
  split at found
  · obtain ⟨-, rfl⟩ := Prod.mk.inj (Except.ok.inj found)
    rw [List.append_nil]
  · rename_i first others
    obtain ⟨⟨before, rest⟩, leaps, found⟩ := bind_eq_ok_iff.mp found
    rw [← append_of_leap leaps]
    dsimp only at found
    split at found
    · rename_i none
      obtain ⟨-, rfl⟩ := Prod.mk.inj (Except.ok.inj found)
      rw [List.getLast?_eq_none_iff.mp none, List.append_nil]
    · obtain ⟨⟨behind, waiting⟩, leaps', found⟩ := bind_eq_ok_iff.mp found
      have parts : waiting.reverse ++ behind.reverse = first :: others := by
        rw [← List.reverse_append, append_of_leap leaps', List.reverse_reverse]
      dsimp only at found
      split at found
      · rename_i empty
        obtain ⟨-, rfl⟩ := Prod.mk.inj (Except.ok.inj found)
        rw [← parts, List.isEmpty_iff.mp empty]
        exact .of_eq rfl
      · obtain ⟨⟨patience, merged⟩, whole, found⟩ := bind_eq_ok_iff.mp found
        obtain ⟨-, rfl⟩ := Prod.mk.inj (Except.ok.inj found)
        rw [← parts, ← List.append_assoc, List.append_assoc before rest]
        exact ((perm_of_mergeWhole whole).append_left before).append_right behind.reverse

end Runs

namespace Runs

variable {less : α → α → Except ε Bool} {runs next : Runs α}

theorem perm_of_mergeLatest (found : runs.mergeLatest less = .ok next) :
    next.items.Perm runs.items := by
  unfold mergeLatest at found
  split at found
  · rename_i latest earlier others waiting
    obtain ⟨⟨patience, merged⟩, whole, found⟩ := bind_eq_ok_iff.mp found
    obtain rfl := Except.ok.inj found
    simp only [items, waiting, List.reverse_cons, List.flatMap_append, List.flatMap_cons,
      List.flatMap_nil, List.append_nil, List.append_assoc]
    exact (perm_of_mergeRuns whole).append_left _
  · obtain rfl := Except.ok.inj found
    exact .refl _

theorem perm_of_mergeBeforeLatest (found : runs.mergeBeforeLatest less = .ok next) :
    next.items.Perm runs.items := by
  unfold mergeBeforeLatest at found
  split at found
  · rename_i latest others waiting
    obtain ⟨merged, whole, found⟩ := bind_eq_ok_iff.mp found
    obtain rfl := Except.ok.inj found
    have same := (perm_of_mergeLatest whole).append_right latest.items
    simpa [items, waiting] using same
  · obtain rfl := Except.ok.inj found
    exact .refl _

theorem perm_of_settle {depth turns : Nat} (found : runs.settle less depth turns = .ok next) :
    next.items.Perm runs.items := by
  induction turns generalizing runs with
  | zero =>
    obtain rfl := Except.ok.inj found
    exact .refl _
  | succ turns inductionHypothesis =>
    rw [settle] at found
    split at found
    · split at found
      · obtain ⟨merged, latest, found⟩ := bind_eq_ok_iff.mp found
        exact (inductionHypothesis found).trans (perm_of_mergeLatest latest)
      · obtain rfl := Except.ok.inj found
        exact .refl _
    · obtain rfl := Except.ok.inj found
      exact .refl _

theorem perm_of_add {count : Nat} {more : List α} (found : runs.add less count more = .ok next) :
    next.items.Perm (runs.items ++ more) := by
  unfold add at found
  split at found
  · rename_i none
    obtain rfl := Except.ok.inj found
    exact .of_eq (by simp [items, none])
  · obtain ⟨settled, merged, found⟩ := bind_eq_ok_iff.mp found
    obtain rfl := Except.ok.inj found
    have same := (perm_of_settle merged).append_right more
    simpa [items] using same

/-- As many turns as there are items are enough to find all runs. -/
theorem perm_of_ofItems {count turns : Nat} {rest : List α} (enough : rest.length ≤ turns)
    (found : ofItems less count turns runs rest = .ok next) :
    next.items.Perm (runs.items ++ rest) := by
  induction turns generalizing runs rest with
  | zero =>
    obtain rfl := List.eq_nil_of_length_eq_zero (Nat.le_zero.mp enough)
    obtain rfl := Except.ok.inj found
    rw [List.append_nil]
  | succ turns inductionHypothesis =>
    rw [ofItems] at found
    split at found
    · rename_i empty
      obtain rfl := Except.ok.inj found
      rw [List.isEmpty_iff.mp empty, List.append_nil]
    · rename_i nonempty
      obtain ⟨⟨taken, left⟩, long, found⟩ := bind_eq_ok_iff.mp found
      obtain ⟨longer, added, found⟩ := bind_eq_ok_iff.mp found
      obtain ⟨same, shorter⟩ := perm_of_longRun long
      have fewer := shorter fun none => nonempty (List.isEmpty_iff.mpr none)
      refine (inductionHypothesis (by omega) found).trans ?_
      refine ((perm_of_add added).append_right left).trans ?_
      rw [List.append_assoc]
      exact same.append_left _

theorem perm_of_unite {turns : Nat} (found : runs.unite less turns = .ok next) :
    next.items.Perm runs.items := by
  induction turns generalizing runs with
  | zero =>
    obtain rfl := Except.ok.inj found
    exact .refl _
  | succ turns inductionHypothesis =>
    rw [unite] at found
    split at found
    · split at found
      · obtain ⟨merged, before, found⟩ := bind_eq_ok_iff.mp found
        exact (inductionHypothesis found).trans (perm_of_mergeBeforeLatest before)
      · obtain ⟨merged, latest, found⟩ := bind_eq_ok_iff.mp found
        exact (inductionHypothesis found).trans (perm_of_mergeLatest latest)
    · exact perm_of_mergeLatest found

end Runs

/-- What the sort gives is a rearrangement of the items, whatever the comparison answers. -/
theorem perm_of_sort {less : α → α → Except ε Bool} {items sorted : List α}
    (found : sort less items = .ok sorted) : sorted.Perm items := by
  obtain ⟨runs, cut, found⟩ := bind_eq_ok_iff.mp found
  obtain ⟨last, united, found⟩ := bind_eq_ok_iff.mp found
  obtain rfl := Except.ok.inj found
  exact (Runs.perm_of_unite united).trans (Runs.perm_of_ofItems (Nat.le_refl _) cut)

end RedirectMonitor.Sorting
