/-
This file says that merging two adjacent runs in order gives one run in order, with all equal
items in their places. A merge moves items to its end in two ways only: items of the short run
that no item left of the long one comes before, and items of the long run that come before all
that is left of the short one. Turns and strides are made of these moves.

The content is the invariant that every move keeps, seen from the side at which the merge
began. Seen from the rear all is reversed, the order of the ranks included, so that one proof
serves both sides.
-/

import RedirectMonitor.Proofs.Ranked

namespace RedirectMonitor.Sorting

variable {α ε κ : Type} [LinearOrder κ]

/-! ### A merge as it goes on -/

namespace Merge

/-- What every merge of some items keeps: the items merged so far are in order and none of them
comes behind what is left of a run, the last item of the short run comes behind all that is left
of the long one, and no equal items have changed places. -/
structure Sound (rank : α → κ) (whole : List α) (merge : Merge α) : Prop where
  short : Ordered rank (merge.merged.reverse ++ merge.short)
  long : Ordered rank (merge.merged.reverse ++ merge.long)
  behind : ∀ last ∈ merge.short.getLast?, ∀ item ∈ merge.long, rank item < rank last
  same : Rearranges rank (merge.merged.reverse ++ (merge.short ++ merge.long)) whole

/-- How many items are left. -/
def left (merge : Merge α) : Nat := merge.short.length + merge.long.length

variable {rank : α → κ} {whole : List α} {merge : Merge α}

theorem Sound.ordered_short (sound : merge.Sound rank whole) : Ordered rank merge.short :=
  (Ordered.append_iff.mp sound.short).2.1

theorem Sound.ordered_long (sound : merge.Sound rank whole) : Ordered rank merge.long :=
  (Ordered.append_iff.mp sound.long).2.1

/-- The invariant says nothing of the pace and the patience. -/
theorem Sound.of_items (sound : merge.Sound rank whole) {other : Merge α}
    (merged : other.merged = merge.merged) (short : other.short = merge.short)
    (long : other.long = merge.long) : other.Sound rank whole := by
  obtain ⟨inShort, inLong, behind, same⟩ := sound
  rw [← merged, ← short] at inShort
  rw [← merged, ← long] at inLong
  rw [← short, ← long] at behind
  rw [← merged, ← short, ← long] at same
  exact ⟨inShort, inLong, behind, same⟩

/-- Items of the short run may move if nothing left of the long run comes before them. -/
theorem Sound.give_short (sound : merge.Sound rank whole) (given rest : List α)
    (parts : given ++ rest = merge.short)
    (first : ∀ item ∈ given, ∀ other ∈ merge.long, rank item ≤ rank other) :
    { merge with merged := given.reverse ++ merge.merged, short := rest }.Sound rank whole := by
  obtain ⟨inShort, inLong, behind, same⟩ := sound
  rw [← parts] at inShort behind same
  rw [← List.append_assoc] at inShort
  rw [List.append_assoc, ← List.append_assoc] at same
  obtain ⟨orderedGiven, -, -⟩ := Ordered.append_iff.mp inShort
  obtain ⟨-, orderedLong, across⟩ := Ordered.append_iff.mp inLong
  have moved : (given.reverse ++ merge.merged).reverse = merge.merged.reverse ++ given := by
    rw [List.reverse_append, List.reverse_reverse]
  refine ⟨?_, ?_, fun last isLast => behind last ?_, ?_⟩
  · rw [moved]
    exact inShort
  · rw [moved]
    refine Ordered.append_iff.mpr ⟨orderedGiven, orderedLong, fun item member other member' => ?_⟩
    rcases List.mem_append.mp member with old | new
    · exact across item old other member'
    · exact first item new other member'
  · rw [List.getLast?_append, Option.mem_def.mp isLast]
    rfl
  · rw [moved]
    exact same

/-- Items of the long run may move if they come before all that is left of the short run. -/
theorem Sound.give_long (sound : merge.Sound rank whole) (given rest : List α)
    (parts : given ++ rest = merge.long)
    (first : ∀ item ∈ given, ∀ other ∈ merge.short, rank item < rank other) :
    { merge with merged := given.reverse ++ merge.merged, long := rest }.Sound rank whole := by
  obtain ⟨inShort, inLong, behind, same⟩ := sound
  rw [← parts] at inLong behind same
  rw [← List.append_assoc] at inLong
  obtain ⟨orderedGiven, -, -⟩ := Ordered.append_iff.mp inLong
  obtain ⟨-, orderedShort, across⟩ := Ordered.append_iff.mp inShort
  have moved : (given.reverse ++ merge.merged).reverse = merge.merged.reverse ++ given := by
    rw [List.reverse_append, List.reverse_reverse]
  refine ⟨?_, ?_, fun last isLast item member =>
    behind last isLast item (List.mem_append_right _ member), ?_⟩
  · rw [moved]
    refine Ordered.append_iff.mpr ⟨orderedGiven, orderedShort, fun item member other member' => ?_⟩
    rcases List.mem_append.mp member with old | new
    · exact across item old other member'
    · exact (first item new other member').le
  · rw [moved]
    exact inLong
  · rw [moved, List.append_assoc]
    refine Rearranges.trans ((Rearranges.refl rank _).append ?_) same
    rw [← List.append_assoc, ← List.append_assoc]
    refine (rearranges_swap fun item member other member' => ?_).append (.refl rank rest)
    exact (first item member other member').ne

/-- A merge that is over has all items in order. -/
theorem Sound.items_of_isOver (sound : merge.Sound rank whole) (ended : merge.isOver = true) :
    Ordered rank merge.items ∧ Rearranges rank merge.items whole := by
  obtain ⟨inShort, inLong, behind, same⟩ := sound
  rcases merge with ⟨merged, short, long, pace, patience⟩
  unfold Merge.items
  dsimp only at *
  rcases long with - | ⟨next, long⟩
  · rw [List.append_nil] at same ⊢
    exact ⟨inShort, same⟩
  · rcases short with - | ⟨last, - | ⟨second, short⟩⟩
    · rw [List.append_nil]
      exact ⟨inLong, same⟩
    · -- One item is left of the short run, and it comes behind the long one.
      have high := behind last rfl
      obtain ⟨-, orderedLast, across⟩ := Ordered.append_iff.mp inShort
      refine ⟨Ordered.append_iff.mpr ⟨inLong, orderedLast, fun item member other member' => ?_⟩, ?_⟩
      · rcases List.mem_append.mp member with old | new
        · exact across item old other member'
        · rw [List.mem_singleton.mp member']
          exact (high item new).le
      · rw [List.append_assoc]
        refine Rearranges.trans ((Rearranges.refl rank _).append
          (rearranges_swap fun item member other member' => ?_)) same
        rw [List.mem_singleton.mp member']
        exact (high item member).ne
    · simp [isOver] at ended

/-! ### Steps -/

section Steps

variable {less : α → α → Except ε Bool} {side : End}
  (decides : ∀ short ∈ whole, ∀ long ∈ whole,
    longFirst less side short long = .ok (decide (rank long < rank short)))

/-- A merge that has come further than another one: it keeps the invariant, and an item has moved
unless it is over. -/
def Advances (rank : α → κ) (whole : List α) (merge next : Merge α) : Prop :=
  next.Sound rank whole ∧ (next.isOver = true ∨ next.left < merge.left)

theorem Sound.mem_of_short (sound : merge.Sound rank whole) {item : α}
    (member : item ∈ merge.short) : item ∈ whole :=
  sound.same.perm.subset (List.mem_append_right _ (List.mem_append_left _ member))

theorem Sound.mem_of_long (sound : merge.Sound rank whole) {item : α}
    (member : item ∈ merge.long) : item ∈ whole :=
  sound.same.perm.subset (List.mem_append_right _ (List.mem_append_right _ member))

include decides

/-- A turn moves an item, unless the merge is over. -/
theorem Sound.turn (sound : merge.Sound rank whole) (byLong : Bool) (streak : Nat) :
    ∃ next, merge.turn less side byLong streak = .ok next ∧
      merge.Advances rank whole next := by
  obtain ⟨merged, short, long, pace, patience⟩ := merge
  rcases short with - | ⟨first, short⟩
  · exact ⟨_, rfl, sound, .inl (by simp [isOver])⟩
  rcases long with - | ⟨next, long⟩
  · exact ⟨_, rfl, sound, .inl rfl⟩
  have answer := decides first (sound.mem_of_short List.mem_cons_self) next
    (sound.mem_of_long List.mem_cons_self)
  unfold Merge.turn
  simp only [answer, bind, Except.bind]
  by_cases early : rank next < rank first
  · rw [if_pos (decide_eq_true early)]
    have moved := sound.give_long [next] long rfl
      fun item member other member' => by
        rw [List.mem_singleton.mp member]
        exact early.trans_le (sound.ordered_short.head_le other member')
    exact ⟨_, rfl, moved.of_items rfl rfl rfl, .inr (by simp [Merge.left, afterTurn])⟩
  · rw [if_neg (by simpa using early)]
    have moved := sound.give_short [first] short rfl
      fun item member other member' => by
        rw [List.mem_singleton.mp member]
        exact (not_lt.mp early).trans (sound.ordered_long.head_le other member')
    exact ⟨_, rfl, moved.of_items rfl rfl rfl, .inr (by simp [Merge.left, afterTurn])⟩

/-- A stride of the short run moves an item at least, unless it ends the merge. -/
theorem Sound.strideShort (sound : merge.Sound rank whole) :
    ∃ count next, merge.strideShort less side = .ok (count, next) ∧
      merge.Advances rank whole next := by
  obtain ⟨merged, short, long, pace, patience⟩ := merge
  rcases long with - | ⟨next, long⟩
  · exact ⟨0, _, rfl, sound, .inl rfl⟩
  obtain ⟨given, rest, leaps, parts, low, high⟩ := leap_spec
    (fun item => rank item ≤ rank next) (fun item => (longFirst less side item next).map not) side
    (fun item member => by
      rw [decides item (sound.mem_of_short member) next (sound.mem_of_long List.mem_cons_self)]
      simp [Except.map, ← not_lt]) (sound.ordered_short.falling_le (rank next))
  have moved := sound.give_short given rest parts fun item member other member' =>
    (low item member).trans (sound.ordered_long.head_le other member')
  unfold Merge.strideShort
  simp only [leaps, bind, Except.bind]
  split
  · rename_i ended
    exact ⟨_, _, rfl, moved, .inl ended⟩
  · have moved' := moved.give_long [next] long rfl
      fun item member other member' => by
        rw [List.mem_singleton.mp member]
        exact not_le.mp (high other member')
    refine ⟨_, _, rfl, moved'.of_items rfl rfl rfl, .inr ?_⟩
    have counted := congrArg List.length parts
    simp only [List.length_append] at counted
    simp only [Merge.left, List.length_cons]
    omega

/-- A stride of the long run moves an item at least, unless it ends the merge. -/
theorem Sound.strideLong (sound : merge.Sound rank whole) :
    ∃ count next, merge.strideLong less side = .ok (count, next) ∧
      merge.Advances rank whole next := by
  obtain ⟨merged, short, long, pace, patience⟩ := merge
  rcases short with - | ⟨next, short⟩
  · exact ⟨0, _, rfl, sound, .inl (by simp [isOver])⟩
  obtain ⟨given, rest, leaps, parts, low, high⟩ := leap_spec
    (fun item => rank item < rank next) (fun item => longFirst less side next item) side
    (fun item member => decides next (sound.mem_of_short List.mem_cons_self) item
      (sound.mem_of_long member)) (sound.ordered_long.falling_lt (rank next))
  have moved := sound.give_long given rest parts fun item member other member' =>
    (low item member).trans_le (sound.ordered_short.head_le other member')
  unfold Merge.strideLong
  simp only [leaps, bind, Except.bind]
  split
  · rename_i ended
    exact ⟨_, _, rfl, moved, .inl ended⟩
  · have moved' := moved.give_short [next] short rfl
      fun item member other member' => by
        rw [List.mem_singleton.mp member]
        exact not_lt.mp (high other member')
    refine ⟨_, _, rfl, moved'.of_items rfl rfl rfl, .inr ?_⟩
    have counted := congrArg List.length parts
    simp only [List.length_append] at counted
    simp only [Merge.left, List.length_cons]
    omega

/-- A stride of each run, in whichever order, makes progress. -/
theorem Sound.strides (sound : merge.Sound rank whole) :
    ∃ next, merge.strides less side = .ok next ∧
      merge.Advances rank whole next := by
  have both (one other : Merge α → Except ε (Nat × Merge α))
      (oneSpec : ∀ merge : Merge α, merge.Sound rank whole → ∃ count next,
        one merge = .ok (count, next) ∧ merge.Advances rank whole next)
      (otherSpec : ∀ merge : Merge α, merge.Sound rank whole → ∃ count next,
        other merge = .ok (count, next) ∧ merge.Advances rank whole next) :
      ∃ next, (one merge >>= fun first =>
          if first.2.isOver then pure first.2
          else other first.2 >>= fun second =>
            if second.2.isOver then pure second.2
            else pure (second.2.afterStrides first.1 second.1)) = .ok next ∧
        merge.Advances rank whole next := by
    obtain ⟨first, middle, found, soundMiddle, progress⟩ := oneSpec merge sound
    obtain ⟨second, last, found', soundLast, progress'⟩ := otherSpec middle soundMiddle
    simp only [found, found', bind, Except.bind]
    by_cases ended : middle.isOver = true
    · rw [if_pos ended]
      exact ⟨middle, rfl, soundMiddle, .inl ended⟩
    · rw [if_neg ended]
      by_cases ended' : last.isOver = true
      · rw [if_pos ended']
        exact ⟨last, rfl, soundLast, .inl ended'⟩
      · rw [if_neg ended']
        have less := progress.resolve_left ended
        have less' := progress'.resolve_left ended'
        have kept : (last.afterStrides first second).Sound rank whole ∧
            (last.afterStrides first second).left = last.left := by
          unfold afterStrides
          split <;> exact ⟨soundLast.of_items rfl rfl rfl, rfl⟩
        exact ⟨_, rfl, kept.1, .inr (by omega)⟩
  unfold Merge.strides
  cases side with
  | front =>
    simp only [if_true]
    exact both _ _ (fun _ sound => sound.strideShort decides)
      fun _ sound => sound.strideLong decides
  | rear =>
    simp only [reduceCtorEq, if_false]
    exact both _ _ (fun _ sound => sound.strideLong decides)
      fun _ sound => sound.strideShort decides

theorem Sound.step (sound : merge.Sound rank whole) :
    ∃ next, merge.step less side = .ok next ∧
      merge.Advances rank whole next := by
  unfold Merge.step
  split
  · exact sound.turn decides _ _
  · exact sound.strides decides

/-- As many steps as there are items left end a merge. -/
theorem Sound.steps (sound : merge.Sound rank whole) (turns : Nat) (enough : merge.left ≤ turns) :
    ∃ last, merge.steps less side turns = .ok last ∧ last.Sound rank whole ∧
      last.isOver = true := by
  induction turns generalizing merge with
  | zero =>
    unfold Merge.left at enough
    have none : merge.long = [] := List.eq_nil_of_length_eq_zero (by omega)
    exact ⟨merge, rfl, sound, by simp [isOver, none]⟩
  | succ turns inductionHypothesis =>
    rw [Merge.steps]
    by_cases ended : merge.isOver = true
    · rw [if_pos ended]
      exact ⟨merge, rfl, sound, ended⟩
    · rw [if_neg ended]
      obtain ⟨next, found, soundNext, progress⟩ := sound.step decides
      simp only [found, bind, Except.bind]
      rcases progress with ended' | fewer
      · refine ⟨next, ?_, soundNext, ended'⟩
        cases turns with
        | zero => rfl
        | succ turns =>
          rw [Merge.steps, if_pos ended']
          rfl
      · exact inductionHypothesis soundNext (by omega)

variable (less side) in
theorem Sound.finish (sound : merge.Sound rank whole) :
    ∃ last, merge.finish less side = .ok last ∧ Ordered rank last.items ∧
      Rearranges rank last.items whole := by
  obtain ⟨last, found, soundLast, ended⟩ := sound.steps decides merge.left (Nat.le_refl _)
  exact ⟨last, found, soundLast.items_of_isOver ended⟩

end Steps

variable (rank) in
/-- The start of a merge of two runs, the first item of the long one of which comes before the
short run and the last item of the short one behind the long run. -/
theorem sound_start (patience : Nat) {short long : List α} (shortOrdered : Ordered rank short)
    (longOrdered : Ordered rank long)
    (first : ∀ item ∈ long.head?, ∀ other ∈ short, rank item < rank other)
    (behind : ∀ last ∈ short.getLast?, ∀ item ∈ long, rank item < rank last) :
    (start patience short long).Sound rank (short ++ long) := by
  have begin (patience : Nat) : Sound rank (short ++ long)
      { merged := [], short := short, long := long, pace := .start, patience := patience } :=
    ⟨shortOrdered, longOrdered, behind, .refl rank _⟩
  cases long with
  | nil => exact begin patience
  | cons item rest =>
    refine ((begin patience).give_long [item] rest rfl
      fun given member other member' => ?_).of_items rfl rfl rfl
    rw [List.mem_singleton.mp member]
    exact first item rfl other member'

end Merge

/-! ### Two runs -/

variable {rank : α → κ} {less : α → α → Except ε Bool} {left right : List α}

/-- Two runs are merged, from whichever side, if the first item of the right run comes before the
left run and the last item of the left one behind the right run. -/
theorem mergeWhole_spec (patience : Nat) (decides : Decides rank less (left ++ right))
    (leftOrdered : Ordered rank left) (rightOrdered : Ordered rank right)
    (first : ∀ item ∈ right.head?, ∀ other ∈ left, rank item < rank other)
    (last : ∀ item ∈ left.getLast?, ∀ other ∈ right, rank other < rank item) :
    ∃ patience' items, mergeWhole less patience left right = .ok (patience', items) ∧
      Ordered rank items ∧ Rearranges rank items (left ++ right) := by
  unfold mergeWhole
  by_cases shorter : left.length ≤ right.length
  · obtain ⟨ended, found, ordered, same⟩ :=
      (Merge.sound_start rank patience leftOrdered rightOrdered first last).finish
        less .front fun short member long member' =>
          decides long member' short member
    rw [if_pos shorter, found]
    exact ⟨_, _, rfl, ordered, same⟩
  · -- From the rear the right run is the short one, and the ranks are in the opposite order.
    have dual (items : List α) (ordered : Ordered rank items) :
        Ordered (OrderDual.toDual ∘ rank) items.reverse :=
      ordered_dual_iff.mpr (by rwa [List.reverse_reverse])
    have reversed : right.reverse ++ left.reverse = (left ++ right).reverse :=
      List.reverse_append.symm
    obtain ⟨ended, found, ordered, same⟩ :=
      (Merge.sound_start (OrderDual.toDual ∘ rank) patience (dual right rightOrdered)
        (dual left leftOrdered)
        (fun item isFirst other member => last item (by simpa using isFirst) other
          (List.mem_reverse.mp member))
        (fun item isLast other member => first item (by simpa using isLast) other
          (List.mem_reverse.mp member))).finish
        less .rear fun short member long member' => by
          rw [reversed, List.mem_reverse] at member member'
          exact decides short member long member'
    rw [if_neg shorter, found]
    refine ⟨_, _, rfl, ordered_dual_iff.mp ordered, ?_⟩
    have forward := (rearranges_dual_iff.mp same).reverse
    rwa [reversed, List.reverse_reverse] at forward

/-- Where the first item of the right run comes before the whole left one, the items of the right
run that come behind the left one stay in their places, and the others are merged with it. -/
theorem mergeWhole_trimmed (patience : Nat) {first last : α}
    (decides : Decides rank less (left ++ first :: right)) (leftOrdered : Ordered rank left)
    (rightOrdered : Ordered rank (first :: right))
    (afterFirst : ∀ item ∈ left, rank first < rank item) (isLast : left.getLast? = some last) :
    ∃ behind rest patience' items,
      leap .rear (fun item => mayPrecede less last item) (first :: right).reverse =
        .ok (behind, rest) ∧ rest ≠ [] ∧
      mergeWhole less patience left rest.reverse = .ok (patience', items) ∧
      Ordered rank (items ++ behind.reverse) ∧
      Rearranges rank (items ++ behind.reverse) (left ++ first :: right) := by
  have lastIn : last ∈ left := List.mem_of_getLast? isLast
  have lastHigh : ∀ item ∈ left, rank item ≤ rank last := by
    obtain ⟨others, rfl⟩ := List.getLast?_eq_some_iff.mp isLast
    intro item member
    rcases List.mem_append.mp member with inOthers | same
    · exact (Ordered.append_iff.mp leftOrdered).2.2 item inOthers last (by simp)
    · rw [List.mem_singleton.mp same]
  have falling : Falling (fun item => rank last ≤ rank item) (first :: right).reverse :=
    List.pairwise_reverse.mpr (rightOrdered.imp fun upward far => far.trans upward)
  obtain ⟨behind, rest, leaps, parts, far, near⟩ := leap_spec
    (fun item => rank last ≤ rank item) (fun item => mayPrecede less last item) .rear
    (fun item member => decides.mayPrecede (List.mem_append_left _ lastIn)
      (List.mem_append_right _ (List.mem_reverse.mp member))) falling
  have whole : rest.reverse ++ behind.reverse = first :: right := by
    rw [← List.reverse_append, parts, List.reverse_reverse]
  -- The first item comes before the last of the left run, so that it is not behind it.
  obtain ⟨others, rest_eq⟩ : ∃ others, rest.reverse = first :: others := by
    rcases remaining : rest.reverse with - | ⟨other, others⟩
    · rw [remaining, List.nil_append] at whole
      have inBehind : first ∈ behind := List.mem_reverse.mp (by rw [whole]; simp)
      exact absurd (far first inBehind) (not_le.mpr (afterFirst last lastIn))
    · rw [remaining] at whole
      exact ⟨others, by rw [(List.cons.inj whole).1]⟩
  rw [← whole] at rightOrdered
  rw [← whole, ← List.append_assoc] at decides
  obtain ⟨restOrdered, behindOrdered, across⟩ := Ordered.append_iff.mp rightOrdered
  obtain ⟨patience', items, merged, ordered, same⟩ := mergeWhole_spec patience
    (decides.subset (List.subset_append_left _ _)) leftOrdered restOrdered
    (fun item isFirst other member => by
      rw [rest_eq] at isFirst
      obtain rfl := Option.some.inj isFirst
      exact afterFirst other member)
    (fun item isLast' other member => by
      obtain rfl := Option.some.inj (isLast.symm.trans isLast')
      exact not_le.mp (near other (List.mem_reverse.mp member)))
  refine ⟨behind, rest, patience', items, leaps, fun none => ?_, merged, ?_, ?_⟩
  · rw [none] at rest_eq
    cases rest_eq
  · refine Ordered.append_iff.mpr ⟨ordered, behindOrdered, fun item member other member' => ?_⟩
    rcases List.mem_append.mp (same.perm.subset member) with inLeft | inRest
    · exact (lastHigh item inLeft).trans (far other (List.mem_reverse.mp member'))
    · exact across item inRest other member'
  · rw [← whole, ← List.append_assoc]
    exact same.append (.refl rank _)

/-- Two adjacent runs in order become one. -/
theorem mergeRuns_spec (patience : Nat) (decides : Decides rank less (left ++ right))
    (leftOrdered : Ordered rank left) (rightOrdered : Ordered rank right) :
    ∃ patience' items, mergeRuns less patience left right = .ok (patience', items) ∧
      Ordered rank items ∧ Rearranges rank items (left ++ right) := by
  rcases right with - | ⟨first, right⟩
  · exact ⟨patience, left, rfl, leftOrdered, by rw [List.append_nil]; exact .refl rank left⟩
  obtain ⟨before, rest, leaps, parts, low, high⟩ := leap_spec
    (fun item => rank item ≤ rank first) (fun item => mayPrecede less item first) .front
    (fun item member => decides.mayPrecede (List.mem_append_left _ member)
      (List.mem_append_right _ List.mem_cons_self)) (leftOrdered.falling_le (rank first))
  subst parts
  obtain ⟨beforeOrdered, restOrdered, across⟩ := Ordered.append_iff.mp leftOrdered
  have lowest : ∀ item ∈ before, ∀ other ∈ first :: right, rank item ≤ rank other :=
    fun item member other member' => (low item member).trans (rightOrdered.head_le other member')
  simp only [mergeRuns, leaps, bind, Except.bind]
  cases isLast : rest.getLast? with
  | none =>
    obtain rfl := List.getLast?_eq_none_iff.mp isLast
    refine ⟨_, _, rfl, Ordered.append_iff.mpr ⟨beforeOrdered, rightOrdered, lowest⟩, ?_⟩
    rw [List.append_nil]
    exact .refl rank _
  | some last =>
    rw [List.append_assoc] at decides ⊢
    obtain ⟨behind, others, patience', items, leaps', nonempty, merged, ordered, same⟩ :=
      mergeWhole_trimmed patience (decides.subset (List.subset_append_right _ _)) restOrdered
        rightOrdered (fun item member => not_le.mp (high item member)) isLast
    simp only [leaps', merged]
    rw [if_neg (by simpa using nonempty)]
    refine ⟨patience', before ++ items ++ behind.reverse, rfl, ?_, ?_⟩
    · rw [List.append_assoc]
      refine Ordered.append_iff.mpr ⟨beforeOrdered, ordered, fun item member other member' => ?_⟩
      rcases List.mem_append.mp (same.perm.subset member') with inRest | inRight
      · exact across item member other inRest
      · exact lowest item member other inRight
    · rw [List.append_assoc]
      exact (Rearranges.refl rank before).append same

end RedirectMonitor.Sorting
