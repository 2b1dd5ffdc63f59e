/-
This file says what it means that a list is in order by ranks and that it rearranges another
one stably, and what the pieces of the sort do in these terms: looking ahead by leaps and by
halving, the runs at the front, and the binary insertion.

The content is that looking ahead takes just the items that lead, however it jumps, as long as
no item that leads stands behind one that does not. A run comes out in order, and nothing else
happens to the items than that some of them change places with others of another rank.
-/

import Mathlib
import RedirectMonitor.Sorting

namespace RedirectMonitor.Sorting

variable {α ε κ : Type} [LinearOrder κ]

/-! ### Order and stable rearrangement -/

/-- The items are in the order of their ranks. -/
def Ordered (rank : α → κ) (items : List α) : Prop :=
  items.Pairwise fun earlier later => rank earlier ≤ rank later

/-- Two lists have the same items, and those of one rank in the same order. -/
def Rearranges (rank : α → κ) (items others : List α) : Prop :=
  ∀ value, items.filter (fun item => rank item = value) =
    others.filter fun item => rank item = value

/-- A comparison decides the order of the ranks of some items. -/
def Decides (rank : α → κ) (less : α → α → Except ε Bool) (items : List α) : Prop :=
  ∀ first ∈ items, ∀ second ∈ items,
    less first second = .ok (decide (rank first < rank second))

section Rearranging

variable {rank : α → κ} {items others more rest : List α}

theorem Ordered.append_iff :
    Ordered rank (items ++ others) ↔ Ordered rank items ∧ Ordered rank others ∧
      ∀ first ∈ items, ∀ second ∈ others, rank first ≤ rank second :=
  List.pairwise_append

/-- The first of items in order has the least rank. -/
theorem Ordered.head_le {first : α} (ordered : Ordered rank (first :: rest)) :
    ∀ item ∈ first :: rest, rank first ≤ rank item := by
  intro item member
  rcases List.mem_cons.mp member with rfl | inRest
  · exact le_rfl
  · exact (List.pairwise_cons.mp ordered).1 item inRest

theorem Rearranges.refl (rank : α → κ) (items : List α) : Rearranges rank items items :=
  fun _ => rfl

theorem Rearranges.trans (same : Rearranges rank items others)
    (same' : Rearranges rank others more) : Rearranges rank items more :=
  fun value => (same value).trans (same' value)

theorem Rearranges.append (same : Rearranges rank items others)
    (same' : Rearranges rank more rest) : Rearranges rank (items ++ more) (others ++ rest) := by
  intro value
  rw [List.filter_append, List.filter_append, same value, same' value]

/-- Two stretches of items that share no rank may change places. -/
theorem rearranges_swap (apart : ∀ first ∈ items, ∀ second ∈ others, rank first ≠ rank second) :
    Rearranges rank (items ++ others) (others ++ items) := by
  intro value
  rw [List.filter_append, List.filter_append]
  by_cases present : ∃ first ∈ items, rank first = value
  · obtain ⟨first, member, rfl⟩ := present
    have none : others.filter (fun item => rank item = rank first) = [] :=
      List.filter_eq_nil_iff.mpr fun second member' same =>
        apart first member second member' (of_decide_eq_true same).symm
    rw [none, List.append_nil, List.nil_append]
  · have none : items.filter (fun item => rank item = value) = [] :=
      List.filter_eq_nil_iff.mpr fun first member same =>
        present ⟨first, member, of_decide_eq_true same⟩
    rw [none, List.append_nil, List.nil_append]

theorem Rearranges.perm (same : Rearranges rank items others) : items.Perm others := by
  classical
  refine List.perm_iff_count.mpr fun item => ?_
  have own : decide (rank item = rank item) = true := decide_eq_true rfl
  rw [← List.count_filter (p := fun other => rank other = rank item) own, same,
    List.count_filter (p := fun other => rank other = rank item) own]

theorem Rearranges.reverse (same : Rearranges rank items others) :
    Rearranges rank items.reverse others.reverse := by
  intro value
  rw [List.filter_reverse, List.filter_reverse, same value]

/-- Ranks in the opposite order have the same stable rearrangements. -/
theorem rearranges_dual_iff :
    Rearranges (OrderDual.toDual ∘ rank) items others ↔ Rearranges rank items others := by
  have same (value : κ) (items : List α) :
      items.filter (fun item => (OrderDual.toDual ∘ rank) item = OrderDual.toDual value) =
        items.filter fun item => rank item = value :=
    List.filter_congr fun item _ => by simp
  constructor
  · intro rearranges value
    rw [← same, ← same]
    exact rearranges (OrderDual.toDual value)
  · intro rearranges value
    show items.filter (fun item => (OrderDual.toDual ∘ rank) item =
      OrderDual.toDual (OrderDual.ofDual value)) = _
    rw [same, rearranges, ← same]
    rfl

/-- A list is in the opposite order just where its reverse is in order. -/
theorem ordered_dual_iff :
    Ordered (OrderDual.toDual ∘ rank) items ↔ Ordered rank items.reverse := by
  unfold Ordered
  rw [List.pairwise_reverse]
  rfl

theorem Decides.subset {less : α → α → Except ε Bool} (decides : Decides rank less items)
    (within : others ⊆ items) : Decides rank less others :=
  fun first member second member' => decides first (within member) second (within member')

theorem Decides.mayPrecede {less : α → α → Except ε Bool} (decides : Decides rank less items)
    {item other : α} (member : item ∈ items) (member' : other ∈ items) :
    mayPrecede less item other = .ok (decide (rank item ≤ rank other)) := by
  rw [Sorting.mayPrecede, decides other member' item member]
  simp [Except.map, ← not_lt]

end Rearranging

/-! ### Looking ahead -/

/-- No item that leads is behind one that does not. -/
def Falling (leading : α → Prop) (items : List α) : Prop :=
  items.Pairwise fun earlier later => leading later → leading earlier

/-- In items in order, none up to a rank is behind one beyond it. -/
theorem Ordered.falling_le {rank : α → κ} {items : List α} (ordered : Ordered rank items)
    (bound : κ) :
    Falling (fun item => rank item ≤ bound) items :=
  ordered.imp fun upward low => upward.trans low

/-- In items in order, none below a rank is behind one that is not. -/
theorem Ordered.falling_lt {rank : α → κ} {items : List α} (ordered : Ordered rank items)
    (bound : κ) :
    Falling (fun item => rank item < bound) items :=
  ordered.imp fun upward low => upward.trans_lt low

/-- A list is cut into items that lead and items that do not. -/
structure Cut (leading : α → Prop) (items given rest : List α) : Prop where
  whole : given ++ rest = items
  leads : ∀ item ∈ given, leading item
  stops : ∀ item ∈ rest, ¬ leading item

section Leading

variable {leading : α → Prop} {below above given rest : List α} {middle : α}

variable (below) in
/-- Where an item in the middle leads, so do all before it, and the cut is behind it. -/
theorem Cut.behind (cut : Cut leading above given rest)
    (falling : Falling leading (below ++ middle :: above)) (leads : leading middle) :
    Cut leading (below ++ middle :: above) (below ++ middle :: given) rest := by
  obtain ⟨-, -, across⟩ := List.pairwise_append.mp falling
  refine ⟨by rw [List.append_assoc, List.cons_append, cut.whole], fun item member => ?_, cut.stops⟩
  rcases List.mem_append.mp member with inBelow | later
  · exact across item inBelow middle List.mem_cons_self leads
  · rcases List.mem_cons.mp later with rfl | inGiven
    · exact leads
    · exact cut.leads item inGiven

variable (below) in
/-- Where an item in the middle does not lead, none behind it does, and the cut is before it. -/
theorem Cut.before (cut : Cut leading below given rest)
    (falling : Falling leading (below ++ middle :: above)) (stops : ¬ leading middle) :
    Cut leading (below ++ middle :: above) given (rest ++ middle :: above) := by
  obtain ⟨-, falling, -⟩ := List.pairwise_append.mp falling
  refine ⟨by rw [← List.append_assoc, cut.whole], cut.leads, fun item member => ?_⟩
  rcases List.mem_append.mp member with inRest | later
  · exact cut.stops item inRest
  · rcases List.mem_cons.mp later with rfl | inAbove
    · exact stops
    · exact fun leads => stops ((List.pairwise_cons.mp falling).1 item inAbove leads)

variable [DecidablePred leading] {leads : α → Except ε Bool} {items : List α}

/-- Halving cuts a list, if no item that leads is behind one that does not. -/
theorem splitWithin_spec (side : End)
    (answers : ∀ item ∈ items, leads item = .ok (decide (leading item)))
    (falling : Falling leading items) (turns : Nat)
    (enough : items.length ≤ turns) :
    ∃ given rest, splitWithin side leads turns items = .ok (given, rest) ∧
      Cut leading items given rest := by
  have empty : Cut leading [] [] [] :=
    ⟨rfl, fun _ member => absurd member List.not_mem_nil,
      fun _ member => absurd member List.not_mem_nil⟩
  induction turns generalizing items with
  | zero =>
    obtain rfl := List.eq_nil_of_length_eq_zero (Nat.le_zero.mp enough)
    exact ⟨[], [], rfl, empty⟩
  | succ turns inductionHypothesis =>
    have inHalf : items ≠ [] → side.middle items.length < items.length := by
      intro nonempty
      have positive := List.length_pos_iff.mpr nonempty
      cases side <;> simp only [End.middle] <;> omega
    have halves := List.take_append_drop (side.middle items.length) items
    rw [splitWithin]
    cases upper : items.drop (side.middle items.length) with
    | nil =>
      have short := List.drop_eq_nil_iff.mp upper
      obtain rfl : items = [] := by
        by_contra nonempty
        have := inHalf nonempty
        omega
      exact ⟨[], [], rfl, empty⟩
    | cons middle above =>
      rw [upper] at halves
      generalize items.take (side.middle items.length) = below at halves
      subst halves
      rw [List.length_append, List.length_cons] at enough
      obtain ⟨fallingBelow, fallingAbove, -⟩ := List.pairwise_append.mp falling
      simp only [answers middle (by simp), bind, Except.bind]
      by_cases middleLeads : leading middle
      · obtain ⟨given, rest, found, cut⟩ := inductionHypothesis
          (fun item member => answers item (by simp [member]))
          (List.pairwise_cons.mp fallingAbove).2 (by omega)
        rw [if_pos (decide_eq_true middleLeads), found]
        exact ⟨_, _, rfl, cut.behind _ falling middleLeads⟩
      · obtain ⟨given, rest, found, cut⟩ := inductionHypothesis
          (fun item member => answers item (by simp [member])) fallingBelow (by omega)
        rw [if_neg (by simpa using middleLeads), found]
        exact ⟨_, _, rfl, cut.before _ falling middleLeads⟩

theorem split_spec (side : End)
    (answers : ∀ item ∈ items, leads item = .ok (decide (leading item)))
    (falling : Falling leading items) :
    ∃ given rest, split side leads items = .ok (given, rest) ∧ Cut leading items given rest :=
  splitWithin_spec side answers falling items.length (Nat.le_refl _)

theorem leapWithin_spec (side : End)
    (answers : ∀ item ∈ items, leads item = .ok (decide (leading item)))
    (falling : Falling leading items)
    (turns width : Nat) (enough : items.length ≤ turns) :
    ∃ given rest, leapWithin side leads turns width items = .ok (given, rest) ∧
      Cut leading items given rest := by
  induction turns generalizing width items with
  | zero =>
    obtain rfl := List.eq_nil_of_length_eq_zero (Nat.le_zero.mp enough)
    exact split_spec side answers falling
  | succ turns inductionHypothesis =>
    have parts := List.take_append_drop width items
    rw [leapWithin]
    cases beyond : items.drop width with
    | nil => exact split_spec side answers falling
    | cons landing above =>
      rw [beyond] at parts
      generalize items.take width = below at parts
      subst parts
      rw [List.length_append, List.length_cons] at enough
      obtain ⟨fallingBelow, fallingAbove, -⟩ := List.pairwise_append.mp falling
      simp only [answers landing (by simp), bind, Except.bind]
      by_cases landingLeads : leading landing
      · obtain ⟨given, rest, found, cut⟩ := inductionHypothesis
          (fun item member => answers item (by simp [member]))
          (List.pairwise_cons.mp fallingAbove).2 (2 * width + 1) (by omega)
        rw [if_pos (decide_eq_true landingLeads), found]
        exact ⟨_, _, rfl, cut.behind _ falling landingLeads⟩
      · obtain ⟨given, rest, found, cut⟩ := split_spec side
          (fun item member => answers item (by simp [member])) fallingBelow
        rw [if_neg (by simpa using landingLeads), found]
        exact ⟨_, _, rfl, cut.before _ falling landingLeads⟩

variable (leads leading) in
/-- Leaps cut a list as halving does, however far they go. -/
theorem leap_spec (side : End)
    (answers : ∀ item ∈ items, leads item = .ok (decide (leading item)))
    (falling : Falling leading items) :
    ∃ given rest, leap side leads items = .ok (given, rest) ∧ Cut leading items given rest := by
  cases items with
  | nil => exact split_spec side answers falling
  | cons first others =>
    rw [leap]
    simp only [answers first List.mem_cons_self, bind, Except.bind]
    by_cases firstLeads : leading first
    · obtain ⟨given, rest, found, cut⟩ := leapWithin_spec side
        (fun item member => answers item (List.mem_cons_of_mem _ member))
        (List.pairwise_cons.mp falling).2 others.length 0 (Nat.le_refl _)
      rw [if_pos (decide_eq_true firstLeads), found]
      exact ⟨_, _, rfl, cut.behind [] falling firstLeads⟩
    · rw [if_neg (by simpa using firstLeads)]
      have empty : Cut leading [] [] [] :=
        ⟨rfl, fun _ member => absurd member List.not_mem_nil,
          fun _ member => absurd member List.not_mem_nil⟩
      exact ⟨_, _, rfl, empty.before [] falling firstLeads⟩

end Leading

/-! ### Runs and insertion -/

section Running

variable {rank : α → κ} {less : α → α → Except ε Bool}

/-- An item is put behind all that it is not less than. -/
theorem insert_spec {sorted : List α} {item : α} (decides : Decides rank less (sorted ++ [item]))
    (ordered : Ordered rank sorted) :
    ∃ longer, insert less sorted item = .ok longer ∧ Ordered rank longer ∧
      Rearranges rank longer (sorted ++ [item]) := by
  obtain ⟨before, behind, halves, cut⟩ := split_spec .front
    (fun other member => decides.mayPrecede (List.mem_append_left _ member)
      (List.mem_append_right _ (List.mem_singleton_self item))) (ordered.falling_le (rank item))
  obtain ⟨parts, low, high⟩ := cut
  subst parts
  obtain ⟨orderedBefore, orderedBehind, across⟩ := Ordered.append_iff.mp ordered
  refine ⟨before ++ item :: behind, ?_, ?_, ?_⟩
  · rw [insert, halves]
    rfl
  · refine Ordered.append_iff.mpr ⟨orderedBefore, ?_, fun other member later member' => ?_⟩
    · exact List.pairwise_cons.mpr
        ⟨fun other member => (not_le.mp (high other member)).le, orderedBehind⟩
    · rcases List.mem_cons.mp member' with rfl | inBehind
      · exact low other member
      · exact across other member later inBehind
  · rw [List.append_assoc]
    refine (Rearranges.refl rank before).append ?_
    show Rearranges rank ([item] ++ behind) (behind ++ [item])
    refine rearranges_swap fun other member later member' => ?_
    rw [List.mem_singleton.mp member]
    exact (not_le.mp (high later member')).ne

/-- Items that are put in place one after the other. -/
theorem foldlM_insert_spec (items : List α) {sorted : List α}
    (decides : Decides rank less (sorted ++ items)) (ordered : Ordered rank sorted) :
    ∃ longer, items.foldlM (insert less) sorted = .ok longer ∧ Ordered rank longer ∧
      Rearranges rank longer (sorted ++ items) := by
  induction items generalizing sorted with
  | nil => exact ⟨sorted, rfl, ordered, by rw [List.append_nil]; exact .refl rank sorted⟩
  | cons item rest inductionHypothesis =>
    rw [← List.singleton_append, ← List.append_assoc] at decides
    obtain ⟨longer, inserted, ordered', same⟩ := insert_spec
      (decides.subset (List.subset_append_left _ rest)) ordered
    have decides' : Decides rank less (longer ++ rest) :=
      decides.subset (List.append_subset.mpr
        ⟨fun other member => List.mem_append_left _ (same.perm.subset member),
          List.subset_append_right _ _⟩)
    obtain ⟨longest, folded, ordered'', same'⟩ := inductionHypothesis decides' ordered'
    refine ⟨longest, ?_, ordered'', ?_⟩
    · rw [List.foldlM_cons, inserted]
      exact folded
    · have together := same'.trans (same.append (.refl rank rest))
      rwa [List.append_assoc, List.singleton_append] at together

/-- A run is the longest part at the front each item of which follows the one before it. -/
theorem run_spec (follows : α → α → Except ε Bool) (follow : α → α → Prop) [DecidableRel follow]
    (previous : α) (items : List α)
    (answers : ∀ earlier ∈ previous :: items, ∀ later ∈ items,
      follows later earlier = .ok (decide (follow earlier later))) :
    ∃ taken rest, run follows previous items = .ok (taken, rest) ∧ taken ++ rest = items ∧
      (previous :: taken).IsChain follow := by
  induction items generalizing previous with
  | nil => exact ⟨[], [], rfl, rfl, List.isChain_singleton _⟩
  | cons item rest inductionHypothesis =>
    rw [run, answers previous List.mem_cons_self item List.mem_cons_self]
    simp only [bind, Except.bind]
    by_cases on : follow previous item
    · obtain ⟨taken, left, found, parts, chain⟩ := inductionHypothesis item
        fun earlier member later member' =>
          answers earlier (List.mem_cons_of_mem _ member) later (List.mem_cons_of_mem _ member')
      refine ⟨item :: taken, left, ?_, by rw [List.cons_append, parts], ?_⟩
      · rw [if_pos (decide_eq_true on), found]
        rfl
      · exact List.isChain_cons_cons.mpr ⟨on, chain⟩
    · exact ⟨[], item :: rest, by rw [if_neg (by simpa using on)]; rfl, rfl,
        List.isChain_singleton _⟩

/-- Items in strictly falling order may be reversed. -/
theorem rearranges_reverse_of_falling {items : List α}
    (falling : items.Pairwise fun earlier later => rank later < rank earlier) :
    Rearranges rank items.reverse items := by
  induction items with
  | nil => exact .refl rank []
  | cons item rest inductionHypothesis =>
    obtain ⟨high, falling⟩ := List.pairwise_cons.mp falling
    rw [List.reverse_cons]
    refine (rearranges_swap fun other member later member' => ?_).trans
      ((Rearranges.refl rank [item]).append (inductionHypothesis falling))
    rw [List.mem_singleton.mp member']
    exact (high other (List.mem_reverse.mp member)).ne

/-- The run at the front comes out in order, and there is one unless there are no items. -/
theorem frontRun_spec (items : List α) (decides : Decides rank less items) :
    ∃ sorted rest, frontRun less items = .ok (sorted, rest) ∧ Ordered rank sorted ∧
      Rearranges rank (sorted ++ rest) items ∧ (items ≠ [] → rest.length < items.length) := by
  match items with
  | [] => exact ⟨[], [], rfl, List.Pairwise.nil, .refl rank [], fun some => absurd rfl some⟩
  | [item] =>
    exact ⟨[item], [], rfl, List.pairwise_singleton _ _, .refl rank [item],
      fun _ => Nat.one_pos⟩
  | first :: second :: items =>
    rw [frontRun, decides second (by simp) first (by simp)]
    simp only [bind, Except.bind]
    by_cases falls : rank second < rank first
    · obtain ⟨taken, rest, found, parts, chain⟩ := run_spec less
        (fun earlier later => rank later < rank earlier) second items
        fun earlier member later member' =>
          decides later (by simp [member']) earlier (List.mem_cons_of_mem _ member)
      have falling : (first :: second :: taken).Pairwise fun earlier later =>
          rank later < rank earlier := by
        have transitive : Trans (fun earlier later : α => rank later < rank earlier)
            (fun earlier later => rank later < rank earlier)
            (fun earlier later => rank later < rank earlier) :=
          ⟨fun high low => low.trans high⟩
        exact List.isChain_iff_pairwise.mp (List.isChain_cons_cons.mpr ⟨falls, chain⟩)
      refine ⟨(first :: second :: taken).reverse, rest, ?_, ?_, ?_, fun _ => ?_⟩
      · rw [if_pos (decide_eq_true falls), found]
        rfl
      · exact List.pairwise_reverse.mpr (falling.imp fun low => low.le)
      · have same := (rearranges_reverse_of_falling falling).append (.refl rank rest)
        rwa [List.cons_append, List.cons_append, parts] at same
      · rw [← parts]
        simp only [List.length_cons, List.length_append]
        omega
    · obtain ⟨taken, rest, found, parts, chain⟩ := run_spec
        (fun item previous => mayPrecede less previous item)
        (fun earlier later => rank earlier ≤ rank later) second items
        fun earlier member later member' =>
          decides.mayPrecede (List.mem_cons_of_mem _ member) (by simp [member'])
      refine ⟨first :: second :: taken, rest, ?_, ?_, ?_, fun _ => ?_⟩
      · rw [if_neg (by simpa using falls), found]
        rfl
      · have transitive : Trans (fun earlier later : α => rank earlier ≤ rank later)
            (fun earlier later => rank earlier ≤ rank later)
            (fun earlier later => rank earlier ≤ rank later) := ⟨fun low high => low.trans high⟩
        exact List.isChain_iff_pairwise.mp
          (List.isChain_cons_cons.mpr ⟨not_lt.mp falls, chain⟩)
      · rw [List.cons_append, List.cons_append, parts]
        exact .refl rank _
      · rw [← parts]
        simp only [List.length_cons, List.length_append]
        omega

/-- A long run comes out in order as well, and leaves no more than the run at the front. -/
theorem longRun_spec (least : Nat) (items : List α) (decides : Decides rank less items) :
    ∃ sorted rest, longRun less least items = .ok (sorted, rest) ∧ Ordered rank sorted ∧
      Rearranges rank (sorted ++ rest) items ∧ (items ≠ [] → rest.length < items.length) := by
  obtain ⟨sorted, rest, found, ordered, same, shorter⟩ := frontRun_spec items decides
  have parts := List.take_append_drop (least - sorted.length) rest
  have within : sorted ++ rest.take (least - sorted.length) ⊆ items := fun item member => by
    refine same.perm.subset ?_
    rw [← parts, ← List.append_assoc]
    exact List.mem_append_left _ member
  obtain ⟨longer, folded, ordered', same'⟩ :=
    foldlM_insert_spec (rest.take (least - sorted.length)) (decides.subset within) ordered
  refine ⟨longer, rest.drop (least - sorted.length), ?_, ordered', ?_, fun some => ?_⟩
  · rw [longRun, found]
    simp only [bind, Except.bind, folded]
    rfl
  · have together := same'.append (.refl rank (rest.drop (least - sorted.length)))
    rw [List.append_assoc, parts] at together
    exact together.trans same
  · have := shorter some
    rw [List.length_drop]
    omega

end Running

end RedirectMonitor.Sorting
