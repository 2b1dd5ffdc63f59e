/-
This file compares two runs that differ in one group only. The readings of all other groups come to
the same in both, reading by reading; those of the one group may come to anything that does not end
a run.

The content is that both runs have the same outline, which tells where a run stands and where its
deliveries went, but not what they brought. Each step of an unbroken run leads from one outline to
the next, and no reading has a say in it. So the reports of both runs come at the same points, their
records of every other group are the same, and so are the rows of these groups, in the same order.
-/

import RedirectMonitor.Proofs.Cancellation
import RedirectMonitor.Proofs.Chaining

namespace RedirectMonitor

namespace Delivery

/-! ### What readings came to -/

/-- Where a delivery goes. -/
def slot (delivery : Delivery) : Side × Group := (delivery.side, delivery.group)

/-- What the readings of a group came to, in their order: a sample or none. -/
def outcomes (group : Group) (deliveries : List Delivery) : List (Option Sample) :=
  (ownOf group deliveries).map fun delivery => delivery.reading.sample?

theorem outcomes_prefix (group : Group) {first whole : List Delivery} (before : first <+: whole) :
    outcomes group first <+: outcomes group whole :=
  (before.filter _).map _

theorem length_outcomes (group : Group) (deliveries : List Delivery) :
    (outcomes group deliveries).length =
      (deliveries.map slot).countP fun slot => slot.2 = group := by
  rw [outcomes, List.length_map, ownOf, ← List.countP_eq_length_filter, List.countP_map]
  rfl

/-- Of readings that came to the same as far as they all go, as many came to the same. -/
theorem outcomes_eq_of_prefix {group : Group} {first second whole whole' : List Delivery}
    (before : first <+: whole) (before' : second <+: whole')
    (same : outcomes group whole = outcomes group whole')
    (slots : first.map slot = second.map slot) : outcomes group first = outcomes group second := by
  have known := outcomes_prefix group before
  have known' := outcomes_prefix group before'
  rw [← same] at known'
  refine (List.prefix_of_prefix_length_le known known' ?_).eq_of_length ?_
  all_goals rw [length_outcomes, length_outcomes, slots]

/-- The samples of a group on a side follow from where the deliveries went and what the readings of
the group came to. -/
theorem samples_eq_outcomes (side : Side) (group : Group) (deliveries : List Delivery) :
    samples side group deliveries =
      (((deliveries.map slot).filter fun slot => slot.2 = group).zip
        (outcomes group deliveries)).filterMap fun (slot, outcome) =>
          if slot.1 = side then outcome else none := by
  have own : (deliveries.map slot).filter (fun slot => slot.2 = group) =
      (ownOf group deliveries).map slot := by
    rw [List.filter_map]
    rfl
  rw [own, outcomes, List.zip_map', List.filterMap_map, ownOf, List.filterMap_filter, samples]
  refine List.filterMap_congr fun delivery _ => ?_
  by_cases same : delivery.group = group <;> simp [sampleFor?, slot, same]

end Delivery

namespace Report

/-! ### Rows beside a group -/

/-- A group's rows follow from its two samples. -/
theorem ownRows_congr {group : Group} {current previous current' previous' : Snapshot}
    (newer : current.sample group = current'.sample group)
    (older : previous.sample group = previous'.sample group) :
    ownRows group current previous = ownRows group current' previous' := by
  cases group <;> simp only [ownRows, newer, older]

section Beside

variable {current previous current' previous' : Snapshot} {groups : List Group} {group : Group}
  (same : ∀ other ∈ groups, other ≠ group →
    current.sample other = current'.sample other ∧ previous.sample other = previous'.sample other)

include same

/-- Parts that groups give are the same beside a group if the samples of all others are. -/
theorem filter_flatten_congr {parts parts' : List (List Row)}
    (given : List.Forall₂ (Gives current previous) groups parts)
    (given' : List.Forall₂ (Gives current' previous') groups parts') :
    parts.flatten.filter (fun row => !row.isOf group) =
      parts'.flatten.filter fun row => !row.isOf group := by
  induction given generalizing parts' with
  | nil =>
    obtain rfl := List.forall₂_nil_left_iff.mp given'
    rfl
  | @cons other part groups parts first rest inductionHypothesis =>
    obtain ⟨part', parts', first', rest', rfl⟩ := List.forall₂_cons_left_iff.mp given'
    have tail := inductionHypothesis
      (fun other member => same other (List.mem_cons_of_mem _ member)) rest'
    rw [List.flatten_cons, List.flatten_cons, List.filter_append, List.filter_append, tail]
    by_cases own : other = group
    · have dropped {current previous : Snapshot} {part : List Row}
          (gives : Gives current previous other part) :
          part.filter (fun row => !row.isOf group) = [] := by
        refine List.filter_eq_nil_iff.mpr fun row member => ?_
        rw [isOf_of_mem_ownRows gives member]
        simp [own]
      rw [dropped first, dropped first']
    · obtain ⟨newer, older⟩ := same other List.mem_cons_self own
      rw [Gives, ownRows_congr newer older] at first
      rw [Except.ok.inj (first.symm.trans first')]

/-- Two reports have the same rows beside a group if the samples of all other groups are the same
in both. -/
theorem rows_beside_congr {rows rows' : List Row}
    (alike : reported current' previous' = reported current previous)
    (all : ∀ other ∈ reported current previous, other ∈ groups)
    (outcome : (Report.rows current previous).outcome = .ok rows)
    (outcome' : (Report.rows current' previous').outcome = .ok rows') :
    rows.filter (fun row => !row.isOf group) = rows'.filter fun row => !row.isOf group := by
  obtain ⟨parts, given, rfl⟩ := rows_eq_ok_iff.mp outcome
  obtain ⟨parts', given', rfl⟩ := rows_eq_ok_iff.mp outcome'
  rw [alike] at given'
  exact filter_flatten_congr (fun other member => same other (all other member)) given given'

end Beside

end Report

namespace PollLoop

variable {σ τ : Type}

/-! ### The outline of a run -/

instance : DecidablePred Phase.IsUnbroken
  | .leaving (some _) | .over (some _) => isFalse id
  | .launched | .collecting .. | .rendered | .waiting | .leaving none | .over none =>
    isTrue trivial

/-- A phase without the number of readings that failed. -/
def Phase.unfailed : Phase → Phase
  | .collecting purpose side left _ => .collecting purpose side left 0
  | phase => phase

/-- Where a run stands, and where the deliveries went that it made so far and before each of its
reports. -/
structure Outline where
  phase : Phase
  cancelled : Bool
  newest : Side
  groups : List Group
  slots : List (Side × Group)
  reports : List (Side × List (Side × Group)) := []

namespace Outline

/-- A collection for a cycle begins on the other side, unless the run was asked to end. -/
def beginCycle (outline : Outline) : Outline :=
  if outline.cancelled then { outline with phase := .leaving none }
  else
    { outline with
      phase := .collecting .cycle outline.newest.other outline.groups 0
      newest := outline.newest.other }

/-- The next outline of a run that no fault leaves. -/
def step (outline : Outline) : Outline :=
  match outline.phase with
  | .launched =>
    if outline.cancelled then { outline with phase := .over none, cancelled := false }
    else { outline with phase := .collecting .priming outline.newest outline.groups 0 }
  | .collecting purpose side (group :: left) _ =>
    { outline with
      phase := .collecting purpose side left 0
      slots := outline.slots ++ [(side, group)] }
  | .collecting .priming _ [] _ | .waiting => outline.beginCycle
  | .collecting .cycle _ [] _ =>
    if outline.cancelled then { outline with phase := .leaving none }
    else
      { outline with
        phase := .rendered
        reports := outline.reports ++ [(outline.newest, outline.slots)] }
  | .rendered => { outline with phase := .waiting }
  | .leaving fault => { outline with phase := .over fault, cancelled := false }
  | .over _ => outline

/-- The next outline after a move. -/
def move (outline : Outline) : Move → Outline
  | .step => outline.step
  | .cancel => { outline with cancelled := true }

end Outline

namespace Rendering

/-- The newest side of a report, and where the deliveries before it went. -/
def outline (rendering : Rendering) : Side × List (Side × Group) :=
  (rendering.view.newest, rendering.deliveries.map Delivery.slot)

/-- The rows of a report but for those of a group. -/
def rowsBeside (group : Group) (rendering : Rendering) : List Row :=
  rendering.view.rows.filter fun row => !row.isOf group

end Rendering

namespace Course

/-- The outline of a course. -/
def outline (course : Course σ) : Outline where
  phase := course.phase.unfailed
  cancelled := course.loop.cancelled
  newest := course.loop.store.newest
  groups := course.loop.store.groups
  slots := course.deliveries.map Delivery.slot
  reports := course.renderings.map Rendering.outline

theorem outline_readNext (world : World σ) (course : Course σ) {purpose : Purpose} {side : Side}
    {group : Group} {left : List Group} {failed : Nat}
    (reads : course.phase = .collecting purpose side (group :: left) failed)
    (unbroken : (course.step world).phase.IsUnbroken) :
    (course.step world).outline = course.outline.step := by
  obtain ⟨phase, loop, state, deliveries, renderings⟩ := course
  obtain rfl : phase = _ := reads
  set delivery : Delivery := ⟨side, group,
    (world.read loop.store.cores group.address.map group.address.key state).1⟩
  have phase : (readNext world purpose side group left failed loop state).phase.unfailed =
      .collecting purpose side left 0 := by
    rcases phase_readNext world purpose side group left failed loop state with
      ⟨fault, same⟩ | ⟨failed', same⟩
    · change
        (readNext world purpose side group left failed loop state).phase.IsUnbroken at unbroken
      rw [same] at unbroken
      exact unbroken.elim
    · rw [same]
      rfl
  have newest : (loop.store.deliver delivery).newest = loop.store.newest :=
    Store.deliver_newest _ _
  have groups : (loop.store.deliver delivery).groups = loop.store.groups :=
    Store.deliver_groups _ _
  have views : (readNext world purpose side group left failed loop state).events.filterMap
      Event.view? = [] := by
    rw [readNext, List.filterMap_cons_none rfl]
    exact Event.view?_of_noted _
  show Outline.mk (readNext world purpose side group left failed loop state).phase.unfailed
    loop.cancelled (loop.store.deliver delivery).newest (loop.store.deliver delivery).groups
    ((deliveries ++ [delivery]).map Delivery.slot)
    ((renderings ++ ((readNext world purpose side group left failed loop state).events.filterMap
      Event.view?).map fun view => Rendering.mk view (deliveries ++ [delivery])).map
        Rendering.outline) = _
  rw [phase, newest, groups, views, List.map_append, List.map_nil, List.append_nil]
  rfl

theorem outline_completeCollection (world : World σ) (course : Course σ) {purpose : Purpose}
    {side : Side} {failed : Nat} (complete : course.phase = .collecting purpose side [] failed)
    (unbroken : (course.step world).phase.IsUnbroken) :
    (course.step world).outline = course.outline.step := by
  obtain ⟨phase, loop, state, deliveries, renderings⟩ := course
  obtain rfl : phase = _ := complete
  have stale : (if failed = 0 then [] else
      [Event.noted (.staleGroups failed)]).filterMap Event.view? = [] := by
    split <;> rfl
  cases pending : loop.cancelled with
  | true =>
    cases purpose <;>
      simp [outline, Outline.step, Outline.beginCycle, step, PollLoop.step, completeCollection,
        pending, Phase.unfailed, nextDelivery?, stale]
  | false =>
    cases purpose with
    | priming =>
      simp [outline, Outline.step, Outline.beginCycle, step, PollLoop.step, completeCollection,
        pending, Phase.unfailed, beginCycle, beginCollection, nextDelivery?, Store.swap,
        Store.groups]
    | cycle =>
      cases outcome : (Report.rows loop.store.current loop.store.previous).outcome with
      | error fault =>
        simp [step, PollLoop.step, completeCollection, pending, render, outcome,
          Phase.IsUnbroken] at unbroken
      | ok rows =>
        simp [outline, Outline.step, step, PollLoop.step, completeCollection, pending, render,
          outcome, Phase.unfailed, nextDelivery?, stale, Event.view?, Rendering.outline]

/-- A step that no fault follows leads from one outline to the next. -/
theorem outline_step (world : World σ) (course : Course σ)
    (unbroken : (course.step world).phase.IsUnbroken) :
    (course.step world).outline = course.outline.step := by
  cases phase : course.phase with
  | collecting purpose side left failed =>
    cases left with
    | nil => exact outline_completeCollection world course phase unbroken
    | cons group left => exact outline_readNext world course phase unbroken
  | launched =>
    cases pending : course.loop.cancelled <;>
      simp [outline, Outline.step, step, PollLoop.step, launch, phase, pending, Phase.unfailed,
        beginCollection, nextDelivery?, Event.view?, PollLoop.clearFlag]
  | rendered =>
    simp [outline, Outline.step, step, PollLoop.step, phase, Phase.unfailed, nextDelivery?,
      Event.view?]
  | waiting =>
    simp only [step, PollLoop.step, phase] at unbroken
    rcases wait_cases world course.loop course.state with
      ⟨pending, same⟩ | ⟨pending, ⟨_, -, same⟩ | same⟩
    · simp [outline, Outline.step, Outline.beginCycle, step, PollLoop.step, phase, same, pending,
        Phase.unfailed, nextDelivery?]
    · rw [same] at unbroken
      exact unbroken.elim
    · simp [outline, Outline.step, Outline.beginCycle, step, PollLoop.step, phase, same, pending,
        Phase.unfailed, nextDelivery?, beginCycle, beginCollection, Store.swap, Store.groups]
  | leaving fault =>
    simp [outline, Outline.step, step, PollLoop.step, leave, phase, Phase.unfailed, nextDelivery?,
      Event.view?]
  | «over» fault =>
    simp [outline, Outline.step, step, PollLoop.step, phase, Phase.unfailed, nextDelivery?]

end Course

/-- Two reports with deliveries to the same slots have the same rows beside a group if the readings
of all other groups came to the same. -/
theorem Rendering.Faithful.rowsBeside_eq {cores targets : Int} {rendering rendering' : Rendering}
    (faithful : rendering.Faithful cores targets) (faithful' : rendering'.Faithful cores targets)
    (outline : rendering.outline = rendering'.outline) {group : Group}
    (same : ∀ other ∈ Group.tracked targets, other ≠ group →
      Delivery.outcomes other rendering.deliveries =
        Delivery.outcomes other rendering'.deliveries) :
    rendering.rowsBeside group = rendering'.rowsBeside group := by
  obtain ⟨newest, slots⟩ := Prod.mk.inj outline
  obtain ⟨sized, sized'⟩ := faithful.sized
  obtain ⟨alike, alike'⟩ := faithful'.sized
  have records : ∀ other ∈ Group.tracked targets, other ≠ group →
      rendering.view.current.sample other = rendering'.view.current.sample other ∧
        rendering.view.previous.sample other = rendering'.view.previous.sample other := by
    intro other tracked different
    have kept (side : Side) :
        Delivery.latest side other (.blank cores.toNat) rendering.deliveries =
          Delivery.latest side other (.blank cores.toNat) rendering'.deliveries := by
      rw [Delivery.latest, Delivery.latest, Delivery.samples_eq_outcomes,
        Delivery.samples_eq_outcomes, slots, same other tracked different]
    constructor
    · exact (faithful.current_eq tracked).trans
        ((kept _).trans (newest ▸ (faithful'.current_eq tracked).symm))
    · exact (faithful.previous_eq tracked).trans
        ((kept _).trans (newest ▸ (faithful'.previous_eq tracked).symm))
  have same : Report.reported rendering'.view.current rendering'.view.previous =
      Report.reported rendering.view.current rendering.view.previous := by
    rw [Report.reported, Report.reported, sized, sized', alike, alike']
  exact Report.rows_beside_congr records same
    (fun other inReport => (Report.mem_reported_iff_tracked sized sized').mp inReport)
    faithful.rows faithful'.rows

namespace Course

theorem unbroken_of_move (world : World σ) (course : Course σ) (move : Move)
    (unbroken : (course.move world move).phase.IsUnbroken) : course.phase.IsUnbroken := by
  cases move with
  | cancel => exact unbroken
  | step =>
    cases phase : course.phase with
    | leaving fault | «over» fault =>
      cases fault with
      | none => exact trivial
      | some fault =>
        simp [Course.move, step, PollLoop.step, leave, phase, Phase.IsUnbroken] at unbroken
    | launched | collecting | rendered | waiting => exact trivial

/-- A fault that has left a run stays. -/
theorem unbroken_of_follow (world : World σ) (moves : List Move) (course : Course σ)
    (unbroken : (course.follow world moves).phase.IsUnbroken) : course.phase.IsUnbroken := by
  induction moves generalizing course with
  | nil => exact unbroken
  | cons move rest inductionHypothesis =>
    exact unbroken_of_move world course move (inductionHypothesis _ unbroken)

/-- The outline of a run that no fault leaves follows from its moves alone. -/
theorem outline_follow (world : World σ) (moves : List Move) (course : Course σ)
    (unbroken : (course.follow world moves).phase.IsUnbroken) :
    (course.follow world moves).outline = moves.foldl Outline.move course.outline := by
  induction moves generalizing course with
  | nil => rfl
  | cons move rest inductionHypothesis =>
    have moved : (course.move world move).outline = course.outline.move move := by
      cases move with
      | step => exact outline_step world course (unbroken_of_follow world rest _ unbroken)
      | cancel => rfl
    rw [List.foldl_cons, ← moved]
    exact inductionHypothesis _ unbroken

/-- Two runs over new stores of one size make the same moves, and no fault leaves either of them. If
the readings of all groups but one came to the same in both, reading by reading, then both have as
many reports, and all rows but those of the one group are the same in them. -/
theorem rows_beside_same (world : World σ) (world' : World τ) (cores targets : Int)
    (loop : PollLoop) (state : σ) (state' : τ) (moves : List Move) (group : Group) :
    let first := (launched world cores targets [] loop state).follow world moves
    let second := (launched world' cores targets [] loop state').follow world' moves
    first.phase.IsUnbroken → second.phase.IsUnbroken →
    (∀ other ∈ Group.tracked targets, other ≠ group →
      Delivery.outcomes other first.deliveries = Delivery.outcomes other second.deliveries) →
    first.renderings.map (Rendering.rowsBeside group) =
      second.renderings.map (Rendering.rowsBeside group) := by
  intro first second unbroken unbroken' same
  have sound := sound_follow world cores targets [] loop state moves
  have sound' := sound_follow world' cores targets [] loop state' moves
  have outlines : first.outline = second.outline :=
    (outline_follow world moves _ unbroken).trans (outline_follow world' moves _ unbroken').symm
  have reports : first.renderings.map Rendering.outline = second.renderings.map Rendering.outline :=
    congrArg Outline.reports outlines
  have count : first.renderings.length = second.renderings.length := by
    simpa using congrArg List.length reports
  refine List.ext_getElem (by simpa using count) fun index inFirst inSecond => ?_
  rw [List.length_map] at inFirst inSecond
  rw [List.getElem_map, List.getElem_map]
  have outline := List.getElem_of_eq reports (by simpa using inFirst)
  rw [List.getElem_map, List.getElem_map] at outline
  have member := List.getElem_mem inFirst
  have member' := List.getElem_mem inSecond
  refine (sound.faithful _ member).rowsBeside_eq (sound'.faithful _ member') outline
    fun other tracked different => ?_
  exact Delivery.outcomes_eq_of_prefix (sound.before _ member) (sound'.before _ member')
    (same other tracked different) (congrArg Prod.snd outline)

/-- Three collections of one core and two targets, with a line of its own in each of them for the
first target. -/
def collections (own : List Line) : Script where
  lines := (own.zipIdx.map fun (line, round) =>
    let time : Int := 1000000000 * (2 * round + 1)
    [.answered [⟨1000 * round, 0⟩] (.ok time), .answered [⟨0, 0⟩] (.ok (time + 1)), line,
      .answered [⟨500 * round, round⟩] (.ok (time + 3)),
      .answered [⟨700 * round, 0⟩] (.ok (time + 4))]).flatten

/-- The first target receives packets. -/
def busy : Script :=
  collections [.answered [⟨0, 0⟩] (.ok 1000000002), .answered [⟨80, 0⟩] (.ok 3000000002),
    .answered [⟨900, 7⟩] (.ok 5000000002)]

/-- The first target cannot be read but once. -/
def outage : Script :=
  collections [.refused (.contained (.refused "cpumap_enqueue_cnt" 0)),
    .answered [] (.error ⟨"no clock"⟩), .answered [⟨80, 0⟩] (.ok 5000000003)]

/-- A run of two reports over a script. -/
def twoReports (script : Script) : Course Script :=
  (launched .scripted 1 2 [] { store := .blank 1 2, interval := defaultInterval } script).follow
    .scripted (List.replicate 21 .step)

theorem rows_beside_same_in_outage :
    (twoReports busy).renderings.map (Rendering.rowsBeside (.enqueue 0)) =
        (twoReports outage).renderings.map (Rendering.rowsBeside (.enqueue 0)) ∧
      (twoReports busy).renderings.map (fun rendering =>
        (rendering.view.rows.countP (Row.isOf (.enqueue 0)),
          (rendering.rowsBeside (.enqueue 0)).length)) = [(2, 7), (2, 7)] ∧
      (twoReports outage).renderings.map (fun rendering =>
        rendering.view.rows.countP (Row.isOf (.enqueue 0))) = [0, 2] := by
  refine ⟨?_, by decide +kernel, by decide +kernel⟩
  unfold twoReports
  refine rows_beside_same .scripted .scripted 1 2 _ busy outage _ (.enqueue 0) ?_ ?_ ?_
  · decide +kernel
  · decide +kernel
  · decide +kernel

end Course

end PollLoop

end RedirectMonitor
