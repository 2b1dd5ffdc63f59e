/-
This file says which reports a live view shows. Reports are queued as they are rendered, by the
thread behind the view or by anyone else who has two snapshots, and updates come between them at any
moments: none for a long time, or several without a report between them.

The content is that an update which finds no error leaves the view with the report that was rendered
last, in its line and in its table alike, and nothing in the queue. So the reports shown are some of
those rendered, in their order, and between two updates the view stays as it is.
-/

import RedirectMonitor.Proofs.LiveViewStatus

namespace RedirectMonitor.LiveView

open RedirectMonitor.PollLoop RedirectMonitor.Activity

variable {σ : Type} {world : World σ} {view : LiveView σ}

/-! ### Reports and updates in their order -/

/-- What matters for the reports that are shown: that one is rendered, or that the view is brought
up to date. -/
inductive Mark where
  | rendered (rows : List Row)
  | updated
deriving DecidableEq, Repr

namespace Mark

def report? : Mark → Option (List Row)
  | rendered rows => some rows
  | updated => none

/-- The reports that are rendered. -/
def reports (marks : List Mark) : List (List Row) := marks.filterMap report?

/-- The reports that have to be shown, one after the other: at each update the last that was
rendered since the update before, if any was. Before the first update one may be waiting from
earlier. -/
def displayed (waiting : Option (List Row)) : List Mark → List (List Row)
  | [] => []
  | rendered rows :: rest => displayed (some rows) rest
  | updated :: rest => waiting.toList ++ displayed none rest

theorem reports_append (marks more : List Mark) :
    reports (marks ++ more) = reports marks ++ reports more :=
  List.filterMap_append

/-- Nothing is shown that was not rendered, and no report is shown after a later one. -/
theorem displayed_sublist (waiting : Option (List Row)) (marks : List Mark) :
    (displayed waiting marks).Sublist (waiting.toList ++ reports marks) := by
  induction marks generalizing waiting with
  | nil => exact List.nil_sublist _
  | cons mark rest inductionHypothesis =>
    cases mark with
    | rendered rows =>
      exact (inductionHypothesis (some rows)).trans (List.sublist_append_right _ _)
    | updated => exact (inductionHypothesis none).append_left waiting.toList

/-- Reports that are rendered one after the other leave the last of them waiting. -/
theorem displayed_burst (waiting : List (List Row)) (burst : List (List Row)) (marks : List Mark) :
    displayed waiting.getLast? (burst.map rendered ++ marks) =
      displayed (waiting ++ burst).getLast? marks := by
  induction burst generalizing waiting with
  | nil => rw [List.append_nil]; rfl
  | cons rows burst inductionHypothesis =>
    have next := inductionHypothesis (waiting ++ [rows])
    rw [List.getLast?_concat, List.append_assoc] at next
    exact next

/-- An update shows the last of all reports so far, be it for the first time or still. -/
theorem getLast?_displayed_updated (waiting : Option (List Row)) (marks : List Mark) :
    (displayed waiting (marks ++ [updated])).getLast? =
      (waiting.toList ++ reports marks).getLast? := by
  induction marks generalizing waiting with
  | nil => rw [List.nil_append, displayed, displayed]; rfl
  | cons mark rest inductionHypothesis =>
    cases mark with
    | rendered rows =>
      have next := inductionHypothesis (some rows)
      show (displayed (some rows) (rest ++ [updated])).getLast? =
        (waiting.toList ++ rows :: reports rest).getLast?
      rw [next, Option.toList_some, List.singleton_append, List.getLast?_append,
        List.getLast?_cons, Option.some_or]
    | updated =>
      have next := inductionHypothesis none
      rw [Option.toList_none, List.nil_append] at next
      show (waiting.toList ++ displayed none (rest ++ [updated])).getLast? =
        (waiting.toList ++ reports rest).getLast?
      rw [List.getLast?_append, List.getLast?_append, next]

end Mark

/-! ### What a view shows -/

/-- What a view shows: the line about a report, and a table. -/
structure Screen where
  summary : List Char
  table : List (List (List Char))
deriving DecidableEq, Repr

/-- The screen of a report. -/
def Screen.ofReport (rows : List Row) : Screen := ⟨Report.summary rows, rows.map Report.cells⟩

/-- The screen before any report. -/
def Screen.blank : Screen := ⟨[], []⟩

/-- The screen of the last of some reports, or else another one. -/
def Screen.ofLast (reports : List (List Row)) (before : Screen) : Screen :=
  (reports.getLast?.map ofReport).getD before

theorem Screen.ofLast_append (waiting : Option (List Row)) (later : List (List Row))
    (before : Screen) :
    ofLast (waiting.toList ++ later) before = ofLast later (ofLast waiting.toList before) := by
  unfold ofLast
  rw [List.getLast?_append]
  cases later.getLast? <;> rfl

def screen (view : LiveView σ) : Screen := ⟨view.summary, view.table⟩

/-- An update takes the whole queue and shows its last report, unless it finds an error. -/
theorem update_shows (sound : view.activity.loop.error = none) :
    view.update.queue = [] ∧
      view.update.screen = .ofLast view.queue.getLast?.toList view.screen := by
  unfold update
  rw [sound]
  dsimp only
  cases last : view.queue.getLast? with
  | none => exact ⟨List.getLast?_eq_none_iff.mp last, rfl⟩
  | some rows => exact ⟨rfl, rfl⟩

/-- An update that finds an error shows nothing and takes nothing. -/
theorem update_of_error (failed : view.activity.loop.error ≠ none) :
    view.update.queue = view.queue ∧ view.update.screen = view.screen := by
  obtain ⟨error, found⟩ := Option.ne_none_iff_exists'.mp failed
  unfold update
  rw [found]
  exact ⟨rfl, rfl⟩

/-- The reports among events. -/
def reported (events : List Event) : List (List Row) :=
  (events.filterMap Event.view?).map View.rows

/-- A step behind the view queues the reports that it shows. -/
theorem step_queues (world : World σ) (actor : Actor) (view : LiveView σ) :
    (view.step world actor).queue =
        view.queue ++ reported (view.activity.step world actor).2 ∧
      (view.step world actor).screen = view.screen := by
  have received (events : List Event) (other : LiveView σ) :
      (events.foldl receive other).queue = other.queue ++ reported events ∧
        (events.foldl receive other).screen = other.screen := by
    induction events generalizing other with
    | nil => exact ⟨(List.append_nil _).symm, rfl⟩
    | cons event rest inductionHypothesis =>
      obtain ⟨queue, screen⟩ := inductionHypothesis (other.receive event)
      cases event with
      | reported report =>
        refine ⟨queue.trans ?_, screen⟩
        exact (List.append_assoc other.queue [report.rows] (reported rest))
      | noted | looked | rests => exact ⟨queue, screen⟩
  exact received _ { view with activity := (view.activity.step world actor).1 }

/-! ### A view that is fed -/

/-- What can happen to a view that is fed: what can happen to any view that has begun, and that
someone renders the report of two snapshots for it. -/
inductive Occasion (σ : Type) where
  | happens (happening : Happening σ)
  | renders (current previous : Snapshot)

namespace Occasion

/-- The reports that an occasion queues. -/
def queues (world : World σ) (view : LiveView σ) : Occasion σ → List (List Row)
  | happens (.step actor) => reported (view.activity.step world actor).2
  | renders current previous => (Report.rows current previous).outcome.toOption.toList
  | happens _ => []

/-- What an occasion does to a view. -/
def occur (world : World σ) (view : LiveView σ) : Occasion σ → LiveView σ
  | happens happening => view.happen world happening
  | renders current previous =>
    match (Report.rows current previous).outcome with
    | .ok rows => view.enqueue rows
    | .error _ => view

/-- What an occasion means for the reports that are shown. An update that finds an error means
nothing. -/
def marks (world : World σ) (view : LiveView σ) (occasion : Occasion σ) : List Mark :=
  match occasion with
  | happens .update => if view.activity.loop.error = none then [.updated] else []
  | _ => (occasion.queues world view).map .rendered

end Occasion

/-- A view after occasions, one after the other. -/
def pursue (world : World σ) (occasions : List (Occasion σ)) (view : LiveView σ) : LiveView σ :=
  occasions.foldl (Occasion.occur world) view

/-- What occasions mean for the reports that are shown, in their order. -/
def marksOf (world : World σ) : List (Occasion σ) → LiveView σ → List Mark
  | [], _ => []
  | occasion :: rest, view =>
    occasion.marks world view ++ marksOf world rest (occasion.occur world view)

theorem pursue_update (first : List (Occasion σ)) (view : LiveView σ) :
    view.pursue world (first ++ [.happens .update]) = (view.pursue world first).update :=
  List.foldl_append

theorem marksOf_append (first second : List (Occasion σ)) (view : LiveView σ) :
    marksOf world (first ++ second) view =
      marksOf world first view ++ marksOf world second (view.pursue world first) := by
  induction first generalizing view with
  | nil => rfl
  | cons occasion rest inductionHypothesis =>
    rw [List.cons_append, marksOf, marksOf, inductionHypothesis, List.append_assoc]
    rfl

/-- Where no update comes, reports are queued and nothing else is shown. -/
theorem Occasion.occur_queues (world : World σ) (view : LiveView σ) {occasion : Occasion σ}
    (other : occasion ≠ .happens .update) :
    (occasion.occur world view).queue = view.queue ++ occasion.queues world view ∧
      (occasion.occur world view).screen = view.screen ∧
      occasion.marks world view = (occasion.queues world view).map .rendered := by
  have kept : view.queue = view.queue ++ [] := (List.append_nil _).symm
  cases occasion with
  | renders current previous =>
    simp only [occur, queues]
    cases outcome : (Report.rows current previous).outcome with
    | error fault => exact ⟨kept, rfl, by simp only [marks, queues, outcome]⟩
    | ok rows => exact ⟨rfl, rfl, by simp only [marks, queues, outcome]⟩
  | happens happening =>
    cases happening with
    | step actor =>
      obtain ⟨queue, screen⟩ := step_queues world actor view
      exact ⟨queue, screen, rfl⟩
    | update => exact absurd rfl other
    | breaks | drift | asks | quits | closes => exact ⟨kept, rfl, rfl⟩

/-- A view shows the last of the reports that had to be shown, or what it showed before any. -/
theorem screen_pursue (world : World σ) (occasions : List (Occasion σ)) (view : LiveView σ) :
    (view.pursue world occasions).screen =
      .ofLast (Mark.displayed view.queue.getLast? (marksOf world occasions view)) view.screen := by
  -- Of the queue only its last report matters, since an update passes over the others.
  induction occasions generalizing view with
  | nil => rfl
  | cons occasion rest inductionHypothesis =>
    show ((occasion.occur world view).pursue world rest).screen = _
    rw [inductionHypothesis, marksOf]
    by_cases isUpdate : occasion = .happens .update
    · obtain rfl := isUpdate
      show Screen.ofLast (Mark.displayed view.update.queue.getLast? _) view.update.screen = _
      by_cases sound : view.activity.loop.error = none
      · have marked : Occasion.marks world view (.happens .update) = [.updated] := if_pos sound
        obtain ⟨queue, screen⟩ := update_shows sound
        rw [marked, queue, screen, List.singleton_append, Mark.displayed, Screen.ofLast_append]
        rfl
      · have marked : Occasion.marks world view (.happens .update) = [] := if_neg sound
        obtain ⟨queue, screen⟩ := update_of_error sound
        rw [marked, queue, screen]
        rfl
    · obtain ⟨queue, screen, marked⟩ := occasion.occur_queues world view isUpdate
      rw [marked, queue, screen, Mark.displayed_burst]

/-- An update that finds no error shows the last of all reports so far. -/
theorem screen_update {view : LiveView σ} (empty : view.queue = []) (occasions : List (Occasion σ))
    (sound : (view.pursue world occasions).activity.loop.error = none) :
    (view.pursue world occasions).update.screen =
      .ofLast (Mark.reports (marksOf world occasions view)) view.screen := by
  have marked : marksOf world (occasions ++ [.happens .update]) view =
      marksOf world occasions view ++ [.updated] := by
    rw [marksOf_append]
    congr 1
    exact (List.append_nil _).trans (if_pos sound)
  have shown := screen_pursue world (occasions ++ [.happens .update]) view
  rw [pursue_update, marked, Screen.ofLast, Mark.getLast?_displayed_updated, empty] at shown
  exact shown

/-- However reports and updates alternate from the moment when a view begins, the reports that it
shows are some of those rendered, in their order, each with its line and its table. An update that
finds no error takes the whole queue and shows the last report rendered so far; where none was
rendered since an update before it, the view stays as that one left it. -/
theorem view_shows_newest_report (world : World σ) (loop : PollLoop) (state : σ)
    (occasions : List (Occasion σ)) :
    let begun := (ofLoop loop state).mount
    let view := begun.pursue world occasions
    let marks := marksOf world occasions begun
    (Mark.displayed none marks).Sublist (Mark.reports marks) ∧
    view.screen = .ofLast (Mark.displayed none marks) .blank ∧
    (view.activity.loop.error = none →
      view.update.queue = [] ∧
      view.update.screen = .ofLast (Mark.reports marks) .blank ∧
      ∀ earlier since, occasions = earlier ++ .happens .update :: since →
        let before := begun.pursue world earlier
        before.activity.loop.error = none →
        Mark.reports (marksOf world since before.update) = [] →
        view.update.screen = before.update.screen) := by
  intro begun view marks
  have empty : begun.queue = [] := rfl
  refine ⟨Mark.displayed_sublist none marks, screen_pursue world occasions begun, fun sound =>
    ⟨(update_shows sound).1, screen_update empty occasions sound, ?_⟩⟩
  intro earlier since same before sound' none
  have marked : Mark.reports marks = Mark.reports (marksOf world earlier begun) := by
    show Mark.reports (marksOf world occasions begun) = _
    rw [same, marksOf_append, Mark.reports_append, marksOf, Mark.reports_append]
    have single : Occasion.marks world before (.happens .update) = [.updated] := if_pos sound'
    show _ ++ (Mark.reports (Occasion.marks world before (.happens .update)) ++
      Mark.reports (marksOf world since before.update)) = _
    rw [single, none]
    exact List.append_nil _
  rw [screen_update empty occasions sound, screen_update empty earlier sound', marked]

/-- A snapshot two seconds after the blank one, by which so many packets have arrived. -/
def arrived (packets : Int) : Snapshot :=
  { Snapshot.blank 1 0 with rx := (Sample.blank 1).record 2000000000 [⟨packets, 0⟩] }

/-- Two reports, one after the other. -/
def burst : List (Occasion Unit) :=
  [.renders (arrived 20) (.blank 1 0), .renders (arrived 40) (.blank 1 0)]

theorem view_passes_over_report :
    let world : World Unit :=
      { lookup := fun _ _ state => (.ok [⟨0, 0⟩], state), clock := fun state => (.ok 1, state) }
    let begun := (ofLoop { store := .blank 1 0, interval := defaultInterval } ()).mount
    let occasions := burst ++ [.happens .update]
    let view := begun.pursue world occasions
    let marks := marksOf world occasions begun
    (Mark.reports marks).length = 2 ∧
      (Mark.displayed none marks).Sublist (Mark.reports marks) ∧
      view.update.queue = [] ∧ view.update.screen = view.screen ∧
      view.screen.table.map (·[2]?) =
        [some ['2', '0'], some ['2', '0'], some ['0'], some ['0']] := by
  intro world begun occasions view marks
  have none (other : LiveView Unit) : Mark.reports (marksOf world [] other) = [] := rfl
  obtain ⟨shown, -, updates⟩ := view_shows_newest_report world
    { store := .blank 1 0, interval := defaultInterval } () occasions
  obtain ⟨queue, -, unchanged⟩ := updates (by decide +kernel)
  have same : view.update.screen = (begun.pursue world burst).update.screen :=
    unchanged burst [] rfl (by decide +kernel) (none _)
  have once : view = (begun.pursue world burst).update := pursue_update burst begun
  rw [← once] at same
  exact ⟨by decide +kernel, shown, queue, same, by decide +kernel⟩

end RedirectMonitor.LiveView
