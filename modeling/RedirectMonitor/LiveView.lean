/-
The live view: a table and a line about it, fed by a background run. Reports are queued as
they come out; an update takes the whole queue and shows its last report. An update that
finds the loop ended by an error asks to exit with the status of that error instead, and
quitting asks to exit with success. The last request to exit counts.
-/

import RedirectMonitor.Activity
import RedirectMonitor.Report.Lines

namespace RedirectMonitor

/-- A live view of an activity. -/
structure LiveView (σ : Type) where
  activity : Activity σ
  /-- The reports that no update has taken yet, the oldest first. -/
  queue : List (List Row) := []
  summary : List Char := []
  table : List (List (List Char)) := []
  /-- The status to exit with, once an exit was asked for. -/
  exit : Option ExitStatus := none

namespace LiveView

def title : String := "cpumap-top"

def subtitle : String := "XDP cpumap redirect statistics"

/-- What the cursor of the table selects. -/
def cursor : String := "row"

variable {σ : Type}

/-- A view of a loop that has not run, over a state of the world. -/
def ofLoop (loop : PollLoop) (state : σ) : LiveView σ := { activity := { loop, state } }

/-- The view begins, and with it the background run. -/
def mount (view : LiveView σ) : LiveView σ :=
  { view with activity := view.activity.startBackground }

def enqueue (view : LiveView σ) (rows : List Row) : LiveView σ :=
  { view with queue := view.queue ++ [rows] }

/-- An event of the run reaches the view: reports are queued. -/
def receive (view : LiveView σ) : PollLoop.Event → LiveView σ
  | .reported report => view.enqueue report.rows
  | .noted _ | .looked _ | .rests _ => view

/-- One step of a run behind the view. -/
def step (world : World σ) (actor : Activity.Actor) (view : LiveView σ) : LiveView σ :=
  let (activity, events) := view.activity.step world actor
  events.foldl receive { view with activity }

/-- The line about a report is shown. -/
def showSummary (view : LiveView σ) (rows : List Row) : LiveView σ :=
  { view with summary := Report.summary rows }

/-- A report is shown: the line about it and its table. -/
def present (view : LiveView σ) (rows : List Row) : LiveView σ :=
  { view.showSummary rows with table := rows.map Report.cells }

/-- The view is brought up to date. -/
def update (view : LiveView σ) : LiveView σ :=
  match view.activity.loop.error with
  | some error => { view with exit := some error.status }
  | none =>
    match view.queue.getLast? with
    | none => view
    | some rows => { view.present rows with queue := [] }

/-- The run is asked to end. -/
def askEnd (view : LiveView σ) : LiveView σ := { view with activity := view.activity.cancel }

/-- The run was waited for as far as it has ended by now. -/
def awaitEnd (view : LiveView σ) : LiveView σ := { view with activity := view.activity.finishStop }

/-- The run was waited for, and the view exits with success. -/
def leave (view : LiveView σ) : LiveView σ := { view.awaitEnd with exit := some .success }

/-- The view is closed: the run is asked to end and waited for. -/
def stop (view : LiveView σ) : LiveView σ := view.askEnd.awaitEnd

/-- The view is quit: the run is asked to end and waited for, and the view exits. -/
def quit (view : LiveView σ) : LiveView σ := view.askEnd.leave

/-- The status with which a program ends that has shown the view. -/
def status (view : LiveView σ) : ExitStatus := view.exit.getD .success

end LiveView

end RedirectMonitor
