/-
The report as lines of text and as cells of a table. Every line sets the fields of a row
in columns; a block is the header, one line for each row and an empty line that ends it.
A stream receives each line by a write of its own and is flushed after the block.
-/

import RedirectMonitor.Report

namespace RedirectMonitor.Report

open RedirectMonitor.Text

/-- The headings of the columns. -/
def headings : List String :=
  ["XDP-cpumap", "CPU:to", "pps", "pps-human-readable", "drop-pps", "period"]

/-- The widths of the columns. -/
def widths : List Nat := [15, 7, 10, 18, 12, 9]

/-- What stands for drops that are not counted. -/
def notApplicable : List Char := "(n/a)".toList

/-- How many places a period has. -/
def periodPlaces : Nat := 6

/-- The header line. -/
def header : List Char :=
  join [' '] ((widths.zip headings).map fun (width, heading) => padRight width heading.toList)

/-- The drops of a row in words. -/
def dropText (row : Row) : List Char :=
  match row.dropPps with
  | none => notApplicable
  | some drops => grouped drops

/-- The line of a row; its last field is not padded. -/
def line (row : Row) : List Char :=
  join [' '] [padRight 15 row.label.toList, padRight 7 row.ident.toList,
    padRight 10 (decimal row.pps), padRight 18 (grouped row.pps), padRight 12 (dropText row),
    row.period.fixed periodPlaces]

/-- The cells of a row in a table. -/
def cells (row : Row) : List (List Char) :=
  [row.label.toList, trim row.ident.toList, decimal row.pps, grouped row.pps, dropText row,
    row.period.fixed periodPlaces]

/-- The lines of a block. -/
def block (rows : List Row) : List (List Char) := header :: rows.map line ++ [[]]

/-- What a stream is asked to do. -/
inductive StreamCall where
  | write (text : List Char)
  | flush
deriving DecidableEq, Repr

/-- The calls that put a block on a stream. -/
def blockCalls (rows : List Row) : List StreamCall :=
  (block rows).map (fun line => .write (line ++ ['\n'])) ++ [.flush]

/-- The text that a list of calls puts on a stream. -/
def streamText (calls : List StreamCall) : List Char :=
  calls.flatMap fun
    | .write text => text
    | .flush => []

/-- One line about a whole report: how many rows it has and the period of the last. -/
def summary (rows : List Row) : List Char :=
  let period := (rows.getLast?.map Row.period).getD .zero
  digits rows.length ++ " rows, period ".toList ++ period.fixed periodPlaces ++ ['s']

end RedirectMonitor.Report
