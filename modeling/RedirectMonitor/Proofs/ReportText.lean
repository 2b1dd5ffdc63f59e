/-
This file says how the text of a report can be found again in the text of many. Every line of a
block ends with a line break and has none before, and of the lines only the last is empty.

The content is that no value of a field, of whatever size, makes a line that is empty or has a
line break of its own: a label and an identifier name what they name by words and digits, and a
number is set in digits, signs and points. So the text of blocks, one after the other, falls back
into these blocks where it is cut after each empty line.
-/

import Mathlib.Data.List.SplitBy
import RedirectMonitor.Proofs.RowListing
import RedirectMonitor.Proofs.Words

namespace RedirectMonitor

namespace Text

/-! ### Cutting a list -/

section Cutting

variable {α : Type} {ends : α → Bool}

/-- The pieces of a list that is cut after each element that ends one. -/
def cutAfter (ends : α → Bool) (list : List α) : List (List α) :=
  list.splitBy fun before _ => !ends before

/-- A list that is cut nowhere but at its end. -/
def IsPiece (ends : α → Bool) (piece : List α) : Prop :=
  ∃ body last, piece = body ++ [last] ∧ ends last = true ∧ ∀ element ∈ body, ends element = false

theorem isChain_of_isPiece {piece : List α} (isPiece : IsPiece ends piece) :
    piece.IsChain fun before _ => !ends before := by
  obtain ⟨body, last, rfl, -, unended⟩ := isPiece
  refine List.isChain_append.mpr ⟨?_, List.isChain_singleton last, fun before found _ _ => ?_⟩
  · exact (List.pairwise_of_forall_mem_list fun before member _ _ => by
      simp [unended before member]).isChain
  · simp [unended before (List.mem_of_getLast? found)]

/-- Pieces put one after the other are found again. -/
theorem cutAfter_flatten (pieces : List (List α)) (whole : ∀ piece ∈ pieces, IsPiece ends piece) :
    cutAfter ends pieces.flatten = pieces := by
  have nonempty : ∀ piece ∈ pieces, piece ≠ [] := by
    rintro piece member rfl
    obtain ⟨body, last, same, -⟩ := whole [] member
    simp at same
  refine List.splitBy_flatten (fun member => nonempty [] member rfl)
    (fun piece member => isChain_of_isPiece (whole piece member)) ?_
  refine (List.pairwise_of_forall_mem_list fun earlier inFront later behind => ?_).isChain
  refine ⟨nonempty earlier inFront, nonempty later behind, ?_⟩
  obtain ⟨body, last, rfl, stop, -⟩ := whole earlier inFront
  simp [stop]

end Cutting

/-! ### Lines and blocks of lines -/

/-- The text of lines, each followed by a line break. -/
def unlines (lines : List (List Char)) : List Char := (lines.map (· ++ ['\n'])).flatten

/-- The pieces of a text that is cut after each empty line. -/
def cutAfterEmptyLines (text : List Char) : List (List Char) :=
  (cutAfter (· == ['\n']) (cutAfter (· == '\n') text)).map List.flatten

/-- Lines that can be found again in a text, the last of them the only empty one. -/
def IsBlock (lines : List (List Char)) : Prop :=
  ∃ body, lines = body ++ [[]] ∧ ∀ line ∈ body, line ≠ [] ∧ '\n' ∉ line

theorem isPiece_line {line : List Char} (unbroken : '\n' ∉ line) :
    IsPiece (· == '\n') (line ++ ['\n']) :=
  ⟨line, '\n', rfl, rfl, fun _ member =>
    beq_eq_false_iff_ne.mpr (ne_of_mem_of_not_mem member unbroken)⟩

theorem isPiece_block {lines : List (List Char)} (block : IsBlock lines) :
    IsPiece (· == ['\n']) (lines.map (· ++ ['\n'])) := by
  obtain ⟨body, rfl, proper⟩ := block
  refine ⟨body.map (· ++ ['\n']), ['\n'], by simp, rfl, fun broken member => ?_⟩
  obtain ⟨line, inBody, rfl⟩ := List.mem_map.mp member
  simpa using (proper line inBody).1

/-- Blocks put one after the other are found again where their text is cut after each empty line. -/
theorem cutAfterEmptyLines_flatten (blocks : List (List (List Char)))
    (whole : ∀ block ∈ blocks, IsBlock block) :
    cutAfterEmptyLines (blocks.map unlines).flatten = blocks.map unlines := by
  have asLines : (blocks.map unlines).flatten =
      ((blocks.map (List.map (· ++ ['\n']))).flatten).flatten := by
    rw [List.flatten_flatten, List.map_map]
    rfl
  have unbroken : ∀ piece ∈ (blocks.map (List.map (· ++ ['\n']))).flatten,
      IsPiece (· == '\n') piece := by
    simp only [← List.flatMap_def, List.mem_flatMap, List.mem_map]
    rintro piece ⟨block, inBlocks, line, inBlock, rfl⟩
    obtain ⟨body, rfl, proper⟩ := whole block inBlocks
    rcases List.mem_append.mp inBlock with inBody | last
    · exact isPiece_line (proper line inBody).2
    · rw [List.mem_singleton.mp last]
      exact isPiece_line List.not_mem_nil
  have separate : ∀ piece ∈ blocks.map (List.map (· ++ ['\n'])),
      IsPiece (· == ['\n']) piece := by
    intro piece member
    obtain ⟨block, inBlocks, rfl⟩ := List.mem_map.mp member
    exact isPiece_block (whole block inBlocks)
  rw [cutAfterEmptyLines, asLines, cutAfter_flatten _ unbroken, cutAfter_flatten _ separate,
    List.map_map]
  rfl

/-! ### Texts without line breaks -/

theorem Solid.lineBreak_not_mem {text : List Char} (solid : Solid text) : '\n' ∉ text :=
  fun member => absurd (solid '\n' member) (by decide)

theorem lineBreak_not_mem_padRight {text : List Char} (unbroken : '\n' ∉ text) (width : Nat) :
    '\n' ∉ padRight width text := by
  simp [padRight, unbroken]

theorem lineBreak_not_mem_padLeft {text : List Char} (unbroken : '\n' ∉ text) (width : Nat) :
    '\n' ∉ padLeft width text := by
  simp [padLeft, unbroken]

theorem mem_join {separator : List Char} {texts : List (List Char)} {character : Char}
    (member : character ∈ join separator texts) :
    character ∈ separator ∨ ∃ text ∈ texts, character ∈ text := by
  induction texts using join.induct with
  | case1 => cases member
  | case2 text => exact .inr ⟨text, List.mem_singleton_self text, member⟩
  | case3 text rest more inductionHypothesis =>
    rw [join, List.mem_append, List.mem_append] at member
    rcases member with (inFirst | between) | later
    · exact .inr ⟨text, List.mem_cons_self, inFirst⟩
    · exact .inl between
    · rcases inductionHypothesis later with between | ⟨other, inRest, found⟩
      · exact .inl between
      · exact .inr ⟨other, List.mem_cons_of_mem _ inRest, found⟩
    · exact more

end Text

open RedirectMonitor.Text

/-! ### Rows and their lines -/

/-- A row whose label and identifier have no line break. -/
structure Row.Plain (row : Row) : Prop where
  label : '\n' ∉ row.label.toList
  ident : '\n' ∉ row.ident.toList

namespace Report

theorem line_ne_nil (row : Row) : line row ≠ [] := by
  simp [line, join]

theorem lineBreak_not_mem_line {row : Row} (plain : row.Plain) : '\n' ∉ line row := by
  intro member
  rcases mem_join member with between | ⟨field, inLine, found⟩
  · revert between
    decide
  · simp only [List.mem_cons, List.not_mem_nil, or_false] at inLine
    rcases inLine with rfl | rfl | rfl | rfl | rfl | rfl
    · exact lineBreak_not_mem_padRight plain.label _ found
    · exact lineBreak_not_mem_padRight plain.ident _ found
    · exact lineBreak_not_mem_padRight (isWord_decimal _).solid.lineBreak_not_mem _ found
    · exact lineBreak_not_mem_padRight (isWord_grouped _).solid.lineBreak_not_mem _ found
    · exact lineBreak_not_mem_padRight (isWord_dropText row).solid.lineBreak_not_mem _ found
    · exact (Binary64.isWord_fixed _ _).solid.lineBreak_not_mem found

/-- The lines of plain rows under the header are a block. -/
theorem isBlock_block {rows : List Row} (plain : ∀ row ∈ rows, row.Plain) :
    IsBlock (block rows) := by
  refine ⟨header :: rows.map line, rfl, fun text member => ?_⟩
  rcases List.mem_cons.mp member with rfl | ofRow
  · exact ⟨by decide +kernel, by decide +kernel⟩
  · obtain ⟨row, inRows, rfl⟩ := List.mem_map.mp ofRow
    exact ⟨line_ne_nil row, lineBreak_not_mem_line (plain row inRows)⟩

theorem streamText_append (calls more : List StreamCall) :
    streamText (calls ++ more) = streamText calls ++ streamText more :=
  List.flatMap_append

/-- The text of a block is that of its lines. -/
theorem streamText_blockCalls (rows : List Row) :
    streamText (blockCalls rows) = unlines (block rows) := by
  simp [streamText, blockCalls, unlines, List.flatMap_def, Function.comp_def]

/-! ### The rows of a report are plain -/

theorem lineBreak_not_mem_enqueueIdent {core : List Char} (unbroken : '\n' ∉ core)
    (target : Nat) : '\n' ∉ (enqueueIdent core target).toList := by
  have left := lineBreak_not_mem_padLeft unbroken 3
  have right := lineBreak_not_mem_padRight (isWord_decimal target).solid.lineBreak_not_mem 3
  simp [enqueueIdent, left, right]

theorem lineBreak_not_mem_coreIdent (group : Group) (core : Nat) :
    '\n' ∉ (group.coreIdent core).toList := by
  have unbroken := (solid_digits core).lineBreak_not_mem
  cases group with
  | enqueue target => exact lineBreak_not_mem_enqueueIdent unbroken target
  | rx | kthread | redirectErr =>
    rw [Group.coreIdent, String.toList_ofList]
    exact unbroken

theorem lineBreak_not_mem_totalIdent (group : Group) : '\n' ∉ group.totalIdent.toList := by
  cases group with
  | enqueue target => exact lineBreak_not_mem_enqueueIdent (by decide) target
  | rx | kthread | redirectErr => exact (by decide : '\n' ∉ "total".toList)

theorem plain_of_mem_rows {current previous : Snapshot} {rows : List Row} {row : Row}
    (outcome : (Report.rows current previous).outcome = .ok rows) (member : row ∈ rows) :
    row.Plain := by
  obtain ⟨group, -, -, part, lists, inPart⟩ := exists_lists_of_mem_rows outcome member
  obtain ⟨ident, rate, rfl, shown⟩ := lists.exists_rate inPart
  have named : '\n' ∉ group.label.toList := by
    cases group <;> simp [Group.label, labels]
  rcases shown with ⟨rfl, -⟩ | ⟨core, rfl, -⟩
  · exact ⟨named, lineBreak_not_mem_totalIdent group⟩
  · exact ⟨named, lineBreak_not_mem_coreIdent group core⟩

/-! ### Reports on a stream -/

/-- A report has the rows that two snapshots give, the newest first. -/
def GivenBy (snapshots : Snapshot × Snapshot) (report : List Row) : Prop :=
  (Report.rows snapshots.1 snapshots.2).outcome = .ok report

/-- Calls that put whole reports on a stream: for each two snapshots one block with the rows that
they give, written line by line and flushed, and the text of the blocks is found again where that of
all calls is cut after each empty line. -/
def Writes (calls : List StreamCall) (snapshots : List (Snapshot × Snapshot)) : Prop :=
  ∃ reports : List (List Row), List.Forall₂ GivenBy snapshots reports ∧
    calls = reports.flatMap blockCalls ∧
    cutAfterEmptyLines (streamText calls) = reports.map fun report => streamText (blockCalls report)

theorem streamText_flatMap_blockCalls (reports : List (List Row)) :
    streamText (reports.flatMap blockCalls) = ((reports.map block).map unlines).flatten := by
  induction reports with
  | nil => rfl
  | cons report rest inductionHypothesis =>
    rw [List.flatMap_cons, streamText_append, streamText_blockCalls, inductionHypothesis]
    rfl

/-- The blocks of reports, one after the other, are whole reports. -/
theorem writes_of_forall₂ {snapshots : List (Snapshot × Snapshot)} {reports : List (List Row)}
    (given : List.Forall₂ GivenBy snapshots reports) :
    Writes (reports.flatMap blockCalls) snapshots := by
  refine ⟨reports, given, rfl, ?_⟩
  have whole : ∀ lines ∈ reports.map block, IsBlock lines := by
    intro lines member
    obtain ⟨report, inReports, rfl⟩ := List.mem_map.mp member
    obtain ⟨pair, -, ofPair⟩ := exists_of_mem_right given inReports
    exact isBlock_block fun row inReport => plain_of_mem_rows ofPair inReport
  rw [streamText_flatMap_blockCalls, cutAfterEmptyLines_flatten _ whole, List.map_map]
  exact List.map_congr_left fun report _ => (streamText_blockCalls report).symm

end Report

end RedirectMonitor
