/-
This file reads a row back from its line. A line has six fields, and these are the cells that a
table shows for the same row: the label, the identifier without the blanks around it, the rate
twice, the drops, and the period.

The content is that nothing is lost on the way. A number is read back from its decimal text, however
long it is. The readable text of a number has the same digits with a comma before every third of
them from the right, but none in front, and no readable text is the one that stands for drops that
are not counted.
-/

import RedirectMonitor.Proofs.RowListing
import RedirectMonitor.Proofs.Words

namespace RedirectMonitor

namespace Text

/-! ### Integers in decimal -/

/-- The integer that a text of digits tells, behind a minus sign if it is negative. -/
def integerOf (text : List Char) : Int :=
  if text.head? = some '-' then -(Nat.ofDigitChars 10 text.tail 0 : Nat)
  else (Nat.ofDigitChars 10 text 0 : Nat)

theorem integerOf_decimal (number : Int) : integerOf (decimal number) = number := by
  have read : Nat.ofDigitChars 10 (digits number.natAbs) 0 = number.natAbs :=
    Nat.ofDigitChars_ten_toDigits
  by_cases negative : number < 0
  · rw [decimal, if_pos negative, integerOf, List.singleton_append, List.head?_cons, if_pos rfl,
      List.tail_cons, read]
    omega
  · have unsigned : (digits number.natAbs).head? ≠ some '-' := fun sign =>
      absurd (isDigit_of_mem_digits (List.mem_of_head? sign)) (by decide)
    rw [decimal, if_neg negative, List.nil_append, integerOf, if_neg unsigned, read]
    omega

/-! ### Thousands -/

def withoutCommas (text : List Char) : List Char := text.filter (· ≠ ',')

/-- A text is digits with a comma before every third of them from the right and nowhere else. Places
are counted from the right, so that the commas are in the fourth place, the eighth and so on. -/
structure SetsThousands (text digits : List Char) : Prop where
  same : withoutCommas text = digits
  commas : ∀ place < text.length, text.reverse[place]? = some ',' ↔ place % 4 = 3
  front : text.head? ≠ some ','

theorem withoutCommas_groupThousands {text : List Char} (plain : ',' ∉ text) :
    withoutCommas (groupThousands text) = text := by
  induction text with
  | nil => rfl
  | cons digit rest inductionHypothesis =>
    obtain ⟨other, plainRest⟩ : digit ≠ ',' ∧ ',' ∉ rest := by simpa [eq_comm] using plain
    by_cases empty : rest = []
    · simp [empty, groupThousands, withoutCommas, other]
    · have tail := inductionHypothesis plainRest
      rw [groupThousands_cons digit empty]
      split <;> simpa [withoutCommas, other] using tail

theorem length_groupThousands (text : List Char) :
    (groupThousands text).length = text.length + (text.length - 1) / 3 := by
  induction text with
  | nil => rfl
  | cons digit rest inductionHypothesis =>
    by_cases empty : rest = []
    · simp [empty, groupThousands]
    · have some : 0 < rest.length := List.length_pos_of_ne_nil empty
      rw [groupThousands_cons digit empty, List.length_cons, List.length_append,
        inductionHypothesis, List.length_cons]
      split <;> simp only [List.length_cons, List.length_nil] <;> omega

theorem comma_groupThousands_iff {text : List Char} (plain : ',' ∉ text) (place : Nat)
    (bound : place < (groupThousands text).length) :
    (groupThousands text).reverse[place]? = some ',' ↔ place % 4 = 3 := by
  induction text with
  | nil => cases bound
  | cons digit rest inductionHypothesis =>
    obtain ⟨other, plainRest⟩ : digit ≠ ',' ∧ ',' ∉ rest := by simpa [eq_comm] using plain
    have size := length_groupThousands rest
    by_cases empty : rest = []
    · subst empty
      obtain rfl : place = 0 := Nat.lt_one_iff.mp bound
      simpa [groupThousands] using other
    · have some : 0 < rest.length := List.length_pos_of_ne_nil empty
      rw [groupThousands_cons digit empty] at bound ⊢
      rw [List.reverse_cons, List.reverse_append, List.append_assoc]
      by_cases later : place < (groupThousands rest).length
      · rw [List.getElem?_append_left (by simpa using later)]
        exact inductionHypothesis plainRest later
      · -- behind the rest come at most a comma, in a fourth place, and the digit
        obtain ⟨behind, rfl⟩ := Nat.exists_eq_add_of_le (Nat.le_of_not_lt later)
        rw [List.getElem?_append_right (by simp), List.length_reverse, Nat.add_sub_cancel_left]
        split at bound
        · rename_i whole
          have fourth : (groupThousands rest).length % 4 = 3 := by omega
          have two : behind = 0 ∨ behind = 1 := by
            simp only [List.length_cons, List.length_append, List.length_nil] at bound
            omega
          rw [if_pos whole]
          rcases two with rfl | rfl
          · simp [fourth]
          · simp [other]
            omega
        · rename_i part
          obtain rfl : behind = 0 := by
            simp only [List.length_cons, List.length_append, List.length_nil] at bound
            omega
          rw [if_neg part]
          simp [other]
          omega

theorem head?_groupThousands (text : List Char) : (groupThousands text).head? = text.head? := by
  cases text with
  | nil => rfl
  | cons digit rest =>
    by_cases empty : rest = []
    · rw [empty]
      rfl
    · rw [groupThousands_cons digit empty]
      rfl

theorem comma_not_mem_digits (number : Nat) : ',' ∉ digits number :=
  fun member => absurd (isDigit_of_mem_digits member) (by decide)

/-- A readable text of a number: its digits with commas between thousands, behind its sign, so that
there is the decimal text if the commas are left out. -/
structure Reads (text : List Char) (number : Int) : Prop where
  same : withoutCommas text = decimal number
  signed : ∃ body, text = (if number < 0 then ['-'] else []) ++ body ∧
    SetsThousands body (digits number.natAbs)

theorem withoutCommas_grouped (number : Int) : withoutCommas (grouped number) = decimal number := by
  have sign : withoutCommas (if number < 0 then ['-'] else []) =
      if number < 0 then ['-'] else [] := by
    split <;> rfl
  show List.filter _ _ = _
  rw [grouped, List.filter_append]
  exact congrArg₂ _ sign (withoutCommas_groupThousands (comma_not_mem_digits number.natAbs))

theorem reads_grouped (number : Int) : Reads (grouped number) number := by
  have plain := comma_not_mem_digits number.natAbs
  refine ⟨withoutCommas_grouped number, _, rfl, withoutCommas_groupThousands plain,
    comma_groupThousands_iff plain, ?_⟩
  rw [head?_groupThousands]
  exact fun comma => plain (List.mem_of_head? comma)

end Text

open RedirectMonitor.Text

namespace Report

/-! ### The columns of a row -/

theorem grouped_ne_notApplicable (number : Int) : grouped number ≠ notApplicable := by
  intro same
  have plain := congrArg withoutCommas same
  rw [withoutCommas_grouped] at plain
  have bracket : '(' ∈ decimal number := plain ▸ by decide
  rw [decimal, List.mem_append] at bracket
  rcases bracket with sign | digit
  · split at sign <;> simp at sign
  · exact absurd (isDigit_of_mem_digits digit) (by decide)

/-- A row whose label is a word and whose identifier frames one. -/
structure Framed (row : Row) : Prop where
  label : IsWord row.label.toList
  ident : ∃ word, Frames row.ident.toList word

/-- The fields of a line are the cells of its row. -/
theorem fields_line {row : Row} (framed : Framed row) : fields (line row) = cells row := by
  obtain ⟨label, word, ident⟩ := framed
  rw [cells, ident.trim]
  exact fields_join
    (.cons (label.frames.padRight 15) <| .cons (ident.padRight 7) <|
      .cons ((isWord_decimal row.pps).frames.padRight 10) <|
      .cons ((isWord_grouped row.pps).frames.padRight 18) <|
      .cons ((isWord_dropText row).frames.padRight 12) <|
      .cons (Binary64.isWord_fixed periodPlaces row.period).frames .nil)

/-! ### Rows of a report are framed -/

theorem frames_enqueueIdent {core : List Char} (isWord : IsWord core) (target : Int) :
    ∃ word, Frames (enqueueIdent core target).toList word := by
  refine ⟨core ++ ':' :: decimal target, ⟨by simp, isWord.solid.append ?_⟩,
    List.replicate (3 - core.length) ' ', List.replicate (3 - (decimal target).length) ' ',
    blank_replicate _, blank_replicate _, ?_⟩
  · rintro character (_ | ⟨_, member⟩)
    · rfl
    · exact (isWord_decimal target).solid character member
  · simp [enqueueIdent, padLeft, padRight]

theorem frames_coreIdent (group : Group) (core : Nat) :
    ∃ word, Frames (group.coreIdent core).toList word := by
  cases group with
  | enqueue target => exact frames_enqueueIdent (isWord_digits core) target
  | rx | kthread | redirectErr =>
    rw [Group.coreIdent, String.toList_ofList]
    exact ⟨_, (isWord_digits core).frames⟩

theorem frames_totalIdent (group : Group) :
    ∃ word, Frames group.totalIdent.toList word := by
  cases group with
  | enqueue target =>
    exact frames_enqueueIdent (by decide : IsWord "sum".toList) target
  | rx | kthread | redirectErr => exact ⟨_, (by decide : IsWord "total".toList).frames⟩

theorem framed_of_mem_rows {current previous : Snapshot} {rows : List Row} {row : Row}
    (outcome : (Report.rows current previous).outcome = .ok rows) (member : row ∈ rows) :
    Framed row := by
  obtain ⟨group, -, -, part, lists, inPart⟩ := exists_lists_of_mem_rows outcome member
  obtain ⟨ident, rate, rfl, shown⟩ := lists.exists_rate inPart
  have label : IsWord group.label.toList := by
    cases group with
    | rx => exact (by decide : IsWord labels.rx.toList)
    | enqueue target => exact (by decide : IsWord labels.enqueue.toList)
    | kthread => exact (by decide : IsWord labels.kthread.toList)
    | redirectErr => exact (by decide : IsWord labels.redirectErr.toList)
  rcases shown with ⟨rfl, -⟩ | ⟨core, rfl, -⟩
  · exact ⟨label, frames_totalIdent group⟩
  · exact ⟨label, frames_coreIdent group core⟩

/-! ### Reading a line -/

/-- What a line tells of its row but for the period. -/
structure Told where
  label : List Char
  ident : List Char
  pps : Int
  dropPps : Option Int
deriving DecidableEq, Repr

/-- What a row has to tell. -/
def Told.ofRow (row : Row) : Told :=
  ⟨row.label.toList, trim row.ident.toList, row.pps, row.dropPps⟩

/-- What the fields of a line tell. -/
def told? : List (List Char) → Option Told
  | [label, ident, pps, _, drops, _] =>
    some ⟨label, ident, integerOf pps,
      if drops = notApplicable then none else some (integerOf (withoutCommas drops))⟩
  | _ => none

theorem told?_cells (row : Row) : told? (cells row) = some (.ofRow row) := by
  have drops : (if dropText row = notApplicable then none
      else some (integerOf (withoutCommas (dropText row)))) = row.dropPps := by
    cases counted : row.dropPps with
    | none => simp [dropText, counted]
    | some drops =>
      simp [dropText, counted, grouped_ne_notApplicable, withoutCommas_grouped, integerOf_decimal]
  simp [cells, told?, Told.ofRow, integerOf_decimal, drops]

/-- The line of every row of a report has six fields, and these are the cells of the row. They tell
the label, the identifier without the blanks around it, the rate and the drops. The rate stands
there in decimal and once more with commas between thousands, and the drops have commas too, unless
they are not counted. -/
theorem fields_line_of_mem_rows {current previous : Snapshot} {rows : List Row}
    (outcome : (Report.rows current previous).outcome = .ok rows) {row : Row}
    (member : row ∈ rows) :
    fields (line row) = cells row ∧ (fields (line row)).length = 6 ∧
      told? (fields (line row)) = some (.ofRow row) ∧
      ∃ readable drops,
        (fields (line row))[2]? = some (decimal row.pps) ∧
        (fields (line row))[3]? = some readable ∧
        (fields (line row))[4]? = some drops ∧
        Reads readable row.pps ∧
        (drops = "(n/a)".toList ↔ row.dropPps = none) ∧
        ∀ number, row.dropPps = some number → drops = grouped number ∧ Reads drops number := by
  rw [fields_line (framed_of_mem_rows outcome member)]
  refine ⟨rfl, rfl, told?_cells row, grouped row.pps, dropText row, rfl, rfl, rfl,
    reads_grouped row.pps, ?_, fun number counted => ?_⟩
  · show dropText row = notApplicable ↔ _
    cases counted : row.dropPps with
    | none => simp [dropText, counted]
    | some number => simpa [dropText, counted] using grouped_ne_notApplicable number
  · rw [dropText, counted]
    exact ⟨rfl, reads_grouped number⟩

theorem fields_line_of_common :
    (Report.rows ofTwoCores ofThreeCores).outcome = .ok commonRows ∧
      commonRows.map (fun row => told? (fields (line row))) =
        commonRows.map (fun row => some (.ofRow row)) ∧
      (commonRows[3]?.map fun row => (fields (line row)).map String.ofList) =
        some ["cpumap-enqueue", "sum:0", "25", "25", "1", "1.000000"] := by
  have outcome : (Report.rows ofTwoCores ofThreeCores).outcome = .ok commonRows := by
    decide +kernel
  have told := fun row (member : row ∈ commonRows) =>
    (fields_line_of_mem_rows outcome member).2.2.1
  exact ⟨outcome, List.map_congr_left told, by decide +kernel⟩

end Report

end RedirectMonitor
