/-
This file says that the reader of JSON reads every text of a value as that value, with whatever
blanks and escapes it is written, as long as it keeps within the limits of nesting and of digits.

The content is an induction on the depth: where each inner value is read with any text behind it
that does not go on with it, the loops over items and members find one part after the other, since
what follows a part is a blank, a comma, or the closing bracket.
-/

import RedirectMonitor.Proofs.JsonLimits
import RedirectMonitor.Proofs.JsonScalars

namespace RedirectMonitor.Json

open RedirectMonitor.Text

/-! ### Containers -/

/-- A text starts with a character that may start a value: with no blank, no closing bracket or
brace, and no byte order mark. -/
def Opens (text : List Char) : Prop :=
  ∃ first rest, text = first :: rest ∧ isJsonBlank first = false ∧
    first ∉ [']', '\x7d', '\ufeff']

theorem Opens.skipBlanks_append {text : List Char} (opens : Opens text) (rest : List Char) :
    skipBlanks (text ++ rest) = text ++ rest := by
  obtain ⟨first, others, rfl, solid, -⟩ := opens
  exact skipBlanks_cons solid _

/-- A value without parts starts with a character that opens no container. -/
theorem opens_of_scalar {value : Json} {text : List Char} (spelled : SpelledScalar value text) :
    Opens text ∧ (∀ rest, text ≠ '[' :: rest) ∧ ∀ rest, text ≠ '\x7b' :: rest := by
  have number {negative : Bool} {digits : List Char} (digit : AreDigits digits)
      (more : List Char) :
      Opens (minus negative ++ digits ++ more) ∧
        (∀ rest, minus negative ++ digits ++ more ≠ '[' :: rest) ∧
        ∀ rest, minus negative ++ digits ++ more ≠ '\x7b' :: rest := by
    obtain ⟨first, others, rfl⟩ := List.exists_cons_of_ne_nil digit.nonempty
    have decimal := digit.decimal first List.mem_cons_self
    have differs (other : Char) (letter : other.isDigit = false) : first ≠ other := by
      rintro rfl
      rw [letter] at decimal
      cases decimal
    cases negative with
    | true =>
      exact ⟨⟨'-', _, rfl, rfl, by decide⟩, fun rest => by simp [minus],
        fun rest => by simp [minus]⟩
    | false =>
      have solid : isJsonBlank first = false := by
        simp [isJsonBlank, differs ' ' rfl, differs '\t' rfl,
          differs '\n' rfl, differs '\r' rfl]
      have opening : first ∉ [']', '\x7d', '\ufeff'] := by
        simp [differs ']' rfl, differs '\x7d' rfl,
          differs '\ufeff' rfl]
      exact ⟨⟨first, _, rfl, solid, opening⟩,
        fun rest same => differs '[' rfl (List.cons.inj same).1,
        fun rest same => differs '\x7b' rfl (List.cons.inj same).1⟩
  cases spelled with
  | null => exact ⟨⟨'n', _, rfl, rfl, by decide⟩, by simp, by simp⟩
  | true => exact ⟨⟨'t', _, rfl, rfl, by decide⟩, by simp, by simp⟩
  | false => exact ⟨⟨'f', _, rfl, rfl, by decide⟩, by simp, by simp⟩
  | text spelled => exact ⟨⟨'\x22', _, rfl, rfl, by decide⟩, by simp, by simp⟩
  | integer whole short => simpa using number whole.toAreDigits []
  | real whole fractional scaled inexact =>
    rw [List.append_assoc]
    exact number whole.toAreDigits _

theorem Spelled.opens {depth : Nat} {value : Json} {text : List Char}
    (spelled : Spelled depth value text) : Opens text := by
  cases depth with
  | zero => exact (opens_of_scalar spelled).1
  | succ depth =>
    rcases spelled with scalar | array | object
    · exact (opens_of_scalar scalar).1
    · obtain ⟨listed⟩ := array
      exact ⟨'[', _, rfl, rfl, by decide⟩
    · obtain ⟨listed⟩ := object
      exact ⟨'\x7b', _, rfl, rfl, by decide⟩

theorem Ends.of_blanks {blanks rest : List Char} (blank : Blanks blanks) (ended : Ends rest) :
    Ends (blanks ++ rest) := by
  cases blanks with
  | nil => exact ended
  | cons first others =>
    intro character found
    obtain rfl := Option.some.inj found
    have known := blank first List.mem_cons_self
    exact List.mem_append_left [',', ']', '\x7d'] known

/-- Each spelled value is read with any text behind it that does not go on with it. -/
def Reads (spelled : Json → List Char → Prop) (item : List Char → Except Stop (Reading Json)) :
    Prop :=
  ∀ value text rest, spelled value text → Ends rest → item (text ++ rest) = .ok (value, rest)

section Loops

variable {spelled : Json → List Char → Prop} {item : List Char → Except Stop (Reading Json)}

theorem Separated.length_le {α : Type} {spelled : α → List Char → Prop} {items : List α}
    {text : List Char} (separated : Separated spelled items text)
    (opens : ∀ value text, spelled value text → Opens text) : items.length ≤ text.length := by
  have nonempty {item : α} {written : List Char} (first : spelled item written) :
      0 < written.length := by
    obtain ⟨character, rest, rfl, -⟩ := opens item written first
    exact Nat.succ_pos _
  induction separated with
  | last blanks first blanks' =>
    have := nonempty first
    simp only [List.length_append, List.length_singleton]
    omega
  | more blanks first blanks' later inductionHypothesis =>
    simp only [List.length_append, List.length_cons]
    omega

theorem readItems_of_separated (opens : ∀ value text, spelled value text → Opens text)
    (reads : Reads spelled item) {items : List Json} {text : List Char}
    (separated : Separated spelled items text) (rest : List Char) (turns : Nat)
    (enough : items.length ≤ turns) :
    readItems item turns (skipBlanks (text ++ ']' :: rest)) = .ok (items, rest) := by
  induction separated generalizing turns with
  | @last value before written after blanks first blanks' =>
    obtain ⟨turns, rfl⟩ : ∃ less, turns = less + 1 := ⟨turns - 1, by simp at enough; omega⟩
    have ended : Ends (after ++ ']' :: rest) := .of_blanks blanks' (by simp [Ends])
    simp only [List.append_assoc]
    rw [skipBlanks_append blanks, (opens _ _ first).skipBlanks_append, readItems,
      reads _ _ _ first ended]
    simp only [bind, Except.bind]
    rw [skipBlanks_append blanks', skipBlanks_cons rfl]
    rfl
  | @more value values before written after others blanks first blanks' later inductionHypothesis =>
    obtain ⟨turns, rfl⟩ : ∃ less, turns = less + 1 := ⟨turns - 1, by simp at enough; omega⟩
    have ended : Ends (after ++ ',' :: (others ++ ']' :: rest)) :=
      .of_blanks blanks' (by simp [Ends])
    simp only [List.append_assoc, List.cons_append]
    rw [skipBlanks_append blanks, (opens _ _ first).skipBlanks_append, readItems,
      reads _ _ _ first ended]
    simp only [bind, Except.bind]
    rw [skipBlanks_append blanks', skipBlanks_cons rfl]
    simp only [inductionHypothesis turns (Nat.le_of_succ_le_succ enough)]
    rfl

theorem readKey_of_spelled {name written before after more : List Char}
    (named : SpelledText name written) (blanks : Blanks before) (blanks' : Blanks after)
    (solid : skipBlanks more = more) :
    readKey ('\x22' :: (written ++ '\x22' :: (before ++ ':' :: (after ++ more)))) =
      .ok (codePoints name, more) := by
  rw [readKey, readText_of_spelled named]
  simp only [bind, Except.bind]
  rw [skipBlanks_append blanks, skipBlanks_cons rfl]
  simp only [skipBlanks_append blanks', solid]
  rfl

/-- A member starts with a quote, and a loop over members goes on behind its value. -/
theorem readMembers_of_member (opens : ∀ value text, spelled value text → Opens text)
    (reads : Reads spelled item) {member : List Char × Json} {written after rest : List Char}
    (first : SpelledMember spelled member written) (ended : Ends (after ++ rest)) (turns : Nat)
    (members : List (CodePoints × Json)) :
    readMembers item (turns + 1) members (written ++ (after ++ rest)) =
      match skipBlanks (after ++ rest) with
      | '\x7d' :: rest =>
        .ok (setMember (codePoints member.1) member.2 members, rest)
      | ',' :: rest =>
        readMembers item turns (setMember (codePoints member.1) member.2 members)
          (skipBlanks rest)
      | rest => .error (.flawed .comma rest.length) := by
  obtain ⟨named, blanks, blanks', valued⟩ := first
  simp only [List.append_assoc, List.cons_append]
  rw [readMembers, readKey_of_spelled named blanks blanks'
    ((opens _ _ valued).skipBlanks_append _)]
  simp only [bind, Except.bind]
  rw [reads _ _ _ valued ended]
  rfl

theorem opens_of_member {member : List Char × Json} {written : List Char}
    (first : SpelledMember spelled member written) : Opens written := by
  obtain ⟨-, -, -, -⟩ := first
  exact ⟨'\x22', _, rfl, rfl, by decide⟩

theorem readMembers_of_separated (opens : ∀ value text, spelled value text → Opens text)
    (reads : Reads spelled item) {members : List (List Char × Json)} {text : List Char}
    (separated : Separated (SpelledMember spelled) members text) (rest : List Char) (turns : Nat)
    (enough : members.length ≤ turns) (before : List (CodePoints × Json)) :
    readMembers item turns before (skipBlanks (text ++ '\x7d' :: rest)) =
      .ok (members.foldl (fun members (name, value) => setMember (codePoints name) value members)
        before, rest) := by
  induction separated generalizing turns before with
  | @last member blanksBefore written after blanks first blanks' =>
    obtain ⟨turns, rfl⟩ : ∃ less, turns = less + 1 := ⟨turns - 1, by simp at enough; omega⟩
    have ended : Ends (after ++ '\x7d' :: rest) := .of_blanks blanks' (by simp [Ends])
    simp only [List.append_assoc]
    rw [skipBlanks_append blanks, (opens_of_member first).skipBlanks_append,
      readMembers_of_member opens reads first ended, skipBlanks_append blanks',
      skipBlanks_cons rfl]
    rfl
  | @more member members blanksBefore written after others blanks first blanks' later
      inductionHypothesis =>
    obtain ⟨turns, rfl⟩ : ∃ less, turns = less + 1 := ⟨turns - 1, by simp at enough; omega⟩
    have ended : Ends (after ++ ',' :: (others ++ '\x7d' :: rest)) :=
      .of_blanks blanks' (by simp [Ends])
    simp only [List.append_assoc, List.cons_append]
    rw [skipBlanks_append blanks, (opens_of_member first).skipBlanks_append,
      readMembers_of_member opens reads first ended, skipBlanks_append blanks',
      skipBlanks_cons rfl]
    exact inductionHypothesis turns (Nat.le_of_succ_le_succ enough) _

end Loops

/-- Without the blanks before it, a list of parts starts with a value, and it is no shorter than
there are parts. -/
theorem Separated.trimmed {α : Type} {spelled : α → List Char → Prop} {items : List α}
    {text : List Char} (separated : Separated spelled items text)
    (opens : ∀ value text, spelled value text → Opens text) (rest : List Char) :
    ∃ solid, Opens solid ∧ items.length ≤ solid.length ∧
      skipBlanks (text ++ rest) = solid ++ rest := by
  have extended {written : List Char} (opened : Opens written) (more : List Char) :
      Opens (written ++ more) := by
    obtain ⟨first, others, rfl, facts⟩ := opened
    exact ⟨first, others ++ more, rfl, facts⟩
  have skipped {before written : List Char} (blanks : Blanks before) (opened : Opens written)
      (more : List Char) : skipBlanks (before ++ (written ++ more)) = written ++ more := by
    rw [skipBlanks_append blanks, opened.skipBlanks_append]
  cases separated with
  | @last item before written after blanks first blanks' =>
    have opened := opens _ _ first
    refine ⟨written ++ after, extended opened after, ?_, ?_⟩
    · obtain ⟨character, others, rfl, -⟩ := opened
      simp
    · simp only [List.append_assoc]
      exact skipped blanks opened _
  | @more item items before written after others blanks first blanks' later =>
    have opened := opens _ _ first
    refine ⟨written ++ (after ++ ',' :: others), extended opened _, ?_, ?_⟩
    · have long := later.length_le opens
      simp only [List.length_append, List.length_cons]
      omega
    · simp only [List.append_assoc]
      exact skipped blanks opened _

/-! ### Values -/

theorem valueAt_of_scalar (depth : Nat) : Reads SpelledScalar (valueAt depth) := by
  intro value text rest scalar ended
  obtain ⟨⟨first, others, rfl, -⟩, noArray, noObject⟩ := opens_of_scalar scalar
  rw [valueAt_scalar (fun more same => noArray others (by rw [(List.cons.inj same).1]))
    (fun more same => noObject others (by rw [(List.cons.inj same).1]))]
  exact readScalar_of_spelled scalar ended

theorem valueAt_of_array {depth : Nat} (reads : Reads (Spelled depth) (valueAt depth))
    {value : Json} {text : List Char} (array : SpelledArray (Spelled depth) value text)
    (rest : List Char) : valueAt (depth + 1) (text ++ rest) = .ok (value, rest) := by
  obtain ⟨listed⟩ := array
  rw [List.append_assoc, List.cons_append, List.singleton_append, valueAt_array]
  cases listed with
  | none blanks =>
    rw [skipBlanks_append blanks, skipBlanks_cons rfl]
    rfl
  | some parts =>
    have opens (value : Json) (text : List Char) (spelled : Spelled depth value text) :
        Opens text := spelled.opens
    have read := readItems_of_separated opens reads parts rest
    obtain ⟨solid, ⟨first, others, rfl, -, opening⟩, long, skipped⟩ :=
      parts.trimmed opens (']' :: rest)
    rw [skipped] at read ⊢
    split
    · rename_i same
      exact absurd (by simp [(List.cons.inj same).1]) opening
    · rw [read _ (by simp only [List.length_append, List.length_cons] at long ⊢; omega)]
      rfl

theorem valueAt_of_object {depth : Nat} (reads : Reads (Spelled depth) (valueAt depth))
    {value : Json} {text : List Char} (object : SpelledObject (Spelled depth) value text)
    (rest : List Char) : valueAt (depth + 1) (text ++ rest) = .ok (value, rest) := by
  obtain ⟨listed⟩ := object
  rw [List.append_assoc, List.cons_append, List.singleton_append, valueAt_object]
  cases listed with
  | none blanks =>
    rw [skipBlanks_append blanks, skipBlanks_cons rfl]
    rfl
  | some parts =>
    have opens (value : Json) (text : List Char) (spelled : Spelled depth value text) :
        Opens text := spelled.opens
    have read := readMembers_of_separated opens reads parts rest
    obtain ⟨solid, ⟨first, others, rfl, -, opening⟩, long, skipped⟩ :=
      parts.trimmed (fun _ _ => opens_of_member) ('\x7d' :: rest)
    rw [skipped] at read ⊢
    split
    · rename_i same
      exact absurd (by simp [(List.cons.inj same).1]) opening
    · rw [read _ (by simp only [List.length_append, List.length_cons] at long ⊢; omega)]
      rfl

/-- Every text of a value is read as the value, whatever follows that does not go on with it. -/
theorem valueAt_of_spelled (depth : Nat) : Reads (Spelled depth) (valueAt depth) := by
  induction depth with
  | zero => exact valueAt_of_scalar 0
  | succ depth inductionHypothesis =>
    rintro value text rest (scalar | array | object) ended
    · exact valueAt_of_scalar (depth + 1) value text rest scalar ended
    · exact valueAt_of_array inductionHypothesis array rest
    · exact valueAt_of_object inductionHypothesis object rest

/-- Every whole text of a value is read as the value. -/
theorem readDocument_of_written {value : Json} {text : List Char} (written : Written value text) :
    readDocument text = .ok value := by
  obtain ⟨blanks, spelled, blanks'⟩ := written
  rename_i before inner after
  have opened := spelled.opens
  have ended : Ends after := by
    rw [← List.append_nil after]
    exact .of_blanks blanks' (by simp [Ends])
  have skipped : skipBlanks (before ++ inner ++ after) = inner ++ after := by
    rw [List.append_assoc, skipBlanks_append blanks, opened.skipBlanks_append]
  have read : readValue (before ++ inner ++ after).length nestingLimit (inner ++ after) =
      .ok (value, after) := by
    rw [readValue_eq_valueAt (by simp only [List.length_append]; omega)]
    exact valueAt_of_spelled nestingLimit value inner after spelled ended
  unfold readDocument
  split
  · rename_i mark
    obtain ⟨first, others, rfl, -, opening⟩ := opened
    cases before with
    | nil => exact absurd (by simp [(List.cons.inj mark).1]) opening
    | cons blank before =>
      have known := blanks blank List.mem_cons_self
      rw [(List.cons.inj mark).1] at known
      exact absurd known (by decide)
  · rw [skipped, read]
    simp only [bind, Except.bind]
    rw [skipBlanks_blanks blanks']
    rfl

end RedirectMonitor.Json
