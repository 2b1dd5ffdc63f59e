/-
This file cuts the columns of a text at white space. A word is a text without white space that is
not empty, and a column frames it if there is nothing but white space around it.

The content is that what was set in columns is found again: columns that frame words, with blanks
between them, have these words as their fields, whatever their widths. Numbers of every size are
words, since they are written in digits, signs, commas and points.
-/

import RedirectMonitor.Proofs.ReportRows
import RedirectMonitor.Report.Lines

namespace RedirectMonitor

namespace Text

/-! ### Words and their columns -/

/-- No white space at all. -/
def Solid (text : List Char) : Prop := ∀ character ∈ text, isBlank character = false

/-- Nothing but white space. -/
def Blank (text : List Char) : Prop := ∀ character ∈ text, isBlank character = true

/-- A text that a cut at white space leaves whole. -/
structure IsWord (word : List Char) : Prop where
  ne_nil : word ≠ []
  solid : Solid word

instance (word : List Char) : Decidable (IsWord word) :=
  decidable_of_iff (word ≠ [] ∧ word.all (fun character => !isBlank character) = true)
    ⟨fun ⟨nonempty, solid⟩ => ⟨nonempty, by simpa [Solid] using solid⟩,
      fun ⟨nonempty, solid⟩ => ⟨nonempty, by simpa [Solid] using solid⟩⟩

/-- A text is a word with white space around it. -/
structure Frames (text word : List Char) : Prop where
  isWord : IsWord word
  framed : ∃ before after, Blank before ∧ Blank after ∧ text = before ++ word ++ after

theorem blank_replicate (count : Nat) : Blank (List.replicate count ' ') := by
  intro character member
  rw [List.eq_of_mem_replicate member]
  rfl

theorem Solid.append {first second : List Char} (solid : Solid first) (solid' : Solid second) :
    Solid (first ++ second) := fun character member =>
  (List.mem_append.mp member).elim (solid character) (solid' character)

theorem IsWord.frames {word : List Char} (isWord : IsWord word) : Frames word word :=
  ⟨isWord, [], [], nofun, nofun, by simp⟩

theorem Frames.padRight {text word : List Char} (frames : Frames text word) (width : Nat) :
    Frames (padRight width text) word := by
  obtain ⟨isWord, before, after, blank, blank', rfl⟩ := frames
  refine ⟨isWord, before, after ++ List.replicate _ ' ', blank, fun character member => ?_,
    by rw [Text.padRight, List.append_assoc]⟩
  exact (List.mem_append.mp member).elim (blank' character) (blank_replicate _ character)

/-! ### Fields -/

theorem fields_cons_of_blank {character : Char} (blank : isBlank character = true)
    (rest : List Char) : fields (character :: rest) = fields rest := by
  cases rest <;> simp [fields, blank]

theorem fields_blank_append {before : List Char} (blank : Blank before) (rest : List Char) :
    fields (before ++ rest) = fields rest := by
  induction before with
  | nil => rfl
  | cons character before inductionHypothesis =>
    rw [List.cons_append, fields_cons_of_blank (blank character List.mem_cons_self)]
    exact inductionHypothesis fun other member => blank other (List.mem_cons_of_mem _ member)

/-- A word ends where white space follows it, or nothing. -/
theorem fields_word_append {word : List Char} (isWord : IsWord word) {rest : List Char}
    (ends : ∀ character, rest.head? = some character → isBlank character = true) :
    fields (word ++ rest) = word :: fields rest := by
  obtain ⟨nonempty, solid⟩ := isWord
  induction word with
  | nil => exact absurd rfl nonempty
  | cons character word inductionHypothesis =>
    have first : isBlank character = false := solid character List.mem_cons_self
    cases word with
    | nil =>
      cases rest with
      | nil => simp [fields, first]
      | cons next rest => simp [fields, first, ends next rfl]
    | cons next word =>
      have second : isBlank next = false :=
        solid next (List.mem_cons_of_mem _ List.mem_cons_self)
      have tail := inductionHypothesis (List.cons_ne_nil next word)
        fun other member => solid other (List.mem_cons_of_mem _ member)
      rw [List.cons_append] at tail
      simp [fields.eq_def (character :: next :: (word ++ rest)), first, second, tail]

theorem Frames.fields_append {text word : List Char} (frames : Frames text word)
    {rest : List Char}
    (ends : ∀ character, rest.head? = some character → isBlank character = true) :
    fields (text ++ rest) = word :: fields rest := by
  obtain ⟨isWord, before, after, blank, blank', rfl⟩ := frames
  rw [List.append_assoc, List.append_assoc, fields_blank_append blank,
    fields_word_append isWord, fields_blank_append blank']
  cases after with
  | nil => exact ends
  | cons character after =>
    rintro _ ⟨rfl⟩
    exact blank' character List.mem_cons_self

/-- The fields of columns with blanks between them are the words that they frame. -/
theorem fields_join {texts words : List (List Char)} (frame : List.Forall₂ Frames texts words) :
    fields (join [' '] texts) = words := by
  induction frame with
  | nil => rfl
  | @cons text word texts words first others inductionHypothesis =>
    cases others with
    | nil =>
      have alone : fields (text ++ []) = word :: fields [] := first.fields_append nofun
      rwa [List.append_nil] at alone
    | cons second others =>
      rw [join, List.append_assoc, first.fields_append (by rintro _ ⟨rfl⟩; rfl),
        fields_blank_append (by rintro _ (_ | ⟨_, ⟨⟩⟩); rfl), inductionHypothesis]
      exact List.cons_ne_nil _ _

theorem dropWhile_isBlank_append {before : List Char} (blank : Blank before) {word : List Char}
    (isWord : IsWord word) (after : List Char) :
    (before ++ (word ++ after)).dropWhile isBlank = word ++ after := by
  obtain ⟨nonempty, solid⟩ := isWord
  obtain ⟨character, word, rfl⟩ := List.exists_cons_of_ne_nil nonempty
  rw [List.dropWhile_append_of_pos blank, List.cons_append, List.dropWhile_cons_of_neg]
  simp [solid character List.mem_cons_self]

/-- To trim a column leaves the word that it frames. -/
theorem Frames.trim {text word : List Char} (frames : Frames text word) : trim text = word := by
  obtain ⟨isWord, before, after, blank, blank', rfl⟩ := frames
  have reversed : IsWord word.reverse :=
    ⟨by simpa using isWord.ne_nil, fun character member =>
      isWord.solid character (List.mem_reverse.mp member)⟩
  have behind : Blank after.reverse := fun character member =>
    blank' character (List.mem_reverse.mp member)
  have tail : (after.reverse ++ word.reverse).dropWhile isBlank = word.reverse := by
    simpa using dropWhile_isBlank_append behind reversed []
  rw [Text.trim, trimWhere, List.append_assoc, dropWhile_isBlank_append blank isWord,
    List.reverse_append, tail, List.reverse_reverse]

/-! ### Numbers -/

theorem isBlank_of_isDigit {character : Char} (digit : character.isDigit = true) :
    isBlank character = false := by
  have bounds : 48 ≤ character.toNat ∧ character.toNat ≤ 57 := Char.isDigit_iff_toNat.mp digit
  simp only [isBlank, Bool.or_eq_false_iff, Bool.and_eq_false_iff, decide_eq_false_iff_not,
    beq_eq_false_iff_ne]
  omega

theorem solid_digits (number : Nat) : Solid (digits number) :=
  fun _ member => isBlank_of_isDigit (isDigit_of_mem_digits member)

theorem isWord_digits (number : Nat) : IsWord (digits number) :=
  ⟨Nat.toDigits_ne_nil, solid_digits number⟩

/-- A word with a minus sign in front of it, if there is one. -/
theorem IsWord.signed {word : List Char} (isWord : IsWord word) (negative : Prop)
    [Decidable negative] : IsWord ((if negative then ['-'] else []) ++ word) := by
  refine ⟨by simp [isWord.ne_nil], Solid.append ?_ isWord.solid⟩
  split
  · rintro _ (_ | ⟨_, ⟨⟩⟩)
    rfl
  · nofun

theorem isWord_decimal (number : Int) : IsWord (decimal number) :=
  (isWord_digits number.natAbs).signed _

/-- A digit that others follow stands in front of them, with a comma if there are whole groups. -/
theorem groupThousands_cons (digit : Char) {rest : List Char} (nonempty : rest ≠ []) :
    groupThousands (digit :: rest) =
      digit :: ((if rest.length % 3 = 0 then [','] else []) ++ groupThousands rest) := by
  rw [groupThousands]
  · split <;> rfl
  · exact nonempty

theorem groupThousands_ne_nil {text : List Char} (nonempty : text ≠ []) :
    groupThousands text ≠ [] := by
  cases text with
  | nil => exact absurd rfl nonempty
  | cons digit rest =>
    by_cases empty : rest = []
    · rw [empty]
      exact List.cons_ne_nil digit []
    · rw [groupThousands_cons digit empty]
      exact List.cons_ne_nil _ _

theorem solid_groupThousands {text : List Char} (solid : Solid text) :
    Solid (groupThousands text) := by
  induction text with
  | nil => exact solid
  | cons digit rest inductionHypothesis =>
    by_cases empty : rest = []
    · rw [empty] at solid ⊢
      exact solid
    · have mark : Solid (if rest.length % 3 = 0 then [','] else []) := by
        split
        · rintro _ (_ | ⟨_, ⟨⟩⟩)
          rfl
        · nofun
      have later := inductionHypothesis fun other member =>
        solid other (List.mem_cons_of_mem _ member)
      rw [groupThousands_cons digit empty]
      rintro character (_ | ⟨_, member⟩)
      · exact solid digit List.mem_cons_self
      · exact mark.append later character member

theorem isWord_grouped (number : Int) : IsWord (grouped number) :=
  IsWord.signed ⟨groupThousands_ne_nil Nat.toDigits_ne_nil,
    solid_groupThousands (solid_digits number.natAbs)⟩ _

end Text

open RedirectMonitor.Text

theorem Binary64.isWord_fixed (places : Nat) (value : Binary64) :
    IsWord (value.fixed places) := by
  have magnitude (units : Nat) : IsWord (fixedMagnitude places units) := by
    refine ⟨by simp [fixedMagnitude], (solid_digits _).append ?_⟩
    rintro character (_ | ⟨_, member⟩)
    · rfl
    · rcases List.mem_append.mp member with zero | fraction
      · rw [List.eq_of_mem_replicate zero]
        rfl
      · exact solid_digits _ character fraction
  cases value with
  | nan => exact (by decide : IsWord "nan".toList)
  | infinite negative => exact (by decide : IsWord "inf".toList).signed _
  | finite negative significand shift => exact (magnitude _).signed _

theorem Report.isWord_dropText (row : Row) : IsWord (dropText row) := by
  rw [dropText]
  split
  · exact (by decide : IsWord Report.notApplicable)
  · exact isWord_grouped _

end RedirectMonitor
