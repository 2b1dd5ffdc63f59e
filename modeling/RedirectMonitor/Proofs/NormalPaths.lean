/-
This file says that the text of a path name stands for that path name. What a text writes is in
normal form, without empty parts and single dots, and the text of a name in normal form is read as
the same root and the same parts.
-/

import RedirectMonitor.PathName
import RedirectMonitor.Proofs.CpuLists

namespace RedirectMonitor

open RedirectMonitor.Text

theorem Text.join_eq_intercalate (separator : List Char) (texts : List (List Char)) :
    join separator texts = separator.intercalate texts := by
  induction texts with
  | nil => rfl
  | cons text texts inductionHypothesis =>
    cases texts with
    | nil => simp [join]
    | cons next texts => simp [join, inductionHypothesis, List.intercalate_cons_cons]

/-- No piece of a text that is cut at a separator has the separator in it. -/
theorem Text.separator_not_mem_of_mem_split {separator : Char} {text piece : List Char}
    (member : piece ∈ split separator text) : separator ∉ piece := by
  induction text generalizing piece with
  | nil =>
    rw [List.mem_singleton.mp member]
    exact List.not_mem_nil
  | cons character rest inductionHypothesis =>
    rw [split] at member
    split at member
    · rcases List.mem_cons.mp member with rfl | later
      · exact List.not_mem_nil
      · exact inductionHypothesis later
    · rename_i different
      have other : separator ≠ character := fun same => different (beq_of_eq same.symm)
      cases pieces : split separator rest with
      | nil =>
        rw [pieces] at member
        simpa [List.mem_singleton.mp member] using other
      | cons first pieces' =>
        rw [pieces] at member inductionHypothesis
        rcases List.mem_cons.mp member with rfl | later
        · exact List.not_mem_cons_of_ne_of_not_mem other (inductionHypothesis List.mem_cons_self)
        · exact inductionHypothesis (List.mem_cons_of_mem first later)

namespace PathName

/-- The parts are names: none is empty, is a single dot or has a slash in it. -/
def IsNormal (path : PathName) : Prop :=
  ∀ part ∈ path.parts, part ≠ [] ∧ part ≠ ['.'] ∧ '/' ∉ part

instance (path : PathName) : Decidable path.IsNormal :=
  inferInstanceAs (Decidable (∀ part ∈ path.parts, _))

/-- What a text writes is in normal form. -/
theorem isNormal_ofChars (text : List Char) : (ofChars text).IsNormal := by
  intro part member
  obtain ⟨piece, kept⟩ := List.mem_filter.mp member
  simp only [bne_iff_ne, ne_eq, Bool.and_eq_true] at kept
  exact ⟨kept.1, kept.2, separator_not_mem_of_mem_split piece⟩

/-- Slashes at the front of a text make its root and add no parts. -/
theorem ofChars_slashes {text : List Char} (inside : text.head? ≠ some '/') (count : Nat) :
    ofChars (List.replicate count '/' ++ text) =
      { root := rootOf (List.replicate count '/'), parts := (ofChars text).parts } := by
  have added : (ofChars (List.replicate count '/' ++ text)).parts = (ofChars text).parts := by
    induction count with
    | zero => rfl
    | succ count inductionHypothesis => exact inductionHypothesis
  have front : (List.replicate count '/' ++ text).takeWhile (· == '/') =
      (List.replicate count '/').takeWhile (· == '/') := by
    rw [List.takeWhile_append_of_pos (by simp), List.takeWhile_eq_nil_iff.mpr, List.append_nil]
    · simp
    · intro first slash
      cases text with
      | nil => simp at first
      | cons character rest => exact inside (congrArg some (eq_of_beq slash))
  rw [← added]
  simp only [ofChars, rootOf, front]

section Parts

variable {root : PathRoot} {part : List Char} {parts : List (List Char)}
  (normal : (PathName.mk root (part :: parts)).IsNormal)
include normal

/-- Parts with slashes between them are read as these parts. -/
theorem parts_ofChars_join : (ofChars (Text.join ['/'] (part :: parts))).parts = part :: parts := by
  have pieces : split '/' (Text.join ['/'] (part :: parts)) = part :: parts := by
    rw [split_eq_splitOn, join_eq_intercalate]
    exact List.splitOn_intercalate '/' (fun part member => (normal part member).2.2)
      (List.cons_ne_nil _ _)
  show (split '/' (Text.join ['/'] (part :: parts))).filter _ = _
  rw [pieces, List.filter_eq_self]
  intro part member
  obtain ⟨nonempty, noDot, -⟩ := normal part member
  simp [nonempty, noDot]

theorem head?_join_ne_slash : (Text.join ['/'] (part :: parts)).head? ≠ some '/' := by
  obtain ⟨nonempty, -, noSlash⟩ := normal part List.mem_cons_self
  obtain ⟨first, rest, rfl⟩ := List.exists_cons_of_ne_nil nonempty
  cases parts <;> exact fun same => noSlash (Option.some.inj same ▸ List.mem_cons_self)

end Parts

/-- The text of a path name in normal form writes that path name. -/
theorem ofChars_toChars {path : PathName} (normal : path.IsNormal) :
    ofChars path.toChars = path := by
  obtain ⟨root, parts⟩ := path
  cases parts with
  | nil => cases root <;> rfl
  | cons part parts =>
    have written (count : Nat) := ofChars_slashes (head?_join_ne_slash normal) count
    rw [parts_ofChars_join normal] at written
    rw [toChars, if_neg (by simp)]
    cases root with
    | relative => exact written 0
    | slash => exact written 1
    | doubleSlash => exact written 2

end PathName

end RedirectMonitor
