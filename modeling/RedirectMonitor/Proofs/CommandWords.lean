/-
This file says how a switch is read that is given in one word: with two dashes, and with its value,
if it takes one, behind an equals sign. A value of this kind may look like anything, like another
switch, like a number or like nothing at all.

The content is that such a word is never taken for anything else. No spelling has an equals sign in
it, so that the first one in the word ends the spelling, and what stands behind it is the value as a
whole. A command line of such words is therefore read by giving the values to a draft one by one.
-/

import RedirectMonitor.CommandLine
import RedirectMonitor.Proofs.JsonProgress

namespace RedirectMonitor.CommandLine

open RedirectMonitor.Switch

/-! ### Switches given in one word -/

/-- The spelling of a switch with two dashes. -/
def longSpelling : Switch → Word
  | .help => "--help".toList
  | .mapDirectory => "--map-dir".toList
  | .interval => "--sec".toList
  | .targets => "--targets".toList
  | .program => "--bpftool".toList
  | .readTimeout => "--read-timeout".toList
  | .liveView => "--tui".toList
  | .debug => "--debug".toList

/-- A switch given in one word, with its value if it takes one. -/
structure Given where
  switch : Switch
  value : Option Word
  whole : value.isSome = switch.takesValue

namespace Given

/-- A switch with a value behind an equals sign. -/
def valued (switch : Switch) (value : Word) (takes : switch.takesValue = true) : Given :=
  ⟨switch, some value, takes.symm⟩

/-- A switch that takes no value. -/
def plain (switch : Switch) (takesNone : switch.takesValue = false) : Given :=
  ⟨switch, none, takesNone.symm⟩

def word (given : Given) : Word :=
  match given.value with
  | some value => longSpelling given.switch ++ '=' :: value
  | none => longSpelling given.switch

/-- What the word is read as. -/
def token (given : Given) : Token := .switch given.switch false given.value

/-- The draft after the switch took effect. -/
def take (draft : Draft) (given : Given) : Except Stop Draft :=
  match given.value with
  | some value => draft.give given.switch value
  | none => draft.turnOn given.switch

end Given

/-! ### Words -/

theorem equals_not_mem_longSpelling (switch : Switch) : '=' ∉ longSpelling switch := by
  cases switch <;> decide

theorem ofSpelling?_longSpelling (switch : Switch) :
    ofSpelling? (longSpelling switch) = some switch := by
  cases switch <;> rfl

theorem longSpelling_eq (switch : Switch) :
    ∃ first rest, longSpelling switch = '-' :: '-' :: first :: rest := by
  cases switch <;> exact ⟨_, _, rfl⟩

/-- A word with an equals sign is no spelling. -/
theorem ofSpelling?_of_mem_equals {word : Word} (member : '=' ∈ word) :
    ofSpelling? word = none := by
  have free : ∀ entry ∈ spellings, '=' ∉ entry.1 := by decide
  rw [ofSpelling?, List.find?_eq_none.mpr]
  · rfl
  · intro entry known same
    exact free entry known (eq_of_beq same ▸ member)

/-- A word is cut at its first equals sign. -/
theorem cutAtEquals?_append {spelling : Word} (free : '=' ∉ spelling) (value : Word) :
    cutAtEquals? (spelling ++ '=' :: value) = some (spelling, value) := by
  have before : ∀ character ∈ spelling, (character != '=') = true := fun character member =>
    bne_iff_ne.mpr fun same => free (same ▸ member)
  rw [cutAtEquals?, List.dropWhile_append_of_pos before, List.takeWhile_append_of_pos before]
  simp

theorem Given.classify_word (given : Given) : classify given.word = .ok given.token := by
  obtain ⟨switch, value, whole⟩ := given
  obtain ⟨first, rest, dashes⟩ := longSpelling_eq switch
  have double : isSingle (longSpelling switch) = false := by rw [dashes, isSingle]
  cases value with
  | none =>
    show classify (longSpelling switch) = .ok (.switch switch false none)
    rw [classify, ofSpelling?_longSpelling, dashes, if_neg (by simp), ← dashes, double]
  | some value =>
    show classify (longSpelling switch ++ '=' :: value) = .ok (.switch switch false (some value))
    have noSpelling : ofSpelling? (longSpelling switch ++ '=' :: value) = none :=
      ofSpelling?_of_mem_equals (by simp)
    have cut : withEquals? (longSpelling switch ++ '=' :: value) =
        some (.switch switch false (some value)) := by
      rw [withEquals?, cutAtEquals?_append (equals_not_mem_longSpelling switch)]
      simp [ofSpelling?_longSpelling, double]
    rw [classify, noSpelling, cut, dashes]
    simp

theorem Given.word_ne_endMark (given : Given) : given.word ≠ endMark := by
  obtain ⟨switch, value, whole⟩ := given
  obtain ⟨first, rest, dashes⟩ := longSpelling_eq switch
  cases value <;> simp [word, dashes, endMark]

theorem tokens_map_word (givens : List Given) :
    tokens (givens.map Given.word) = .ok (givens.map Given.token) := by
  induction givens with
  | nil => rfl
  | cons given givens inductionHypothesis =>
    rw [List.map_cons, tokens, if_neg given.word_ne_endMark, given.classify_word,
      inductionHypothesis]
    rfl

/-! ### Drafts -/

/-- The words of a command line are taken one by one, without a misuse, into a draft. -/
def Drafts (words : List Word) (draft : Draft) : Prop :=
  ∃ taken reading, tokens words = .ok taken ∧ taken.foldlM Reading.step {} = .ok reading ∧
    reading.waiting = none ∧ reading.others = [] ∧ reading.draft = draft

theorem Drafts.read_eq {words : List Word} {draft : Draft} (drafts : Drafts words draft) :
    read words = draft.check := by
  obtain ⟨taken, reading, cut, folded, done, plain, rfl⟩ := drafts
  unfold read
  rw [cut]
  show taken.foldlM Reading.step {} >>= Reading.finish = _
  rw [folded]
  show reading.finish = _
  rw [Reading.finish, done]
  exact if_pos plain

theorem mapError_eq_ok_iff {ε ε' α : Type} {result : Except ε α} {change : ε → ε'} {value : α} :
    result.mapError change = .ok value ↔ result = .ok value := by
  cases result <;> simp [Except.mapError]

theorem mapError_eq_error_iff {ε ε' α : Type} {result : Except ε α} {change : ε → ε'}
    (injective : ∀ {error other}, change error = change other → error = other) {error : ε} :
    result.mapError change = .error (change error) ↔ result = .error error := by
  cases result with
  | ok value => exact iff_of_false nofun nofun
  | error other =>
    exact ⟨fun same => congrArg _ (injective (Except.error.inj same)),
      fun same => congrArg _ (congrArg change (Except.error.inj same))⟩

theorem exists_drafts_of_read {words : List Word} {settings : Settings}
    (accepted : read words = .ok settings) : ∃ draft, Drafts words draft := by
  simp only [read, bind_eq_ok_iff] at accepted
  obtain ⟨taken, cut, reading, folded, finished⟩ := accepted
  unfold Reading.finish at finished
  split at finished
  · cases finished
  · rename_i done
    split at finished
    · rename_i plain
      exact ⟨reading.draft, taken, reading, mapError_eq_ok_iff.mp cut, folded, done, plain, rfl⟩
    · cases finished

theorem clusterOf_token {switch : Switch} {value : Option Word}
    (whole : value.isSome = switch.takesValue) :
    clusterOf switch false value = .ok ⟨[], switch, value⟩ := by
  cases value with
  | none => rfl
  | some value => exact if_pos whole.symm

/-- Where no value is waited for, a switch in one word takes effect at once. -/
theorem step_token {draft next : Draft} {given : Given} (taken : given.take draft = .ok next) :
    Reading.step { draft } given.token = .ok { draft := next } := by
  obtain ⟨switch, value, whole⟩ := given
  have complete : (switch.takesValue && value.isNone) = false := by
    rw [← whole]
    cases value <;> rfl
  show Reading.switch { draft } switch false value = _
  rw [Reading.switch, clusterOf_token whole]
  show (if (switch.takesValue && value.isNone) = true then _
    else Reading.perform { draft } [] switch value) = _
  rw [complete, if_neg Bool.false_ne_true]
  cases value with
  | none =>
    show draft.turnOn switch >>= _ = _
    rw [show draft.turnOn switch = .ok next from taken]
    rfl
  | some value =>
    show draft.give switch value >>= _ = _
    rw [show draft.give switch value = .ok next from taken]
    rfl

theorem foldlM_step_map_token {givens : List Given} {first last : Draft}
    (taken : givens.foldlM Given.take first = .ok last) :
    (givens.map Given.token).foldlM Reading.step { draft := first } = .ok { draft := last } := by
  induction givens generalizing first with
  | nil => exact Except.ok.inj taken ▸ rfl
  | cons given givens inductionHypothesis =>
    rw [List.foldlM_cons, bind_eq_ok_iff] at taken
    obtain ⟨next, now, later⟩ := taken
    rw [List.map_cons, List.foldlM_cons, step_token now]
    exact inductionHypothesis later

/-- A command line of such words is read by giving their values to an empty draft. -/
theorem drafts_map_word {givens : List Given} {draft : Draft}
    (taken : givens.foldlM Given.take {} = .ok draft) : Drafts (givens.map Given.word) draft :=
  ⟨_, _, tokens_map_word givens, foldlM_step_map_token taken, rfl, rfl, rfl⟩

end RedirectMonitor.CommandLine
