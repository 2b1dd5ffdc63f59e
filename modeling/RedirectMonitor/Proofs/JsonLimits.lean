/-
This file says where the reader of JSON text stops at one of its two limits. A loop over items or
members stops at a limit just where one of the values that are due in it does, and so does the
reader of values, by induction on how deep containers may still nest.

The content is that a text exceeds a limit just where a value is due, everything before it having
been read, and either an integer of too many digits stands there or a bracket opens one container
too many. No limit is looked at anywhere else: a numeral with a fraction or an exponent, a text
and a key may be of any length.
-/

import RedirectMonitor.Proofs.JsonProgress

namespace RedirectMonitor.Json

open RedirectMonitor.Text

variable {item : List Char → Except Stop (Reading Json)}

/-! ### Places where a value is due -/

/-- A stop at a limit, not at a flaw. -/
def Stop.AtLimit : Stop → Prop
  | .flawed _ _ => False
  | .tooManyDigits _ | .tooDeep _ => True

/-- An item of an array is due at a place if all items before it, with their commas, were read. -/
inductive ItemDue (item : List Char → Except Stop (Reading Json)) : List Char → List Char → Prop
  | first (text : List Char) : ItemDue item text text
  | next {text rest after here : List Char} {value : Json} (read : item text = .ok (value, rest))
      (comma : skipBlanks rest = ',' :: after) (later : ItemDue item (skipBlanks after) here) :
      ItemDue item text here

/-- The value of a member is due at a place if its key and all members before it were read. -/
inductive MemberDue (item : List Char → Except Stop (Reading Json)) :
    List Char → List Char → Prop
  | first {text here : List Char} {name : CodePoints} (key : readKey text = .ok (name, here)) :
      MemberDue item text here
  | next {text afterKey rest after here : List Char} {name : CodePoints} {value : Json}
      (key : readKey text = .ok (name, afterKey)) (read : item afterKey = .ok (value, rest))
      (comma : skipBlanks rest = ',' :: after) (later : MemberDue item (skipBlanks after) here) :
      MemberDue item text here

/-- Past an item that was read, a loop can only stop after a comma. -/
theorem stops_iff_of_item_read {stop : Stop} {text rest : List Char} {value : Json}
    (read : item text = .ok (value, rest)) :
    (∃ here, ItemDue item text here ∧ item here = .error stop) ↔
      ∃ after, skipBlanks rest = ',' :: after ∧
        ∃ here, ItemDue item (skipBlanks after) here ∧ item here = .error stop := by
  constructor
  · rintro ⟨here, due, stopped⟩
    cases due with
    | first => cases read.symm.trans stopped
    | @next _ _ after _ _ read' comma later =>
      obtain ⟨-, rfl⟩ := Prod.mk.inj (Except.ok.inj (read.symm.trans read'))
      exact ⟨after, comma, here, later, stopped⟩
  · rintro ⟨after, comma, here, later, stopped⟩
    exact ⟨here, .next read comma later, stopped⟩

/-- A loop over items stops at a limit just where one of its items does. -/
theorem readItems_atLimit_iff (consumes : Consumes item) {stop : Stop} (limit : stop.AtLimit)
    (turns : Nat) (text : List Char) (enough : text.length < turns) :
    readItems item turns text = .error stop ↔
      ∃ here, ItemDue item text here ∧ item here = .error stop := by
  induction turns generalizing text with
  | zero => omega
  | succ turns inductionHypothesis =>
    rw [readItems]
    simp only [bind, Except.bind]
    cases read : item text with
    | error stop' =>
      rw [Except.error.injEq]
      constructor
      · rintro rfl
        exact ⟨text, .first text, read⟩
      · rintro ⟨here, due, stopped⟩
        cases due with
        | first => exact Except.error.inj (read.symm.trans stopped)
        | next read' => cases read.symm.trans read'
    | ok value =>
      obtain ⟨value, rest⟩ := value
      have shorter := consumes text value rest read
      have blanks := length_skipBlanks_le rest
      rw [stops_iff_of_item_read read]
      dsimp only
      split
      · rename_i after closing
        refine iff_of_false (fun stopped => by cases stopped) ?_
        rintro ⟨after', comma, -⟩
        cases closing.symm.trans comma
      · rename_i after comma
        have blanks' := length_skipBlanks_le after
        rw [comma, List.length_cons] at blanks
        have later := inductionHypothesis (skipBlanks after) (by omega)
        constructor
        · intro stopped
          refine ⟨after, comma, later.mp ?_⟩
          cases result : readItems item turns (skipBlanks after) with
          | error stop' =>
            rw [result] at stopped
            exact stopped
          | ok values =>
            rw [result] at stopped
            cases stopped
        · rintro ⟨after', comma', stopped⟩
          obtain ⟨-, rfl⟩ := List.cons.inj (comma.symm.trans comma')
          rw [later.mpr stopped]
      · rename_i notComma
        refine iff_of_false (fun stopped => ?_) ?_
        · obtain rfl := Except.error.inj stopped
          exact limit
        · rintro ⟨after, comma, -⟩
          exact notComma after comma

theorem readKey_flawed {text : List Char} {stop : Stop} (stopped : readKey text = .error stop) :
    ¬ stop.AtLimit := by
  unfold readKey at stopped
  split at stopped
  · rename_i after
    cases read : readText ('\x22' :: after) after with
    | error stop' =>
      obtain ⟨flaw, left, rfl⟩ := readText_flawed read
      rw [read] at stopped
      cases stopped
      exact id
    | ok value =>
      rw [read] at stopped
      simp only [bind, Except.bind] at stopped
      split at stopped
      · cases stopped
      · cases stopped
        exact id
  · cases stopped
    exact id

/-- Past a member that was read, a loop can only stop after a comma. -/
theorem stops_iff_of_member_read {stop : Stop} {text afterKey rest : List Char}
    {name : CodePoints} {value : Json} (key : readKey text = .ok (name, afterKey))
    (read : item afterKey = .ok (value, rest)) :
    (∃ here, MemberDue item text here ∧ item here = .error stop) ↔
      ∃ after, skipBlanks rest = ',' :: after ∧
        ∃ here, MemberDue item (skipBlanks after) here ∧ item here = .error stop := by
  constructor
  · rintro ⟨here, due, stopped⟩
    cases due with
    | first key' =>
      obtain ⟨-, rfl⟩ := Prod.mk.inj (Except.ok.inj (key.symm.trans key'))
      cases read.symm.trans stopped
    | @next _ _ _ after _ _ _ key' read' comma later =>
      obtain ⟨-, rfl⟩ := Prod.mk.inj (Except.ok.inj (key.symm.trans key'))
      obtain ⟨-, rfl⟩ := Prod.mk.inj (Except.ok.inj (read.symm.trans read'))
      exact ⟨after, comma, here, later, stopped⟩
  · rintro ⟨after, comma, here, later, stopped⟩
    exact ⟨here, .next key read comma later, stopped⟩

/-- A loop over members stops at a limit just where one of their values does. -/
theorem readMembers_atLimit_iff (consumes : Consumes item) {stop : Stop} (limit : stop.AtLimit)
    (turns : Nat) (members : List (CodePoints × Json)) (text : List Char)
    (enough : text.length < turns) :
    readMembers item turns members text = .error stop ↔
      ∃ here, MemberDue item text here ∧ item here = .error stop := by
  induction turns generalizing members text with
  | zero => omega
  | succ turns inductionHypothesis =>
    rw [readMembers]
    simp only [bind, Except.bind]
    cases key : readKey text with
    | error stop' =>
      have flawed := readKey_flawed key
      refine iff_of_false (fun stopped => ?_) ?_
      · obtain rfl := Except.error.inj stopped
        exact flawed limit
      · rintro ⟨here, due, -⟩
        cases due with
        | first key' => cases key.symm.trans key'
        | next key' => cases key.symm.trans key'
    | ok name =>
      obtain ⟨name, afterKey⟩ := name
      have shorter := readKey_consumes text name afterKey key
      dsimp only
      cases read : item afterKey with
      | error stop' =>
        rw [Except.error.injEq]
        constructor
        · rintro rfl
          exact ⟨afterKey, .first key, read⟩
        · rintro ⟨here, due, stopped⟩
          cases due with
          | first key' =>
            obtain ⟨-, rfl⟩ := Prod.mk.inj (Except.ok.inj (key.symm.trans key'))
            exact Except.error.inj (read.symm.trans stopped)
          | next key' read' =>
            obtain ⟨-, rfl⟩ := Prod.mk.inj (Except.ok.inj (key.symm.trans key'))
            cases read.symm.trans read'
      | ok value =>
        obtain ⟨value, rest⟩ := value
        have shorter' := consumes afterKey value rest read
        have blanks := length_skipBlanks_le rest
        rw [stops_iff_of_member_read key read]
        dsimp only
        split
        · rename_i after closing
          refine iff_of_false (fun stopped => by cases stopped) ?_
          rintro ⟨after', comma, -⟩
          cases closing.symm.trans comma
        · rename_i after comma
          have blanks' := length_skipBlanks_le after
          rw [comma, List.length_cons] at blanks
          rw [inductionHypothesis _ (skipBlanks after) (by omega)]
          constructor
          · exact fun stopped => ⟨after, comma, stopped⟩
          · rintro ⟨after', comma', stopped⟩
            obtain ⟨-, rfl⟩ := List.cons.inj (comma.symm.trans comma')
            exact stopped
        · rename_i notComma
          refine iff_of_false (fun stopped => ?_) ?_
          · obtain rfl := Except.error.inj stopped
            exact limit
          · rintro ⟨after, comma, -⟩
            exact notComma after comma

/-- A text exceeds a limit at a place where a value is due, everything before it having been read:
an integer of too many digits stands there, or a container that nests too deep. -/
inductive Exceeds : (depth : Nat) → List Char → Stop → Prop
  | digits {depth count : Nat} {text : List Char} (long : LongInteger count text) :
      Exceeds depth text (.tooManyDigits count)
  | array (rest : List Char) : Exceeds 0 ('[' :: rest) (.tooDeep .array)
  | object (rest : List Char) : Exceeds 0 ('\x7b' :: rest) (.tooDeep .object)
  | item {depth : Nat} {rest here : List Char} {stop : Stop}
      (due : ItemDue (valueAt depth) (skipBlanks rest) here) (later : Exceeds depth here stop) :
      Exceeds (depth + 1) ('[' :: rest) stop
  | member {depth : Nat} {rest here : List Char} {stop : Stop}
      (due : MemberDue (valueAt depth) (skipBlanks rest) here) (later : Exceeds depth here stop) :
      Exceeds (depth + 1) ('\x7b' :: rest) stop

theorem readScalar_atLimit_iff {stop : Stop} (limit : stop.AtLimit) (text : List Char) :
    readScalar text = .error stop ↔
      ∃ count, LongInteger count text ∧ stop = .tooManyDigits count := by
  simp only [longInteger_iff]
  rcases readScalar_cases text with ⟨flaw, left, stopped, short⟩ | ⟨stopped, long⟩ |
    ⟨value, rest, read, -, short⟩
  · rw [stopped]
    refine iff_of_false (fun same => ?_) ?_
    · obtain rfl := Except.error.inj same
      exact limit
    · rintro ⟨count, ⟨long, -⟩, -⟩
      exact short long
  · rw [stopped]
    constructor
    · intro same
      exact ⟨_, ⟨long, rfl⟩, (Except.error.inj same).symm⟩
    · rintro ⟨count, ⟨-, rfl⟩, rfl⟩
      rfl
  · rw [read]
    refine iff_of_false (fun same => by cases same) ?_
    rintro ⟨count, ⟨long, -⟩, -⟩
    exact short long

/-- What does not open a container exceeds a limit only as an integer of too many digits. -/
theorem exceeds_iff_of_scalar {depth : Nat} {text : List Char} {stop : Stop}
    (noArray : ∀ rest, text ≠ '[' :: rest) (noObject : ∀ rest, text ≠ '\x7b' :: rest) :
    Exceeds depth text stop ↔ ∃ count, LongInteger count text ∧ stop = .tooManyDigits count := by
  constructor
  · intro exceeds
    cases exceeds with
    | digits long => exact ⟨_, long, rfl⟩
    | array rest => exact absurd rfl (noArray rest)
    | object rest => exact absurd rfl (noObject rest)
    | item => exact absurd rfl (noArray _)
    | member => exact absurd rfl (noObject _)
  · rintro ⟨count, long, rfl⟩
    exact .digits long

theorem valueAt_scalar {depth : Nat} {text : List Char} (noArray : ∀ rest, text ≠ '[' :: rest)
    (noObject : ∀ rest, text ≠ '\x7b' :: rest) : valueAt depth text = readScalar text := by
  unfold valueAt
  cases depth <;>
  · unfold readValue
    split
    · exact absurd rfl (noArray _)
    · exact absurd rfl (noObject _)
    · rfl

theorem valueAt_closing (depth : Nat) (after : List Char) :
    valueAt depth (']' :: after) = .error (.flawed .value (after.length + 1)) := by
  rw [valueAt_scalar (fun _ => by simp) (fun _ => by simp)]
  rfl

theorem map_eq_error_iff {α β : Type} {change : α → β} {result : Except Stop α} {stop : Stop} :
    result.map change = .error stop ↔ result = .error stop := by
  cases result with
  | error stop' => simp [Except.map]
  | ok value => simp [Except.map]

/-- A container that is opened below the limit exceeds it where the loop over its items does. -/
theorem exceeds_array_iff {depth : Nat} {stop : Stop} (limit : stop.AtLimit)
    (values : ∀ text, valueAt depth text = .error stop ↔ Exceeds depth text stop)
    (rest : List Char) :
    Exceeds (depth + 1) ('[' :: rest) stop ↔
      readItems (valueAt depth) ((skipBlanks rest).length + 1) (skipBlanks rest) = .error stop := by
  rw [readItems_atLimit_iff (valueAt_consumes depth) limit _ _ (Nat.lt_succ_self _)]
  constructor
  · intro exceeds
    cases exceeds with
    | digits long => exact absurd long (not_longInteger_of_nil rfl)
    | @item _ _ here _ due later => exact ⟨here, due, (values here).mpr later⟩
  · rintro ⟨here, due, stopped⟩
    exact .item due ((values here).mp stopped)

theorem exceeds_object_iff {depth : Nat} {stop : Stop} (limit : stop.AtLimit)
    (values : ∀ text, valueAt depth text = .error stop ↔ Exceeds depth text stop)
    (rest : List Char) :
    Exceeds (depth + 1) ('\x7b' :: rest) stop ↔
      readMembers (valueAt depth) ((skipBlanks rest).length + 1) [] (skipBlanks rest) =
        .error stop := by
  rw [readMembers_atLimit_iff (valueAt_consumes depth) limit _ _ _ (Nat.lt_succ_self _)]
  constructor
  · intro exceeds
    cases exceeds with
    | digits long => exact absurd long (not_longInteger_of_nil rfl)
    | @member _ _ here _ due later => exact ⟨here, due, (values here).mpr later⟩
  · rintro ⟨here, due, stopped⟩
    exact .member due ((values here).mp stopped)

/-- The reader of values stops at a limit just where its text exceeds it. -/
theorem valueAt_atLimit_iff {stop : Stop} (limit : stop.AtLimit) (depth : Nat) (text : List Char) :
    valueAt depth text = .error stop ↔ Exceeds depth text stop := by
  induction depth generalizing text with
  | zero =>
    by_cases array : ∃ rest, text = '[' :: rest
    · obtain ⟨rest, rfl⟩ := array
      show Except.error (.tooDeep .array) = Except.error stop ↔ _
      rw [Except.error.injEq]
      constructor
      · rintro rfl
        exact .array rest
      · intro exceeds
        cases exceeds with
        | digits long => exact absurd long (not_longInteger_of_nil rfl)
        | array => rfl
    · by_cases object : ∃ rest, text = '\x7b' :: rest
      · obtain ⟨rest, rfl⟩ := object
        show Except.error (.tooDeep .object) = Except.error stop ↔ _
        rw [Except.error.injEq]
        constructor
        · rintro rfl
          exact .object rest
        · intro exceeds
          cases exceeds with
          | digits long => exact absurd long (not_longInteger_of_nil rfl)
          | object => rfl
      · rw [not_exists] at array object
        rw [valueAt_scalar array object, exceeds_iff_of_scalar array object,
          readScalar_atLimit_iff limit]
  | succ depth inductionHypothesis =>
    by_cases array : ∃ rest, text = '[' :: rest
    · obtain ⟨rest, rfl⟩ := array
      rw [valueAt_array, exceeds_array_iff limit inductionHypothesis]
      split
      · rename_i after closing
        refine iff_of_false (fun stopped => by cases stopped) fun stopped => ?_
        rw [closing, readItems, valueAt_closing] at stopped
        obtain rfl := Except.error.inj stopped
        exact limit
      · exact map_eq_error_iff
    · by_cases object : ∃ rest, text = '\x7b' :: rest
      · obtain ⟨rest, rfl⟩ := object
        rw [valueAt_object, exceeds_object_iff limit inductionHypothesis]
        split
        · rename_i after closing
          refine iff_of_false (fun stopped => by cases stopped) fun stopped => ?_
          rw [closing, readMembers] at stopped
          obtain rfl := Except.error.inj stopped
          exact limit
        · exact map_eq_error_iff
      · rw [not_exists] at array object
        rw [valueAt_scalar array object, exceeds_iff_of_scalar array object,
          readScalar_atLimit_iff limit]

/-- The reader of whole texts stops at a limit just where the text, from its first character that is
not a blank on, exceeds it. -/
theorem readDocument_atLimit_iff {stop : Stop} (limit : stop.AtLimit) (text : List Char) :
    readDocument text = .error stop ↔ Exceeds nestingLimit (skipBlanks text) stop := by
  rw [← valueAt_atLimit_iff limit]
  unfold readDocument
  split
  · rename_i after
    have mark : skipBlanks ('\ufeff' :: after) = '\ufeff' :: after := rfl
    rw [mark, valueAt_scalar (fun _ => by simp) (fun _ => by simp)]
    refine iff_of_false (fun stopped => ?_) fun stopped => ?_
    · obtain rfl := Except.error.inj stopped
      exact limit
    · obtain ⟨count, long, -⟩ := (readScalar_atLimit_iff limit _).mp stopped
      exact not_longInteger_of_nil rfl long
  · rw [readValue_eq_valueAt (length_skipBlanks_le text)]
    cases read : valueAt nestingLimit (skipBlanks text) with
    | error stop' => simp [bind, Except.bind]
    | ok value =>
      refine iff_of_false (fun stopped => ?_) fun stopped => by cases stopped
      simp only [bind, Except.bind] at stopped
      split at stopped
      · cases stopped
      · obtain rfl := Except.error.inj stopped
        exact limit

end RedirectMonitor.Json
