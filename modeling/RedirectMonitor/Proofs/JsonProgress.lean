/-
This file says that the readers of JSON text make progress. Each of them leaves less text than it
was given, so that the loops over items and members, whose turns are bounded by the length of the
whole text, never run out of turns: the bound may be left out of what a value is read as.
-/

import RedirectMonitor.Proofs.JsonNumbers

namespace RedirectMonitor

theorem bind_eq_ok_iff {ε α β : Type} {first : Except ε α} {next : α → Except ε β} {result : β} :
    first >>= next = .ok result ↔ ∃ value, first = .ok value ∧ next value = .ok result := by
  cases first with
  | error error => simp [bind, Except.bind]
  | ok value => simp [bind, Except.bind]

theorem map_eq_ok_iff {ε α β : Type} {result : Except ε α} {change : α → β} {changed : β} :
    result.map change = .ok changed ↔ ∃ value, result = .ok value ∧ change value = changed := by
  cases result with
  | error error => simp [Except.map]
  | ok value => simp [Except.map]

namespace Json

open RedirectMonitor.Text

/-! ### Readers consume -/

/-- A reader consumes if it leaves less text than it was given. -/
def Consumes {α : Type} (read : List Char → Except Stop (Reading α)) : Prop :=
  ∀ text value rest, read text = .ok (value, rest) → rest.length < text.length

theorem length_skipBlanks_le (text : List Char) : (skipBlanks text).length ≤ text.length :=
  (List.dropWhile_sublist _).length_le

theorem dropWord?_shorter {word : String} {text rest : List Char} (nonempty : 0 < word.length)
    (found : dropWord? word text = some rest) : rest.length < text.length := by
  unfold dropWord? at found
  split at found
  · rename_i starts
    obtain rfl := Option.some.inj found
    have long := (List.isPrefixOf_iff_prefix.mp starts).length_le
    rw [String.length_toList] at long
    rw [List.length_drop]
    omega
  · cases found

theorem prepend_eq_ok {code : Nat} {result : Except Stop (Reading CodePoints)}
    {codes : CodePoints} {rest : List Char} (found : prepend code result = .ok (codes, rest)) :
    ∃ later, result = .ok (later, rest) := by
  rcases result with stop | ⟨later, left⟩
  · cases found
  · obtain ⟨-, rfl⟩ := Prod.mk.inj (Except.ok.inj found)
    exact ⟨later, rfl⟩

theorem readCodes_consumes : Consumes readCodes := by
  intro text
  fun_induction readCodes text with
  | case1 | case3 | case4 | case6 | case8 | case9 => intro codes rest found; cases found
  | case2 after =>
    intro codes rest found
    obtain ⟨-, rfl⟩ := Prod.mk.inj (Except.ok.inj found)
    exact Nat.lt_succ_self _
  | case5 first second third fourth next after code _ inductionHypothesis
  | case7 letter after code _ _ _ inductionHypothesis
  | case10 character after _ _ _ _ _ _ inductionHypothesis =>
    intro codes rest found
    obtain ⟨later, shorter⟩ := prepend_eq_ok found
    have left := inductionHypothesis later rest shorter
    simp only [List.length_cons] at left ⊢
    omega

theorem readText_consumes (opening : List Char) : Consumes (readText opening) := by
  intro text codes rest found
  unfold readText at found
  cases read : readCodes text with
  | error stop =>
    rw [read] at found
    cases found
  | ok value =>
    obtain ⟨later, left⟩ := value
    rw [read] at found
    obtain ⟨-, rfl⟩ := Prod.mk.inj (Except.ok.inj found)
    exact readCodes_consumes text later left read

/-! ### Values without parts -/

/-- The words that stand for values. -/
def words : List String := ["null", "true", "false", "NaN", "Infinity", "-Infinity"]

theorem words_nonempty : ∀ word ∈ words, 0 < word.length := by decide

/-- No number starts where a word stands. -/
theorem integerPart_of_dropWord? {word : String} (known : word ∈ words) {text rest : List Char}
    (found : dropWord? word text = some rest) : (integerPart (takeMinus text).2).1 = [] := by
  unfold dropWord? at found
  split at found
  · rename_i starts
    obtain ⟨after, rfl⟩ := List.isPrefixOf_iff_prefix.mp starts
    simp only [words, List.mem_cons, List.not_mem_nil, or_false] at known
    rcases known with rfl | rfl | rfl | rfl | rfl | rfl <;> rfl
  · cases found

theorem readCodes_flawed {text : List Char} {stop : Stop} (stopped : readCodes text = .error stop) :
    ∃ flaw left, stop = .flawed flaw left := by
  fun_induction readCodes text with
  | case1 | case3 | case4 | case6 | case8 | case9 => exact ⟨_, _, (Except.error.inj stopped).symm⟩
  | case2 => cases stopped
  | case5 first second third fourth next after code _ inductionHypothesis
  | case7 letter after code _ _ _ inductionHypothesis
  | case10 character after _ _ _ _ _ _ inductionHypothesis =>
    refine inductionHypothesis ?_
    cases later : readCodes _ with
    | error stop' =>
      rw [later] at stopped
      exact stopped
    | ok value =>
      rw [later] at stopped
      cases stopped

theorem readText_flawed {opening text : List Char} {stop : Stop}
    (stopped : readText opening text = .error stop) : ∃ flaw left, stop = .flawed flaw left := by
  unfold readText at stopped
  cases read : readCodes text with
  | error stop' =>
    obtain ⟨flaw, left, rfl⟩ := readCodes_flawed read
    rw [read] at stopped
    cases stopped
    cases flaw <;> exact ⟨_, _, rfl⟩
  | ok value =>
    rw [read] at stopped
    cases stopped

/-- What reading a value without parts comes to. -/
theorem readScalar_cases (text : List Char) :
    (∃ flaw left, readScalar text = .error (.flawed flaw left) ∧ ¬ IsLong (takeMinus text).2) ∨
      (readScalar text = .error (.tooManyDigits (integerPart (takeMinus text).2).1.length) ∧
        IsLong (takeMinus text).2) ∨
      ∃ value rest, readScalar text = .ok (value, rest) ∧ rest.length < text.length ∧
        ¬ IsLong (takeMinus text).2 := by
  have word {name : String} (known : name ∈ words) {rest : List Char}
      (found : dropWord? name text = some rest) :
      rest.length < text.length ∧ ¬ IsLong (takeMinus text).2 :=
    ⟨dropWord?_shorter (words_nonempty name known) found,
      not_isLong_of_nil (integerPart_of_dropWord? known found)⟩
  unfold readScalar
  split
  · rename_i rest
    have short : ¬ IsLong (takeMinus ('\x22' :: rest)).2 := not_isLong_of_nil rfl
    cases read : readText ('\x22' :: rest) rest with
    | error stop =>
      obtain ⟨flaw, left, rfl⟩ := readText_flawed read
      exact .inl ⟨flaw, left, rfl, short⟩
    | ok value =>
      obtain ⟨codes, after⟩ := value
      have shorter := readText_consumes _ rest codes after read
      exact .inr (.inr ⟨_, after, rfl, Nat.lt_succ_of_lt shorter, short⟩)
  · split
    · exact .inr (.inr ⟨_, _, rfl, word (by decide) ‹dropWord? "null" text = _›⟩)
    · exact .inr (.inr ⟨_, _, rfl, word (by decide) ‹dropWord? "true" text = _›⟩)
    · exact .inr (.inr ⟨_, _, rfl, word (by decide) ‹dropWord? "false" text = _›⟩)
    · split
      · exact .inr (.inr ⟨_, _, rfl, word (by decide) ‹dropWord? "NaN" text = _›⟩)
      · exact .inr (.inr ⟨_, _, rfl, word (by decide) ‹dropWord? "Infinity" text = _›⟩)
      · exact .inr (.inr ⟨_, _, rfl, word (by decide) ‹dropWord? "-Infinity" text = _›⟩)
      · rcases readNumber_cases text with ⟨stopped, none⟩ | stopped | read
        · exact .inl ⟨_, _, stopped, not_isLong_of_nil none⟩
        · exact .inr (.inl stopped)
        · exact .inr (.inr read)

theorem readScalar_consumes : Consumes readScalar := by
  intro text value rest found
  rcases readScalar_cases text with ⟨flaw, left, stopped, -⟩ | ⟨stopped, -⟩ |
    ⟨value', rest', read, shorter, -⟩
  · rw [stopped] at found
    cases found
  · rw [stopped] at found
    cases found
  · rw [read] at found
    obtain ⟨-, rfl⟩ := Prod.mk.inj (Except.ok.inj found)
    exact shorter

/-! ### Loops over items and members -/

theorem readKey_consumes : Consumes readKey := by
  intro text name rest found
  unfold readKey at found
  split at found
  · rename_i after
    obtain ⟨⟨codes, left⟩, read, found⟩ := bind_eq_ok_iff.mp found
    have shorter := readText_consumes _ after codes left read
    have blanks := length_skipBlanks_le left
    dsimp only at found
    split at found
    · rename_i afterColon colon
      obtain ⟨-, rfl⟩ := Prod.mk.inj (Except.ok.inj found)
      have blanks' := length_skipBlanks_le afterColon
      rw [colon] at blanks
      simp only [List.length_cons] at blanks ⊢
      omega
    · cases found
  · cases found

variable {item other : List Char → Except Stop (Reading Json)}

theorem readItems_consumes (consumes : Consumes item) (turns : Nat) :
    Consumes (readItems item turns) := by
  induction turns with
  | zero =>
    intro text values rest found
    cases found
  | succ turns inductionHypothesis =>
    intro text values rest found
    obtain ⟨⟨value, left⟩, read, found⟩ := bind_eq_ok_iff.mp found
    have shorter := consumes text value left read
    have blanks := length_skipBlanks_le left
    dsimp only at found
    split at found
    · rename_i after closing
      obtain ⟨-, rfl⟩ := Prod.mk.inj (Except.ok.inj found)
      rw [closing, List.length_cons] at blanks
      omega
    · rename_i after comma
      obtain ⟨⟨values', left'⟩, later, found⟩ := bind_eq_ok_iff.mp found
      obtain ⟨-, rfl⟩ := Prod.mk.inj (Except.ok.inj found)
      have blanks' := length_skipBlanks_le after
      have shorter' := inductionHypothesis _ _ _ later
      rw [comma, List.length_cons] at blanks
      show left'.length < text.length
      omega
    · cases found

theorem readMembers_consumes (consumes : Consumes item) (turns : Nat)
    (members : List (CodePoints × Json)) : Consumes (readMembers item turns members) := by
  induction turns generalizing members with
  | zero =>
    intro text members' rest found
    cases found
  | succ turns inductionHypothesis =>
    intro text members' rest found
    obtain ⟨⟨name, afterKey⟩, key, found⟩ := bind_eq_ok_iff.mp found
    obtain ⟨⟨value, left⟩, read, found⟩ := bind_eq_ok_iff.mp found
    have shorter := readKey_consumes text name afterKey key
    have shorter' := consumes afterKey value left read
    have blanks := length_skipBlanks_le left
    dsimp only at found
    split at found
    · rename_i after closing
      obtain ⟨-, rfl⟩ := Prod.mk.inj (Except.ok.inj found)
      rw [closing, List.length_cons] at blanks
      omega
    · rename_i after comma
      have blanks' := length_skipBlanks_le after
      have shorter'' := inductionHypothesis _ _ _ _ found
      rw [comma, List.length_cons] at blanks
      omega
    · cases found

/-- Two readers of items that agree on every text up to a length make the same loop, whatever the
bounds on its turns, as long as these exceed the text. -/
theorem readItems_congr (consumes : Consumes item) (bound : Nat)
    (same : ∀ text, text.length ≤ bound → item text = other text) (turns turns' : Nat)
    (text : List Char) (short : text.length ≤ bound) (enough : text.length < turns)
    (enough' : text.length < turns') : readItems item turns text = readItems other turns' text := by
  induction turns generalizing turns' text with
  | zero => omega
  | succ turns inductionHypothesis =>
    obtain ⟨turns', rfl⟩ : ∃ less, turns' = less + 1 := ⟨turns' - 1, by omega⟩
    rw [readItems, readItems, ← same text short]
    cases read : item text with
    | error stop => rfl
    | ok value =>
      obtain ⟨value, left⟩ := value
      have shorter := consumes text value left read
      have blanks := length_skipBlanks_le left
      simp only [bind, Except.bind]
      split
      · rfl
      · rename_i after comma
        have blanks' := length_skipBlanks_le after
        rw [comma, List.length_cons] at blanks
        rw [inductionHypothesis turns' (skipBlanks after) (by omega) (by omega) (by omega)]
      · rfl

theorem readMembers_congr (consumes : Consumes item) (bound : Nat)
    (same : ∀ text, text.length ≤ bound → item text = other text) (turns turns' : Nat)
    (members : List (CodePoints × Json)) (text : List Char) (short : text.length ≤ bound)
    (enough : text.length < turns) (enough' : text.length < turns') :
    readMembers item turns members text = readMembers other turns' members text := by
  induction turns generalizing turns' members text with
  | zero => omega
  | succ turns inductionHypothesis =>
    obtain ⟨turns', rfl⟩ : ∃ less, turns' = less + 1 := ⟨turns' - 1, by omega⟩
    rw [readMembers, readMembers]
    cases key : readKey text with
    | error stop => rfl
    | ok name =>
      obtain ⟨name, afterKey⟩ := name
      have shorter := readKey_consumes text name afterKey key
      simp only [bind, Except.bind]
      rw [← same afterKey (by omega)]
      cases read : item afterKey with
      | error stop => rfl
      | ok value =>
        obtain ⟨value, left⟩ := value
        have shorter' := consumes afterKey value left read
        have blanks := length_skipBlanks_le left
        dsimp only
        split
        · rfl
        · rename_i after comma
          have blanks' := length_skipBlanks_le after
          rw [comma, List.length_cons] at blanks
          exact inductionHypothesis turns' _ (skipBlanks after) (by omega) (by omega) (by omega)
        · rfl

/-! ### Values -/

theorem readValue_consumes (turns depth : Nat) : Consumes (readValue turns depth) := by
  induction depth with
  | zero =>
    intro text value rest found
    unfold readValue at found
    split at found
    · cases found
    · cases found
    · exact readScalar_consumes text value rest found
  | succ depth inductionHypothesis =>
    intro text value rest found
    unfold readValue at found
    split at found
    · rename_i inside
      have blanks := length_skipBlanks_le inside
      rw [List.length_cons]
      split at found
      · rename_i after closing
        obtain ⟨-, rfl⟩ := Prod.mk.inj (Except.ok.inj found)
        rw [closing, List.length_cons] at blanks
        omega
      · obtain ⟨⟨values, left⟩, read, found⟩ := map_eq_ok_iff.mp found
        obtain ⟨-, rfl⟩ := Prod.mk.inj found
        have shorter := readItems_consumes inductionHypothesis turns _ _ _ read
        omega
    · rename_i inside
      have blanks := length_skipBlanks_le inside
      rw [List.length_cons]
      split at found
      · rename_i after closing
        obtain ⟨-, rfl⟩ := Prod.mk.inj (Except.ok.inj found)
        rw [closing, List.length_cons] at blanks
        omega
      · obtain ⟨⟨members, left⟩, read, found⟩ := map_eq_ok_iff.mp found
        obtain ⟨-, rfl⟩ := Prod.mk.inj found
        have shorter := readMembers_consumes inductionHypothesis turns [] _ _ _ read
        omega
    · exact readScalar_consumes text value rest found

/-- The bound on the turns is never what stops a reader: any bound that is not below the length of
the text gives the same. -/
theorem readValue_turns (depth turns turns' : Nat) (text : List Char)
    (enough : text.length ≤ turns) (enough' : text.length ≤ turns') :
    readValue turns depth text = readValue turns' depth text := by
  induction depth generalizing turns turns' text with
  | zero => rfl
  | succ depth inductionHypothesis =>
    unfold readValue
    split
    · rename_i inside
      have blanks := length_skipBlanks_le inside
      rw [List.length_cons] at enough enough'
      split
      · rfl
      · rw [readItems_congr (readValue_consumes turns depth) (skipBlanks inside).length
          (fun text short => inductionHypothesis turns turns' text (by omega) (by omega)) turns
          turns' (skipBlanks inside) (Nat.le_refl _) (by omega) (by omega)]
    · rename_i inside
      have blanks := length_skipBlanks_le inside
      rw [List.length_cons] at enough enough'
      split
      · rfl
      · rw [readMembers_congr (readValue_consumes turns depth) (skipBlanks inside).length
          (fun text short => inductionHypothesis turns turns' text (by omega) (by omega)) turns
          turns' [] (skipBlanks inside) (Nat.le_refl _) (by omega) (by omega)]
    · rfl

/-- A value inside at most so many further containers. -/
def valueAt (depth : Nat) (text : List Char) : Except Stop (Reading Json) :=
  readValue text.length depth text

theorem valueAt_consumes (depth : Nat) : Consumes (valueAt depth) :=
  fun text => readValue_consumes text.length depth text

theorem readValue_eq_valueAt {turns depth : Nat} {text : List Char} (enough : text.length ≤ turns) :
    readValue turns depth text = valueAt depth text :=
  readValue_turns depth turns text.length text enough (Nat.le_refl _)

theorem valueAt_array (depth : Nat) (rest : List Char) :
    valueAt (depth + 1) ('[' :: rest) =
      match skipBlanks rest with
      | ']' :: after => .ok (.array [], after)
      | inside => (readItems (valueAt depth) (inside.length + 1) inside).map fun (items, after) =>
          (.array items, after) := by
  have blanks := length_skipBlanks_le rest
  have opened : valueAt (depth + 1) ('[' :: rest) =
      match skipBlanks rest with
      | ']' :: after => .ok (.array [], after)
      | inside => (readItems (readValue (rest.length + 1) depth) (rest.length + 1) inside).map
          fun (items, after) => (.array items, after) := rfl
  rw [opened]
  split
  · rfl
  · rw [readItems_congr (readValue_consumes _ depth) rest.length
      (fun text short => readValue_eq_valueAt (by omega)) _ ((skipBlanks rest).length + 1)
      (skipBlanks rest) blanks (by omega) (by omega)]

theorem valueAt_object (depth : Nat) (rest : List Char) :
    valueAt (depth + 1) ('\x7b' :: rest) =
      match skipBlanks rest with
      | '\x7d' :: after => .ok (.object [], after)
      | inside => (readMembers (valueAt depth) (inside.length + 1) [] inside).map
          fun (members, after) => (.object members, after) := by
  have blanks := length_skipBlanks_le rest
  have opened : valueAt (depth + 1) ('\x7b' :: rest) =
      match skipBlanks rest with
      | '\x7d' :: after => .ok (.object [], after)
      | inside => (readMembers (readValue (rest.length + 1) depth) (rest.length + 1) [] inside).map
          fun (members, after) => (.object members, after) := rfl
  rw [opened]
  split
  · rfl
  · rw [readMembers_congr (readValue_consumes _ depth) rest.length
      (fun text short => readValue_eq_valueAt (by omega)) _ ((skipBlanks rest).length + 1) []
      (skipBlanks rest) blanks (by omega) (by omega)]

end Json

end RedirectMonitor
