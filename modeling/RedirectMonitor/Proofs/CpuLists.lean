/-
This file says that the list of possible CPUs is read as it is meant. An item of a list is a number
or a range of numbers, in decimal digits with zeros in front or without; between commas there is an
item with white space around it, or white space alone, or nothing.

The content is that nothing around the digits is lost or mistaken for a part of them. Line ends are
unified and the two ends of the text are trimmed before it is cut at the commas, and neither moves a
comma nor touches an item. So the items are found in their order, the last number of each is read,
and the count is one more than the greatest CPU in the list, wherever in the list it stands.
-/

import Mathlib.Order.Bounds.Basic
import RedirectMonitor.PossibleCpus
import RedirectMonitor.Proofs.JsonScalars
import RedirectMonitor.Proofs.Utf8Bytes
import RedirectMonitor.Proofs.Words

namespace RedirectMonitor

namespace Text

/-! ### Cutting at a separator -/

theorem split_eq_splitOn (separator : Char) (text : List Char) :
    split separator text = text.splitOn separator := by
  induction text with
  | nil => rfl
  | cons character rest inductionHypothesis =>
    rw [split, inductionHypothesis, List.splitOn_cons_eq_if_modifyHead]
    split
    · rfl
    · cases pieces : rest.splitOn separator with
      | nil => exact absurd pieces (List.splitOn_ne_nil separator rest)
      | cons piece pieces => rfl

/-- What stands in front of a text without a separator in it goes to the first piece. -/
theorem splitOn_append_left {separator : Char} {before : List Char} (free : separator ∉ before)
    (text : List Char) :
    (before ++ text).splitOn separator = (text.splitOn separator).modifyHead (before ++ ·) := by
  induction before with
  | nil => exact (congrFun List.modifyHead_id _).symm
  | cons character before inductionHypothesis =>
    have different : ¬(character == separator) = true := fun same =>
      free (eq_of_beq same ▸ List.mem_cons_self)
    rw [List.cons_append, List.splitOn_cons_eq_if_modifyHead, if_neg different,
      inductionHypothesis fun member => free (List.mem_cons_of_mem _ member),
      List.modifyHead_modifyHead]
    rfl

/-- What stands behind a text without a separator in it goes to the last piece. -/
theorem splitOn_append_right {separator : Char} {after : List Char} (free : separator ∉ after)
    (text : List Char) :
    ∃ pieces piece, text.splitOn separator = pieces ++ [piece] ∧
      (text ++ after).splitOn separator = pieces ++ [piece ++ after] := by
  induction text with
  | nil => exact ⟨[], [], List.splitOn_nil separator, List.splitOn_eq_singleton free⟩
  | cons character text inductionHypothesis =>
    obtain ⟨pieces, piece, whole, longer⟩ := inductionHypothesis
    rw [List.cons_append, List.splitOn_cons_eq_if_modifyHead, List.splitOn_cons_eq_if_modifyHead,
      whole, longer]
    split
    · exact ⟨[] :: pieces, piece, rfl, rfl⟩
    · cases pieces with
      | nil => exact ⟨[], character :: piece, rfl, rfl⟩
      | cons first pieces => exact ⟨(character :: first) :: pieces, piece, rfl, rfl⟩

/-! ### White space around a text -/

theorem Blank.not_mem {text : List Char} (blank : Blank text) {character : Char}
    (solid : isBlank character = false) : character ∉ text := fun member => by
  rw [blank character member] at solid
  cases solid

theorem trim_blank_append {before : List Char} (blank : Blank before) (text : List Char) :
    trim (before ++ text) = trim text := by
  rw [trim, trim, trimWhere, trimWhere, List.dropWhile_append_of_pos blank]

theorem trim_append_blank {after : List Char} (blank : Blank after) (text : List Char) :
    trim (text ++ after) = trim text := by
  have behind : ∀ character ∈ after.reverse, isBlank character = true := fun character member =>
    blank character (List.mem_reverse.mp member)
  rw [trim, trim, trimWhere, trimWhere, List.dropWhile_append]
  split
  · rename_i empty
    rw [List.isEmpty_iff.mp empty, List.dropWhile_eq_nil_iff.mpr blank]
  · rw [List.reverse_append, List.dropWhile_append_of_pos behind]

theorem trimWhere_eq_self {blank : Char → Bool} {text : List Char}
    (solid : ∀ character ∈ text, blank character = false) : trimWhere blank text = text := by
  have whole {text : List Char} (solid : ∀ character ∈ text, blank character = false) :
      text.dropWhile blank = text := by
    cases text with
    | nil => rfl
    | cons character rest =>
      exact List.dropWhile_cons_of_neg (by simp [solid character List.mem_cons_self])
  rw [trimWhere, whole solid, whole, List.reverse_reverse]
  exact fun character member => solid character (List.mem_reverse.mp member)

/-- To trim a text takes white space from its two ends. -/
theorem exists_trim (text : List Char) :
    ∃ before after, Blank before ∧ Blank after ∧ text = before ++ trim text ++ after := by
  have leading (text : List Char) : Blank (text.takeWhile isBlank) := fun _ member =>
    List.mem_takeWhile_imp member
  refine ⟨text.takeWhile isBlank,
    ((text.dropWhile isBlank).reverse.takeWhile isBlank).reverse, leading text,
    fun character member => leading _ character (List.mem_reverse.mp member), ?_⟩
  rw [trim, trimWhere, List.append_assoc, ← List.reverse_append,
    List.takeWhile_append_dropWhile, List.reverse_reverse, List.takeWhile_append_dropWhile]

/-! ### Line ends -/

theorem unifyLineEnds_carriageReturn {rest : List Char} (other : rest.head? ≠ some '\n') :
    unifyLineEnds ('\r' :: rest) = '\n' :: unifyLineEnds rest := by
  rw [unifyLineEnds]
  rintro _ rfl
  exact other rfl

/-- Texts whose line ends are unified one by one have them unified together, unless a line end
lies across them. -/
theorem unifyLineEnds_append (text : List Char) {rest : List Char}
    (other : rest.head? ≠ some '\n') :
    unifyLineEnds (text ++ rest) = unifyLineEnds text ++ unifyLineEnds rest := by
  fun_induction unifyLineEnds text with
  | case1 => rfl
  | case2 text inductionHypothesis =>
    rw [List.cons_append, List.cons_append, unifyLineEnds, inductionHypothesis, List.cons_append]
  | case3 text single inductionHypothesis =>
    rw [List.cons_append, unifyLineEnds_carriageReturn, inductionHypothesis, List.cons_append]
    cases text with
    | nil => exact other
    | cons character text =>
      rintro ⟨rfl⟩
      exact single text rfl
  | case4 character text _ different inductionHypothesis =>
    rw [List.cons_append, unifyLineEnds, inductionHypothesis, List.cons_append]
    · exact fun _ same => absurd same different
    · exact different

theorem unifyLineEnds_append_of_not_mem {text : List Char} (free : '\r' ∉ text)
    (rest : List Char) : unifyLineEnds (text ++ rest) = text ++ unifyLineEnds rest := by
  induction text with
  | nil => rfl
  | cons character text inductionHypothesis =>
    have different : character ≠ '\r' := fun same => free (same ▸ List.mem_cons_self)
    rw [List.cons_append, unifyLineEnds,
      inductionHypothesis fun member => free (List.mem_cons_of_mem _ member), List.cons_append]
    · exact fun _ same => absurd same different
    · exact different

theorem mem_unifyLineEnds {text : List Char} {character : Char}
    (member : character ∈ unifyLineEnds text) : character ∈ text ∨ character = '\n' := by
  fun_induction unifyLineEnds text with
  | case1 => cases member
  | case2 | case3 | case4 => grind

theorem Blank.unifyLineEnds {text : List Char} (blank : Blank text) :
    Blank (unifyLineEnds text) := fun character member => by
  rcases mem_unifyLineEnds member with kept | rfl
  · exact blank character kept
  · rfl

end Text

namespace PossibleCpus

open RedirectMonitor.Text

/-! ### Lists as they are meant -/

/-- The CPUs from one number up to another. -/
structure Range where
  first : Nat
  last : Nat
  ordered : first ≤ last

/-- The CPUs in some ranges. -/
def listed (ranges : List Range) : Set Nat :=
  {cpu | ∃ range ∈ ranges, range.first ≤ cpu ∧ cpu ≤ range.last}

/-- A number in decimal digits, not too many to be read. -/
structure SpelledNumber (number : Nat) (digits : List Char) : Prop where
  areDigits : Json.AreDigits digits
  short : digits.length ≤ decimalDigitLimit
  same : Json.numberOf digits = number

instance (number : Nat) (digits : List Char) : Decidable (SpelledNumber number digits) :=
  decidable_of_iff (digits ≠ [] ∧ digits.all Char.isDigit = true ∧
      digits.length ≤ decimalDigitLimit ∧ Json.numberOf digits = number)
    ⟨fun ⟨nonempty, decimal, short, same⟩ =>
      ⟨⟨nonempty, List.all_eq_true.mp decimal⟩, short, same⟩,
      fun ⟨⟨nonempty, decimal⟩, short, same⟩ =>
        ⟨nonempty, List.all_eq_true.mpr decimal, short, same⟩⟩

/-- An item of a list: a number, or two with a dash between them. -/
inductive SpelledItem : Range → List Char → Prop
  | number {number : Nat} {digits : List Char} (spelled : SpelledNumber number digits) :
      SpelledItem ⟨number, number, le_rfl⟩ digits
  | range {low high : Nat} {first last : List Char} (ordered : low ≤ high)
      (spelled : SpelledNumber low first) (spelled' : SpelledNumber high last) :
      SpelledItem ⟨low, high, ordered⟩ (first ++ '-' :: last)

/-- What stands between two commas: white space, with an item in it or without. -/
inductive SpelledPiece : Option Range → List Char → Prop
  | empty {text : List Char} (blank : Blank text) : SpelledPiece none text
  | item {range : Range} {before item after : List Char} (blank : Blank before)
      (spelled : SpelledItem range item) (blank' : Blank after) :
      SpelledPiece (some range) (before ++ item ++ after)

/-- A list of ranges: pieces with commas between them. -/
inductive SpelledList : List Range → List Char → Prop
  | single {found : Option Range} {text : List Char} (piece : SpelledPiece found text) :
      SpelledList found.toList text
  | cons {found : Option Range} {ranges : List Range} {text rest : List Char}
      (piece : SpelledPiece found text) (later : SpelledList ranges rest) :
      SpelledList (found.toList ++ ranges) (text ++ ',' :: rest)

/-! ### Numbers and items -/

theorem plain_of_isDigit {digit : Char} (decimal : digit.isDigit = true) :
    numeralCharacter digit = digit ∧ isAsciiBlank digit = false := by
  have bounds : 48 ≤ digit.toNat ∧ digit.toNat ≤ 57 := Char.isDigit_iff_toNat.mp decimal
  refine ⟨if_pos (by omega), ?_⟩
  simp only [isAsciiBlank, Bool.or_eq_false_iff, beq_eq_false_iff_ne, Bool.and_eq_false_iff,
    decide_eq_false_iff_not]
  refine ⟨?_, by omega⟩
  rintro rfl
  cases decimal

/-- No sign and no separator is among decimal digits. -/
theorem not_mem_of_areDigits {digits : List Char} (digit : Json.AreDigits digits)
    {character : Char} (other : character.isDigit = false) : character ∉ digits := fun member => by
  rw [digit.decimal character member] at other
  cases other

theorem digitsOfBase?_digits {digits : List Char} (digit : Json.AreDigits digits) :
    digitsOfBase? 10 digits = some (digits.map Json.digitValue) := by
  obtain ⟨nonempty, decimal⟩ := digit
  fun_induction digitsOfBase? 10 digits with
  | case1 => exact absurd rfl nonempty
  | case2 character =>
    rw [Json.digitOfBase?_digit (decimal character List.mem_cons_self)]
    rfl
  | case3 =>
    exact absurd (decimal '_' (List.mem_cons_of_mem _ List.mem_cons_self)) (by decide)
  | case4 character next rest _ inductionHypothesis =>
    rw [Json.digitOfBase?_digit (decimal character List.mem_cons_self),
      inductionHypothesis (List.cons_ne_nil next rest)
        fun other member => decimal other (List.mem_cons_of_mem _ member)]
    rfl

theorem readDecimal?_of_spelled {number : Nat} {digits : List Char}
    (spelled : SpelledNumber number digits) : readDecimal? digits = some (number : Int) := by
  obtain ⟨digit, short, same⟩ := spelled
  have ascii : digits.map numeralCharacter = digits :=
    (List.map_congr_left fun character member =>
      (plain_of_isDigit (digit.decimal character member)).1).trans (List.map_id digits)
  have trimmed : trimWhere isAsciiBlank digits = digits :=
    trimWhere_eq_self fun character member =>
      (plain_of_isDigit (digit.decimal character member)).2
  have unsigned : takeSign digits = (false, digits) := by
    unfold takeSign
    split
    · exact absurd List.mem_cons_self (not_mem_of_areDigits digit (by decide))
    · exact absurd List.mem_cons_self (not_mem_of_areDigits digit (by decide))
    · rfl
  unfold readDecimal?
  rw [ascii, trimmed, unsigned]
  simp only [digitsOfBase?_digits digit, Json.valueOfDigits_map, same, List.length_map,
    Option.bind_eq_bind, Option.bind_some, guard, if_pos short]
  rfl

theorem SpelledNumber.isWord {number : Nat} {digits : List Char}
    (spelled : SpelledNumber number digits) : IsWord digits :=
  ⟨spelled.areDigits.nonempty, fun character member =>
    isBlank_of_isDigit (spelled.areDigits.decimal character member)⟩

/-- An item is a word, has no comma in it, and its last number is read. -/
theorem item_of_spelled {range : Range} {item : List Char} (spelled : SpelledItem range item) :
    IsWord item ∧ ',' ∉ item ∧ readDecimal? (itemEnd item) = some (range.last : Int) := by
  cases spelled with
  | number spelled =>
    have dash : '-' ∉ item := not_mem_of_areDigits spelled.areDigits (by decide)
    have whole : itemEnd item = item := by
      rw [itemEnd, split_eq_splitOn, List.splitOn_eq_singleton dash]
      rfl
    refine ⟨spelled.isWord, not_mem_of_areDigits spelled.areDigits (by decide), ?_⟩
    rw [whole, readDecimal?_of_spelled spelled]
  | @range low high first last _ spelled spelled' =>
    have dash : '-' ∉ first := not_mem_of_areDigits spelled.areDigits (by decide)
    have dash' : '-' ∉ last := not_mem_of_areDigits spelled'.areDigits (by decide)
    have comma : ',' ∉ first := not_mem_of_areDigits spelled.areDigits (by decide)
    have comma' : ',' ∉ last := not_mem_of_areDigits spelled'.areDigits (by decide)
    have ending : itemEnd (first ++ '-' :: last) = last := by
      rw [itemEnd, split_eq_splitOn, List.splitOn_append_cons_self_of_not_mem dash,
        List.splitOn_eq_singleton dash']
      rfl
    refine ⟨⟨by simp, spelled.isWord.solid.append ?_⟩, ?_, ?_⟩
    · rintro character (_ | ⟨_, member⟩)
      · rfl
      · exact spelled'.isWord.solid character member
    · exact List.not_mem_append comma (List.not_mem_cons_of_ne_of_not_mem (by decide) comma')
    · rw [ending, readDecimal?_of_spelled spelled']

/-! ### Lists -/

/-- The items of a list: what is left of its pieces without white space around them. -/
def items (text : List Char) : List (List Char) :=
  ((text.splitOn ',').map trim).filter (· != [])

theorem comma_not_mem_of_blank {text : List Char} (blank : Blank text) : ',' ∉ text :=
  blank.not_mem (by decide)

/-- White space in front of a list and behind it belongs to none of its items. -/
theorem items_trim (text : List Char) : items (trim text) = items text := by
  obtain ⟨before, after, blank, blank', whole⟩ := exists_trim text
  obtain ⟨pieces, piece, cut, cut'⟩ :=
    splitOn_append_right (comma_not_mem_of_blank blank') (before ++ trim text)
  rw [splitOn_append_left (comma_not_mem_of_blank blank)] at cut
  unfold items
  congr 1
  -- The first piece takes what was in front, the last what was behind, and both are trimmed.
  calc ((trim text).splitOn ',').map trim
      = (((trim text).splitOn ',').modifyHead (before ++ ·)).map trim := by
        cases (trim text).splitOn ',' with
        | nil => rfl
        | cons first pieces => rw [List.modifyHead_cons, List.map_cons, List.map_cons,
            trim_blank_append blank]
    _ = (pieces ++ [piece ++ after]).map trim := by
        rw [cut, List.map_append, List.map_append, List.map_singleton, List.map_singleton,
          trim_append_blank blank']
    _ = (text.splitOn ',').map trim := by rw [← cut', ← whole]

theorem items_append (text rest : List Char) :
    items (text ++ ',' :: rest) = items text ++ items rest := by
  unfold items
  rw [List.splitOn_append_cons_self, List.map_append, List.filter_append]

theorem items_of_not_mem {text : List Char} (free : ',' ∉ text) :
    items text = [trim text].filter (· != []) := by
  rw [items, List.splitOn_eq_singleton free, List.map_singleton]

/-- A piece has its item for its only item, whatever its line ends are. -/
theorem items_of_spelledPiece {found : Option Range} {text : List Char}
    (spelled : SpelledPiece found text) :
    List.Forall₂ SpelledItem found.toList (items (unifyLineEnds text)) := by
  cases spelled with
  | empty blank =>
    have nothing : trim (unifyLineEnds text) = [] := by
      rw [← List.append_nil (unifyLineEnds text), trim_blank_append blank.unifyLineEnds]
      rfl
    rw [items_of_not_mem (comma_not_mem_of_blank blank.unifyLineEnds), nothing]
    exact .nil
  | @item range before item after blank spelled blank' =>
    obtain ⟨isWord, comma, -⟩ := item_of_spelled spelled
    have solid (character : Char) (blank : isBlank character = true) : character ∉ item :=
      fun member => by rw [isWord.solid character member] at blank; cases blank
    have first : (item ++ after).head? ≠ some '\n' := by
      rw [List.head?_append_of_ne_nil _ isWord.ne_nil]
      exact fun same => solid '\n' (by decide) (List.mem_of_mem_head? same)
    have unified : unifyLineEnds (before ++ item ++ after) =
        unifyLineEnds before ++ item ++ unifyLineEnds after := by
      rw [List.append_assoc, unifyLineEnds_append before first,
        unifyLineEnds_append_of_not_mem (solid '\r' (by decide)), List.append_assoc]
    have trimmed : trim (unifyLineEnds before ++ item ++ unifyLineEnds after) = item :=
      Frames.trim ⟨isWord, _, _, blank.unifyLineEnds, blank'.unifyLineEnds, rfl⟩
    have free : ',' ∉ unifyLineEnds before ++ item ++ unifyLineEnds after :=
      List.not_mem_append
        (List.not_mem_append (comma_not_mem_of_blank blank.unifyLineEnds) comma)
        (comma_not_mem_of_blank blank'.unifyLineEnds)
    have kept : [item].filter (· != []) = [item] :=
      List.filter_cons_of_pos (by simpa using isWord.ne_nil)
    rw [unified, items_of_not_mem free, trimmed, kept]
    exact .cons spelled .nil

theorem items_of_spelledList {ranges : List Range} {text : List Char}
    (spelled : SpelledList ranges text) :
    List.Forall₂ SpelledItem ranges (items (unifyLineEnds text)) := by
  induction spelled with
  | single piece => exact items_of_spelledPiece piece
  | @cons found ranges text rest piece later inductionHypothesis =>
    have unified : unifyLineEnds (text ++ ',' :: rest) =
        unifyLineEnds text ++ ',' :: unifyLineEnds rest := by
      rw [unifyLineEnds_append text (by simp)]
      exact congrArg _ (unifyLineEnds_append_of_not_mem (by decide : '\r' ∉ [',']) rest)
    rw [unified, items_append]
    exact List.rel_append (items_of_spelledPiece piece) inductionHypothesis

/-- The greatest number so far after one more item. -/
def consider (greatest : Option Int) (item : List Char) : Except BadItem (Option Int) :=
  match readDecimal? (itemEnd item) with
  | some number => .ok (some (max (greatest.getD (-1)) number))
  | none => .error ⟨item⟩

theorem highest_eq (text : List Char) : highest text = (items text).foldlM consider none := by
  unfold highest items
  rw [split_eq_splitOn]
  rfl

theorem highest_of_spelled {ranges : List Range} {text : List Char}
    (spelled : List.Forall₂ SpelledItem ranges (items text)) :
    highest text = .ok ((ranges.map Range.last).max?.map Nat.cast) := by
  rw [highest_eq]
  generalize items text = found at spelled
  -- Only the first item finds no number before it, so the induction is over those after it.
  have later {ranges : List Range} {found : List (List Char)}
      (spelled : List.Forall₂ SpelledItem ranges found) (greatest : Nat) :
      found.foldlM consider (some (greatest : Int)) =
        .ok (some (((ranges.map Range.last).foldl max greatest : Nat) : Int)) := by
    induction spelled generalizing greatest with
    | nil => rfl
    | @cons range item ranges found first _ inductionHypothesis =>
      have next : consider (some (greatest : Int)) item =
          .ok (some ((max greatest range.last : Nat) : Int)) := by
        have same : max (greatest : Int) range.last = (max greatest range.last : Nat) := by omega
        rw [consider, (item_of_spelled first).2.2]
        exact congrArg (Except.ok ∘ some) same
      rw [List.foldlM_cons, next]
      exact inductionHypothesis (max greatest range.last)
  cases spelled with
  | nil => rfl
  | @cons range item ranges found first rest =>
    have begun : consider none item = .ok (some (range.last : Int)) := by
      have same : max (-1) (range.last : Int) = range.last := by omega
      rw [consider, (item_of_spelled first).2.2]
      exact congrArg (Except.ok ∘ some) same
    rw [List.foldlM_cons, begun, List.map_cons, List.max?_cons']
    exact later rest range.last

/-! ### The count -/

/-- A file of a text is read as this text. -/
theorem count_encode (path : String) (text : List Char) (reported : Option Int) :
    count path (.file (Utf8.encode text)) reported =
      countOfText path (trim (unifyLineEnds text)) reported := by
  show (Noted.lift (Utf8.decode (Utf8.encode text)) >>= fun text =>
    countOfText path (trim (unifyLineEnds text)) reported) = _
  rw [Utf8.decode_encode]
  rfl

/-- From a list that is well written the count is one more than the greatest CPU in it, and nothing
is logged. -/
theorem count_of_spelledList (path : String) {ranges : List Range} {text : List Char}
    (spelled : SpelledList ranges text) (nonempty : ranges ≠ []) (reported : Option Int) :
    ∃ greatest, IsGreatest (listed ranges) greatest ∧
      count path (.file (Utf8.encode text)) reported = ⟨[], .ok (greatest + 1)⟩ := by
  have found : List.Forall₂ SpelledItem ranges (items (trim (unifyLineEnds text))) := by
    rw [items_trim]
    exact items_of_spelledList spelled
  have read := highest_of_spelled found
  cases last : (ranges.map Range.last).max? with
  | none => exact absurd (List.map_eq_nil_iff.mp (List.max?_eq_none_iff.mp last)) nonempty
  | some greatest =>
    obtain ⟨reached, most⟩ := List.max?_eq_some_iff.mp last
    obtain ⟨range, member, rfl⟩ := List.mem_map.mp reached
    refine ⟨range.last, ⟨⟨range, member, range.ordered, le_rfl⟩, ?_⟩, ?_⟩
    · rintro cpu ⟨other, member', -, least⟩
      exact least.trans (most _ (List.mem_map_of_mem member'))
    · rw [last] at read
      rw [count_encode, countOfText, read]
      exact congrArg pure (if_pos (Int.natCast_nonneg range.last))

/-- A list out of order, with a range, with nothing between two commas and with white space. -/
def spacedList : List Char :=
  [' ', '3', '-', '1', '2', ',', ',', '\t', '7', ' ', ',', '0', '\r', '\n']

theorem count_of_spacedList :
    SpelledList [⟨3, 12, by decide⟩, ⟨7, 7, le_rfl⟩, ⟨0, 0, le_rfl⟩] spacedList ∧
      count "" (.file (Utf8.encode spacedList)) none = ⟨[], .ok 13⟩ := by
  have three : SpelledNumber 3 ['3'] := by decide
  have twelve : SpelledNumber 12 ['1', '2'] := by decide
  have seven : SpelledNumber 7 ['7'] := by decide
  have zero : SpelledNumber 0 ['0'] := by decide
  have blank (text : List Char) (checked : text.all isBlank = true) : Blank text :=
    List.all_eq_true.mp checked
  have spelled : SpelledList [⟨3, 12, by decide⟩, ⟨7, 7, le_rfl⟩, ⟨0, 0, le_rfl⟩] spacedList :=
    .cons (.item (blank [' '] rfl) (.range (by decide) three twelve) (blank [] rfl))
      (.cons (.empty (blank [] rfl))
        (.cons (.item (blank ['\t'] rfl) (.number seven) (blank [' '] rfl))
          (.single (.item (blank [] rfl) (.number zero) (blank ['\r', '\n'] rfl)))))
  obtain ⟨greatest, ⟨⟨range, member, -, least⟩, most⟩, counted⟩ :=
    count_of_spelledList "" spelled (List.cons_ne_nil _ _) none
  have reached : 12 ≤ greatest := most ⟨_, List.mem_cons_self, by decide, le_rfl⟩
  have same : greatest = 12 := by
    simp only [List.mem_cons, List.not_mem_nil, or_false] at member
    rcases member with rfl | rfl | rfl <;> simp only at least <;> omega
  rw [same] at counted
  exact ⟨spelled, counted⟩

/-! ### When the count fails -/

/-- There is nothing to be read, or a text. -/
def Source.IsText : Source → Prop
  | .unreadable => True
  | .file bytes => ∃ text, Utf8.encode text = bytes

theorem one_le_fallback {reported : Option Int} (sound : ∀ count ∈ reported, 0 ≤ count) :
    1 ≤ fallback reported := by
  unfold fallback
  split
  · omega
  · omega
  · rename_i count nonzero
    have least : 0 ≤ count := sound count rfl
    have different : count ≠ 0 := nonzero
    omega

/-- Whatever a text says, a number is found, and it is at least one unless the system itself reports
a negative one. -/
theorem countOfText_outcome (path : String) (text : List Char) (reported : Option Int) :
    ∃ cores, (countOfText path text reported).outcome = .ok cores ∧
      ((∀ count ∈ reported, 0 ≤ count) → 1 ≤ cores) := by
  unfold countOfText
  split
  · refine ⟨_, rfl, fun sound => ?_⟩
    have least := one_le_fallback sound
    split <;> omega
  · exact ⟨_, rfl, one_le_fallback⟩
  · exact ⟨_, rfl, one_le_fallback⟩

/-- A number is found where there is nothing to be read, or a text. -/
theorem count_of_isText (path : String) {source : Source} (isText : source.IsText)
    (reported : Option Int) :
    ∃ cores, (count path source reported).outcome = .ok cores ∧
      ((∀ count ∈ reported, 0 ≤ count) → 1 ≤ cores) := by
  cases source with
  | unreadable => exact ⟨_, rfl, one_le_fallback⟩
  | file bytes =>
    obtain ⟨text, rfl⟩ := isText
    rw [count_encode]
    exact countOfText_outcome path _ reported

/-- The count fails with what is wrong with the bytes. -/
theorem count_of_illFormed (path : String) {bytes : List UInt8} {cause : Utf8.IllFormed}
    (illFormed : Utf8.decode bytes = .error cause) (reported : Option Int) :
    (count path (.file bytes) reported).outcome = .error cause := by
  show (Noted.lift (Utf8.decode bytes) >>= fun text =>
    countOfText path (Text.trim (Text.unifyLineEnds text)) reported).outcome = _
  rw [illFormed]
  rfl

/-- Bytes that are no text are ill-formed. -/
theorem exists_illFormed {source : Source} (noText : ¬source.IsText) :
    ∃ bytes cause, source = .file bytes ∧ Utf8.decode bytes = .error cause := by
  cases source with
  | unreadable => exact absurd trivial noText
  | file bytes =>
    obtain ⟨cause, failed⟩ := Utf8.decode_error_iff.mpr noText
    exact ⟨bytes, cause, rfl, failed⟩

end PossibleCpus

end RedirectMonitor
