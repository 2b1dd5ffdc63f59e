/-
This file says what the check of the maps comes to, in terms of the answers of the file system. It
passes where the directory is there and every map is pinned in it. Where there is an answer about
every map, it names the maps that are not pinned; else it ends with the first answer that is
missing.
-/

import Mathlib.Data.List.Basic
import RedirectMonitor.MapDirectory

namespace RedirectMonitor.MapDirectory

variable {files : Files} {directory : PathName} {maps : List String}

/-! ### Maps that are not pinned -/

/-- Where there is an answer about every map, those are missing that are not pinned. -/
theorem missing_of_answered {answer : String → Bool}
    (answered : ∀ map ∈ maps, isPinned files directory map = .ok (answer map)) :
    missing files directory maps = .ok (maps.filter fun map => !answer map) := by
  induction maps with
  | nil => rfl
  | cons map rest inductionHypothesis =>
    obtain ⟨now, later⟩ := List.forall_mem_cons.mp answered
    simp only [missing, now, inductionHypothesis later, List.filter_cons]
    cases answer map <;> rfl

/-- The first map about which there is no answer ends the search. -/
theorem missing_of_unanswered {before : List String}
    (answered : ∀ earlier ∈ before, ∃ answer, isPinned files directory earlier = .ok answer)
    {map : String} {fault : FileFault} (refused : isPinned files directory map = .error fault)
    (after : List String) : missing files directory (before ++ map :: after) = .error fault := by
  induction before with
  | nil =>
    rw [List.nil_append, missing, refused]
    rfl
  | cons earlier rest inductionHypothesis =>
    obtain ⟨⟨answer, now⟩, later⟩ := List.forall_mem_cons.mp answered
    rw [List.cons_append, missing, now, inductionHypothesis later]
    rfl

/-- There is an answer about every map, or there is a first map about which there is none. -/
theorem answered_or_unanswered (files : Files) (directory : PathName) (maps : List String) :
    (∃ answer : String → Bool, ∀ map ∈ maps, isPinned files directory map = .ok (answer map)) ∨
      ∃ before map after fault, maps = before ++ map :: after ∧
        (∀ earlier ∈ before, ∃ answer, isPinned files directory earlier = .ok answer) ∧
        isPinned files directory map = .error fault := by
  induction maps with
  | nil => exact .inl ⟨fun _ => true, fun map member => absurd member List.not_mem_nil⟩
  | cons map rest inductionHypothesis =>
    cases now : isPinned files directory map with
    | error fault =>
      exact .inr ⟨[], map, rest, fault, rfl, fun _ member => absurd member List.not_mem_nil, now⟩
    | ok pinned =>
      rcases inductionHypothesis with
        ⟨answer, later⟩ | ⟨before, other, after, fault, rfl, later, none⟩
      · refine .inl ⟨Function.update answer map pinned, fun other member => ?_⟩
        by_cases same : other = map
        · rw [same, now, Function.update_self]
        · rw [Function.update_of_ne same]
          exact later other (List.mem_of_ne_of_mem same member)
      · exact .inr ⟨map :: before, other, after, fault, rfl,
          List.forall_mem_cons.mpr ⟨⟨pinned, now⟩, later⟩, none⟩

/-! ### The check -/

/-- What a check comes to, by the answers of the file system about the directory and the maps. -/
inductive ComesTo (files : Files) (directory : PathName) (maps : List String) :
    Except CheckError Unit → Prop
  | usable (found : files.isDirectory directory = .ok true)
      (pinned : ∀ map ∈ maps, isPinned files directory map = .ok true) :
      ComesTo files directory maps (.ok ())
  | notFound (absent : files.isDirectory directory = .ok false) :
      ComesTo files directory maps (.error (.unusable (.notFound directory)))
  /-- There is an answer about every map, and some are not pinned. -/
  | notPinned {answer : String → Bool} (found : files.isDirectory directory = .ok true)
      (answered : ∀ map ∈ maps, isPinned files directory map = .ok (answer map))
      (absent : ∃ map ∈ maps, answer map = false) :
      ComesTo files directory maps
        (.error (.unusable (.notPinned directory (maps.filter fun map => !answer map))))
  | noDirectoryAnswer {fault : FileFault} (refused : files.isDirectory directory = .error fault) :
      ComesTo files directory maps (.error (.unanswered fault))
  /-- There is no answer about a map, and one about each map before it. -/
  | noMapAnswer {before after : List String} {map : String} {fault : FileFault}
      (found : files.isDirectory directory = .ok true) (place : maps = before ++ map :: after)
      (answered : ∀ earlier ∈ before, ∃ answer, isPinned files directory earlier = .ok answer)
      (refused : isPinned files directory map = .error fault) :
      ComesTo files directory maps (.error (.unanswered fault))

theorem ComesTo.check_eq {result : Except CheckError Unit}
    (comes : ComesTo files directory maps result) : check files directory maps = result := by
  cases comes with
  | usable found pinned =>
    have none : maps.filter (fun _ => !true) = [] := by simp
    simp only [check, found, missing_of_answered pinned, none]
  | notFound absent => simp only [check, absent]
  | @notPinned answer found answered absent =>
    obtain ⟨map, member, unpinned⟩ := absent
    have listed : map ∈ maps.filter fun map => !answer map := by simp [member, unpinned]
    simp only [check, found, missing_of_answered answered]
    cases absent : maps.filter fun map => !answer map with
    | nil => simp [absent] at listed
    | cons first others => rfl
  | noDirectoryAnswer refused => simp only [check, refused]
  | noMapAnswer found place answered refused =>
    subst place
    simp only [check, found, missing_of_unanswered answered refused]

theorem exists_comesTo (files : Files) (directory : PathName) (maps : List String) :
    ∃ result, ComesTo files directory maps result := by
  cases found : files.isDirectory directory with
  | error fault => exact ⟨_, .noDirectoryAnswer found⟩
  | ok isThere =>
    cases isThere with
    | false => exact ⟨_, .notFound found⟩
    | true =>
      rcases answered_or_unanswered files directory maps with
        ⟨answer, answered⟩ | ⟨before, map, after, fault, place, answered, refused⟩
      · by_cases absent : ∃ map ∈ maps, answer map = false
        · exact ⟨_, .notPinned found answered absent⟩
        · refine ⟨_, .usable found fun map member => ?_⟩
          have pinned : answer map = true := by
            by_contra unpinned
            exact absent ⟨map, member, Bool.eq_false_iff.mpr unpinned⟩
          rw [answered map member, pinned]
      · exact ⟨_, .noMapAnswer found place answered refused⟩

/-- The check comes to what the answers of the file system make of it, and to nothing else. -/
theorem check_eq_iff {result : Except CheckError Unit} :
    check files directory maps = result ↔ ComesTo files directory maps result := by
  refine ⟨?_, ComesTo.check_eq⟩
  rintro rfl
  obtain ⟨result, comes⟩ := exists_comesTo files directory maps
  rwa [comes.check_eq]

end RedirectMonitor.MapDirectory
