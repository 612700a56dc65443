import Mathlib.Data.List.Basic
import Shorthand.Text.Lines

/-!
# Words of a text

Words hold no white space and are not empty. A text of names with blanks between them has these
names as its words, but for empty ones.
-/

namespace Shorthand.Text

/-- A text without white space. -/
def IsBlankless (text : String) : Prop := ∀ c ∈ text.toList, CharClass.blank c = false

instance (text : String) : Decidable (IsBlankless text) :=
  List.decidableBAll (fun c => CharClass.blank c = false) text.toList

/-- A text has no blanks if neither piece has any. -/
@[simp] theorem isBlankless_append {first second : String} :
    IsBlankless (first ++ second) ↔ IsBlankless first ∧ IsBlankless second := by
  simp [IsBlankless, or_imp, forall_and]

/-- The pieces hold no separator. -/
theorem separator_of_mem_splitAt {separator : Char → Bool} {text piece : List Char}
    (member : piece ∈ splitAt separator text) : ∀ c ∈ piece, separator c = false := by
  induction text generalizing piece with
  | nil =>
    rw [splitAt, List.mem_singleton] at member
    simp [member]
  | cons c rest ih =>
    rw [splitAt] at member
    split at member
    · rcases List.mem_cons.mp member with rfl | later
      · simp
      · exact ih later
    · rename_i inside
      cases pieces : splitAt separator rest with
      | nil =>
        rw [pieces, pushFront, List.mem_singleton] at member
        simpa [member] using inside
      | cons first others =>
        rw [pieces, pushFront, List.mem_cons] at member
        rcases member with rfl | later
        · have isPiece : first ∈ splitAt separator rest := by
            rw [pieces]
            exact List.mem_cons_self
          exact List.forall_mem_cons.mpr ⟨by simpa using inside, ih isPiece⟩
        · apply ih
          rw [pieces]
          exact List.mem_cons_of_mem first later

/-- What holds no separator is one piece. -/
theorem splitAt_whole {separator : Char → Bool} {text : List Char}
    (inside : ∀ c ∈ text, separator c = false) : splitAt separator text = [text] := by
  induction text with
  | nil => rfl
  | cons c rest ih =>
    obtain ⟨isInside, others⟩ := List.forall_mem_cons.mp inside
    rw [splitAt, if_neg (by simp [isInside]), ih others, pushFront]

/-- The pieces on both sides of a separator. -/
theorem splitAt_append {separator : Char → Bool} (text : List Char) {stop : Char}
    (stops : separator stop) (rest : List Char) :
    splitAt separator (text ++ stop :: rest) =
      splitAt separator text ++ splitAt separator rest := by
  induction text with
  | nil => simp only [List.nil_append, splitAt, if_pos stops, List.singleton_append]
  | cons c text ih =>
    rw [List.cons_append, splitAt, splitAt, ih]
    split
    · rfl
    · cases pieces : splitAt separator text with
      | nil => exact absurd pieces (splitAt_ne_nil separator text)
      | cons first others => rfl

/-- What stands in front of a separator is a piece. -/
theorem splitAt_until {separator : Char → Bool} {text : List Char} {stop : Char}
    (inside : ∀ c ∈ text, separator c = false) (stops : separator stop) (rest : List Char) :
    splitAt separator (text ++ stop :: rest) = text :: splitAt separator rest := by
  rw [splitAt_append text stops, splitAt_whole inside, List.singleton_append]

/-- Words are not empty and hold no white space. -/
theorem mem_words {text word : String} (member : word ∈ words text) :
    word ≠ "" ∧ IsBlankless word := by
  obtain ⟨piece, isPiece, rfl⟩ := List.mem_map.mp member
  obtain ⟨inside, filled⟩ := List.mem_filter.mp isPiece
  constructor
  · rintro empty
    rw [String.ofList_eq_empty_iff] at empty
    simp [empty] at filled
  · rw [IsBlankless, String.toList_ofList]
    exact separator_of_mem_splitAt inside

/-- The words on both sides of a blank. -/
theorem words_append (first second : String) :
    words (first ++ " " ++ second) = words first ++ words second := by
  have apart : (first ++ " " ++ second).toList = first.toList ++ ' ' :: second.toList := by simp
  rw [words, apart, splitAt_append _ rfl, List.filter_append, List.map_append]
  rfl

/-- What is joined begins with the first text, and a separator stands in front of each other one. -/
theorem join_cons (separator first : String) (rest : List String) :
    join separator (first :: rest) = first ++ String.join (rest.map (separator ++ ·)) := by
  induction rest generalizing first with
  | nil => simp [join]
  | cons second rest ih =>
    have moved := ih second
    rw [join] at moved ⊢
    rw [String.intercalate_cons_cons, moved, List.map_cons, String.join_cons]
    simp only [String.append_assoc]

/-- The pieces between the blanks of names are the names. -/
theorem splitAt_join {names : List String} (blankless : ∀ name ∈ names, IsBlankless name)
    (filled : names ≠ []) :
    splitAt CharClass.blank (join " " names).toList = names.map String.toList := by
  induction names with
  | nil => exact absurd rfl filled
  | cons name rest ih =>
    obtain ⟨inside, others⟩ := List.forall_mem_cons.mp blankless
    cases rest with
    | nil => rw [join, String.intercalate_singleton, splitAt_whole inside, List.map_singleton]
    | cons second rest =>
      have apart : (join " " (name :: second :: rest)).toList =
          name.toList ++ ' ' :: (join " " (second :: rest)).toList := by
        simp [join, String.intercalate_cons_cons]
      rw [apart, splitAt_until inside rfl, ih others (List.cons_ne_nil second rest)]
      rfl

/-- The words of names with blanks between them are the names that are not empty. -/
theorem words_join {names : List String} (blankless : ∀ name ∈ names, IsBlankless name) :
    words (join " " names) = names.filter (· ≠ "") := by
  by_cases empty : names = []
  · subst empty
    rfl
  · rw [words, splitAt_join blankless empty, List.filter_map, List.map_map]
    have same : String.ofList ∘ String.toList = id := by
      funext name
      exact String.ofList_toList
    rw [same, List.map_id]
    refine List.filter_congr fun name _ => ?_
    rw [Bool.eq_iff_iff]
    simp [String.toList_eq_nil_iff]

end Shorthand.Text
