import Shorthand.Proofs.Text.Run
import Shorthand.Proofs.Text.Words

/-!
# Edges of a text

A tidy text has something else than white space at both edges, so nothing is trimmed. Tidy texts
with blanks between them make up a tidy text.
-/

namespace Shorthand.Text

/-- A text that is not empty and has no white space at its edges. -/
structure IsTidy (text : String) : Prop where
  first : ∃ c ∈ text.toList.head?, CharClass.blank c = false
  last : ∃ c ∈ text.toList.getLast?, CharClass.blank c = false

section

variable {text name : String}

/-- A tidy text is not empty. -/
theorem IsTidy.filled (tidy : IsTidy text) : text ≠ "" := by
  rintro rfl
  obtain ⟨c, isFirst, -⟩ := tidy.first
  cases isFirst

/-- Words are tidy. -/
theorem IsTidy.of_word (filled : text ≠ "") (blankless : IsBlankless text) : IsTidy text := by
  have something : text.toList ≠ [] := by
    rwa [ne_eq, String.toList_eq_nil_iff]
  constructor
  case first =>
    exact ⟨_, List.head?_eq_some_head something, blankless _ (List.head_mem something)⟩
  case last =>
    exact ⟨_, List.getLast?_eq_some_getLast something, blankless _ (List.getLast_mem something)⟩

/-- What stands between tidy texts does not matter. -/
theorem IsTidy.around {first last : String} (isFirst : IsTidy first) (middle : String)
    (isLast : IsTidy last) : IsTidy (first ++ middle ++ last) := by
  obtain ⟨c, begins, inside⟩ := isFirst.first
  obtain ⟨d, ends, insideLast⟩ := isLast.last
  constructor
  case first =>
    refine ⟨c, ?_, inside⟩
    rw [Option.mem_def] at begins
    simp [List.head?_append, begins]
  case last =>
    refine ⟨d, ?_, insideLast⟩
    rw [Option.mem_def] at ends
    simp [List.getLast?_append, ends]

/-- A text with a word at its end is tidy exactly if what stands in front does not begin with white
space. -/
theorem isTidy_behind_iff (start : String) (filled : name ≠ "") (blankless : IsBlankless name) :
    IsTidy (start ++ name) ↔ ∀ c ∈ start.toList.head?, CharClass.blank c = false := by
  have named : IsTidy name := .of_word filled blankless
  cases begins : start.toList.head? with
  | none =>
    rw [List.head?_eq_none_iff, String.toList_eq_nil_iff] at begins
    simp [begins, named]
  | some c =>
    constructor
    · rintro tidy c ⟨⟩
      obtain ⟨d, isFirst, inside⟩ := tidy.first
      rw [String.toList_append, List.head?_append, begins, Option.some_or, Option.mem_def,
        Option.some.injEq] at isFirst
      rwa [isFirst]
    · intro inside
      constructor
      case first =>
        refine ⟨c, ?_, inside c rfl⟩
        rw [String.toList_append, List.head?_append, begins]
        rfl
      case last =>
        obtain ⟨d, ends, insideLast⟩ := named.last
        refine ⟨d, ?_, insideLast⟩
        rw [Option.mem_def] at ends
        rw [String.toList_append, List.getLast?_append, ends]
        rfl

/-- Nothing is trimmed from a tidy text. -/
theorem IsTidy.trim (tidy : IsTidy text) : Text.trim text = text := by
  have keeps {cs : List Char} (inside : ∃ c ∈ cs.head?, CharClass.blank c = false) :
      cs.dropWhile CharClass.blank = cs := by
    obtain ⟨c, isFirst, isInside⟩ := inside
    rw [Option.mem_def, List.head?_eq_some_iff] at isFirst
    obtain ⟨rest, rfl⟩ := isFirst
    rw [List.dropWhile_cons_of_neg (by simp [isInside])]
  have last : ∃ c ∈ text.toList.reverse.head?, CharClass.blank c = false := by
    rw [List.head?_reverse]
    exact tidy.last
  rw [Text.trim, keeps tidy.first, dropEndWhile, keeps last, List.reverse_reverse,
    String.ofList_toList]

end

/-- Tidy names with blanks between them have nothing to trim. -/
theorem trim_join {names : List String} (tidy : ∀ name ∈ names, IsTidy name) :
    trim (join " " names) = join " " names := by
  cases names with
  | nil => rfl
  | cons name rest =>
    suffices general : IsTidy (join " " (name :: rest)) from general.trim
    induction rest generalizing name with
    | nil =>
      rw [join, String.intercalate_singleton]
      exact tidy name List.mem_cons_self
    | cons second rest ih =>
      obtain ⟨isFirst, others⟩ := List.forall_mem_cons.mp tidy
      have joined : join " " (name :: second :: rest) = name ++ " " ++ join " " (second :: rest) :=
        String.intercalate_cons_cons
      rw [joined]
      exact isFirst.around " " (ih second others)

end Shorthand.Text
