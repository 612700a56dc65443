import Mathlib.Data.List.TakeWhile

/-!
# Runs of characters

A `Run` is one or more characters of a class. A reader that takes as many characters of the
class as it finds takes exactly a run, if something else stands behind it.
-/

namespace Shorthand

/-- One or more characters of a class. -/
structure Run (test : Char → Bool) where
  text : List Char
  filled : text ≠ []
  all : ∀ c ∈ text, test c

/-- A run begins with a character of its class. -/
theorem Run.exists_cons {test : Char → Bool} (run : Run test) :
    ∃ first others, run.text = first :: others ∧ test first ∧ ∀ c ∈ others, test c := by
  obtain ⟨text, filled, all⟩ := run
  cases text with
  | nil => exact absurd rfl filled
  | cons first others => exact ⟨first, others, rfl, List.forall_mem_cons.mp all⟩

section

variable {α : Type} {test : α → Bool} {text rest : List α}

/-- What stands behind an item of another class does not matter. -/
theorem takeWhile_until {stop : α} (stops : test stop = false) (text rest : List α) :
    (text ++ stop :: rest).takeWhile test = text.takeWhile test := by
  induction text with
  | nil => simp [stops]
  | cons c text ih => rw [List.cons_append, List.takeWhile_cons, List.takeWhile_cons, ih]

/-- A run that is dropped ends at the latest at a character that stops it. -/
theorem dropWhile_until {stop : α} (stops : test stop = false) (text rest : List α) :
    (text ++ stop :: rest).dropWhile test = text.dropWhile test ++ stop :: rest := by
  induction text with
  | nil => simp [stops]
  | cons c text ih =>
    rw [List.cons_append, List.dropWhile_cons, List.dropWhile_cons, ih]
    split <;> rfl

/-- A run ends where something else stands in front. -/
theorem takeWhile_run (all : ∀ c ∈ text, test c) (ends : ∀ c ∈ rest.head?, test c = false) :
    (text ++ rest).takeWhile test = text := by
  rw [List.takeWhile_append_of_pos all]
  cases rest with
  | nil => simp
  | cons c rest => rw [List.takeWhile_cons_of_neg (by simp [ends c rfl]), List.append_nil]

/-- A whole run is dropped up to what ends it. -/
theorem dropWhile_run (all : ∀ c ∈ text, test c) (ends : ∀ c ∈ rest.head?, test c = false) :
    (text ++ rest).dropWhile test = rest := by
  rw [List.dropWhile_append_of_pos all]
  cases rest with
  | nil => rfl
  | cons c rest => rw [List.dropWhile_cons_of_neg (by simp [ends c rfl])]

/-- Lists that begin with runs of the same class are equal if their runs and rests are. -/
theorem append_eq_append_of_run {other behind : List α} (all : ∀ c ∈ text, test c)
    (allOther : ∀ c ∈ other, test c) (ends : ∀ c ∈ rest.head?, test c = false)
    (endsOther : ∀ c ∈ behind.head?, test c = false) :
    text ++ rest = other ++ behind ↔ text = other ∧ rest = behind := by
  constructor
  · intro same
    have runs := congrArg (List.takeWhile test) same
    have rests := congrArg (List.dropWhile test) same
    rw [takeWhile_run all ends, takeWhile_run allOther endsOther] at runs
    rw [dropWhile_run all ends, dropWhile_run allOther endsOther] at rests
    exact ⟨runs, rests⟩
  · rintro ⟨rfl, rfl⟩
    rfl

/-- Behind the run in front stands something else. -/
theorem head?_dropWhile_run (test : α → Bool) (list : List α) :
    ∀ c ∈ (list.dropWhile test).head?, test c = false := by
  intro c first
  have stops := List.head?_dropWhile_not test list
  rw [first] at stops
  simpa using stops

end

end Shorthand
