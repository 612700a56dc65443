import Mathlib.Data.List.Induction
import Shorthand.Markup.BlockNames

/-!
# Names without repetition

Names are collected one after the other, and a name that was found before adds nothing. So what
names become does not depend on how often they are repeated.
-/

namespace Shorthand.Markup.BlockNames

/-- Add names to those found before, each once. -/
def collect (found names : List String) : List String :=
  names.foldl (fun found name => if found.contains name then found else found ++ [name]) found

/-- Names are collected one after the other. -/
theorem collect_append (found names others : List String) :
    collect found (names ++ others) = collect (collect found names) others := List.foldl_append

/-- A name is collected if it has not been found before. -/
theorem collect_singleton (found : List String) (name : String) :
    collect found [name] = if name ∈ found then found else found ++ [name] := by
  simp [collect]

/-- The first of several names is collected before the others. -/
theorem collect_cons (found : List String) (name : String) (rest : List String) :
    collect found (name :: rest) =
      collect (if name ∈ found then found else found ++ [name]) rest := by
  rw [← List.singleton_append, collect_append, collect_singleton]

/-- What is collected was found before or is among the names. -/
theorem mem_collect {found names : List String} {name : String} :
    name ∈ collect found names ↔ name ∈ found ∨ name ∈ names := by
  induction names generalizing found with
  | nil => simp [collect]
  | cons first rest ih =>
    rw [collect_cons, ih, List.mem_cons]
    by_cases isFound : first ∈ found
    · rw [if_pos isFound]
      constructor
      · rintro (isOld | isNew)
        · exact .inl isOld
        · exact .inr (.inr isNew)
      · rintro (isOld | rfl | isNew)
        · exact .inl isOld
        · exact .inl isFound
        · exact .inr isNew
    · rw [if_neg isFound, List.mem_append, List.mem_singleton, or_assoc]

/-- Names that were found before add nothing. -/
theorem collect_of_subset {found names : List String} (known : ∀ name ∈ names, name ∈ found) :
    collect found names = found := by
  induction names with
  | nil => rfl
  | cons name rest ih =>
    obtain ⟨isKnown, others⟩ := List.forall_mem_cons.mp known
    rw [collect_cons, if_pos isKnown, ih others]

/-- Behind names that occur once, others are collected. -/
theorem unique_append (names others : List String) :
    unique (names ++ others) = collect (unique names) others := collect_append [] names others

/-- The names that occur once are the names. -/
@[simp] theorem mem_unique {names : List String} {name : String} :
    name ∈ unique names ↔ name ∈ names := by
  have collected : name ∈ unique names ↔ name ∈ ([] : List String) ∨ name ∈ names := mem_collect
  simpa using collected

/-- No name is collected twice. -/
theorem nodup_collect {found : List String} (distinct : found.Nodup) (names : List String) :
    (collect found names).Nodup := by
  induction names generalizing found with
  | nil => exact distinct
  | cons name rest ih =>
    rw [collect_cons]
    split
    next => exact ih distinct
    next isNew =>
      apply ih
      rw [List.nodup_append]
      refine ⟨distinct, List.pairwise_singleton _ name, ?_⟩
      rintro old isOld new isName rfl
      rw [List.mem_singleton.mp isName] at isOld
      exact isNew isOld

/-- Every name occurs once. -/
theorem nodup_unique (names : List String) : (unique names).Nodup :=
  nodup_collect List.nodup_nil names

/-- Names may be made unique before they are collected. -/
theorem collect_unique (found names : List String) :
    collect found (unique names) = collect found names := by
  induction names using List.reverseRecOn with
  | nil => rfl
  | append_singleton names last ih =>
    rw [unique_append, collect_singleton, collect_append]
    by_cases isFound : last ∈ unique names
    · have known : ∀ name ∈ [last], name ∈ collect found names := by
        rw [List.forall_mem_singleton]
        exact mem_collect.mpr (.inr (mem_unique.mp isFound))
      rw [if_pos isFound, ih, collect_of_subset known]
    · rw [if_neg isFound, collect_append, ih]

/-- Names that occur once stay as they are. -/
theorem unique_unique (names : List String) : unique (unique names) = unique names :=
  collect_unique [] names

/-- Repeated names become what single ones become. -/
theorem unique_flatMap_unique (change : String → List String) (names : List String) :
    unique ((unique names).flatMap change) = unique (names.flatMap change) := by
  induction names using List.reverseRecOn with
  | nil => rfl
  | append_singleton names last ih =>
    rw [unique_append, collect_singleton, List.flatMap_append, List.flatMap_singleton,
      unique_append]
    by_cases isFound : last ∈ unique names
    · have known : ∀ name ∈ change last, name ∈ unique (names.flatMap change) := by
        intro name member
        exact mem_unique.mpr (List.mem_flatMap.mpr ⟨last, mem_unique.mp isFound, member⟩)
      rw [if_pos isFound, ih, collect_of_subset known]
    · rw [if_neg isFound, List.flatMap_append, List.flatMap_singleton, unique_append, ih]

/-- If every name becomes the same names, up to repetition, then so do all of them. -/
theorem unique_flatMap_congr {change other : String → List String} {names : List String}
    (same : ∀ name ∈ names, unique (change name) = unique (other name)) :
    unique (names.flatMap change) = unique (names.flatMap other) := by
  induction names using List.reverseRecOn with
  | nil => rfl
  | append_singleton names last ih =>
    have before := ih fun name member => same name (List.mem_append_left [last] member)
    have atEnd := same last (List.mem_append_right names (List.mem_singleton_self last))
    rw [List.flatMap_append, List.flatMap_append, List.flatMap_singleton, List.flatMap_singleton,
      unique_append, unique_append, before, ← collect_unique, atEnd, collect_unique]

end Shorthand.Markup.BlockNames
