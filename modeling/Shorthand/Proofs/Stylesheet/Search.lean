import Mathlib.Data.List.TakeWhile
import Mathlib.Data.List.Infix
import Shorthand.Stylesheet.Matching

/-!
# Looking for characters

The characters of an abbreviation are looked for one behind the other, each at the first place that
is left for it. Nothing is missed by that: all of them are found exactly if they are a subsequence
of the name.
-/

namespace Shorthand.Stylesheet.Tally

/-! ### The first place of a character -/

section

variable {wanted : Char} {passed name : List Char}

/-- Without the character that is looked for, everything is passed over. -/
theorem dropWhile_missing (missing : wanted ∉ name) : name.dropWhile (· != wanted) = [] := by
  rw [List.dropWhile_eq_nil_iff]
  intro c member
  rw [bne_iff_ne]
  rintro rfl
  exact missing member

/-- What stands in front of the first place of a character is passed over, and the character is
next. -/
theorem splitWhile_found (inFront : wanted ∉ passed) (rest : List Char) :
    (passed ++ wanted :: rest).takeWhile (· != wanted) = passed ∧
      (passed ++ wanted :: rest).dropWhile (· != wanted) = wanted :: rest := by
  have all : ∀ c ∈ passed, (c != wanted) = true := by
    intro c member
    rw [bne_iff_ne]
    rintro rfl
    exact inFront member
  rw [List.takeWhile_append_of_pos all, List.dropWhile_append_of_pos all]
  simp

end

/-! ### Looking for one character after the other -/

/-- A character is missing, or it is found behind others that are passed over. What holds of the
rest of the name and the further characters may be used. -/
@[elab_as_elim]
theorem search_induction {motive : List Char → List Char → Prop}
    (nil : ∀ name, motive [] name)
    (missing : ∀ wanted more name, wanted ∉ name → motive (wanted :: more) name)
    (found : ∀ wanted more passed rest, wanted ∉ passed → motive more rest →
      motive (wanted :: more) (passed ++ wanted :: rest))
    (abbreviation name : List Char) : motive abbreviation name := by
  induction abbreviation generalizing name with
  | nil => exact nil name
  | cons wanted more ih =>
    by_cases isThere : wanted ∈ name
    · obtain ⟨passed, rest, rfl, inFront⟩ := List.eq_append_cons_of_mem isThere
      exact found wanted more passed rest inFront (ih rest)
    · exact missing wanted more name isThere

section

variable {wanted : Char} {more passed rest name : List Char}

/-- A character that is missing is not found. -/
theorem findChar_missing {isAcronym : Bool} (missing : wanted ∉ name) :
    findChar wanted isAcronym name = none := by
  induction name generalizing isAcronym with
  | nil => rfl
  | cons c others ih =>
    rw [List.mem_cons, not_or] at missing
    rw [findChar, if_neg (Ne.symm missing.1), ih missing.2]

/-- A character counts double directly behind a dash that is passed over. -/
theorem findChar_found {isAcronym : Bool} (inFront : wanted ∉ passed) :
    findChar wanted isAcronym (passed ++ wanted :: rest) =
      some ((if passed.getLast?.elim isAcronym (· == '-') then 2 else 1) * (rest.length + 1),
        rest) := by
  induction passed generalizing isAcronym with
  | nil => rw [List.nil_append, findChar, if_pos rfl]; rfl
  | cons c others ih =>
    rw [List.mem_cons, not_or] at inFront
    rw [List.cons_append, findChar, if_neg (Ne.symm inFront.1), ih inFront.2, List.getLast?_cons]
    cases others.getLast? <;> rfl

/-- Where the first character is missing nothing is found. -/
theorem findChars_missing (missing : wanted ∉ name) : findChars (wanted :: more) name = (0, 0) := by
  rw [findChars, findChar_missing missing]

/-- A character that is found has the points of its place, twice behind a dash. -/
theorem findChars_found (inFront : wanted ∉ passed) :
    findChars (wanted :: more) (passed ++ wanted :: rest) =
      ((if passed.getLast? = some '-' then 2 else 1) * (rest.length + 1) + (findChars more rest).1,
        (findChars more rest).2 + 1) := by
  have sameTest :
      (passed.getLast?.elim false (· == '-')) = decide (passed.getLast? = some '-') := by
    cases passed.getLast? with
    | none => rfl
    | some last => simp [Bool.beq_eq_decide_eq]
  rw [findChars, findChar_found inFront, sameTest]
  simp

/-- What begins with a character is a subsequence exactly if the rest of it is one behind the first
place of the character. -/
theorem sublist_found_iff (inFront : wanted ∉ passed) :
    (wanted :: more).Sublist (passed ++ wanted :: rest) ↔ more.Sublist rest := by
  induction passed with
  | nil => exact List.cons_sublist_cons
  | cons c others ih =>
    rw [List.mem_cons, not_or] at inFront
    rw [← ih inFront.2, List.cons_append]
    constructor
    · intro within
      cases within with
      | cons _ behind => exact behind
      | cons_cons _ _ => exact absurd rfl inFront.1
    · exact List.Sublist.cons c

end

/-- All characters are found exactly if they are a subsequence of the name. -/
theorem findChars_all_iff (abbreviation name : List Char) :
    (findChars abbreviation name).2 = abbreviation.length ↔ abbreviation.Sublist name := by
  induction abbreviation, name using search_induction with
  | nil name => simp [findChars]
  | missing wanted more name missing =>
    rw [findChars_missing missing]
    constructor
    · intro all
      cases all
    · intro within
      exact absurd (within.subset List.mem_cons_self) missing
  | found wanted more passed rest inFront ih =>
    rw [findChars_found inFront, sublist_found_iff inFront, ← ih, List.length_cons,
      Nat.add_right_cancel_iff]

/-- No more characters are found than are wanted. -/
theorem findChars_le (abbreviation name : List Char) :
    (findChars abbreviation name).2 ≤ abbreviation.length := by
  induction abbreviation, name using search_induction with
  | nil name => simp [findChars]
  | missing wanted more name missing => simp [findChars_missing missing]
  | found wanted more passed rest inFront ih => simpa [findChars_found inFront] using ih

end Shorthand.Stylesheet.Tally
