import Mathlib.Data.Rat.Cast.Order
import Mathlib.Tactic.FieldSimp
import Mathlib.Tactic.Positivity
import Shorthand.Proofs.Stylesheet.Tally

/-!
# Scores as fractions

A score is not zero exactly if there is a match. It is below two, but not always below one: dashes
may give more points on top than fall short. In names without dashes a score is at most one, and
one only for their beginnings.
-/

namespace Shorthand.Stylesheet

/-- Scores as exact fractions. -/
def Scale.rational : Scale ℚ where
  value tally := tally.points * (tally.matched / tally.length) / tally.total
  isFull score := score = 1
  isPositive score := 0 < score
  isAtLeast score other := other ≤ score

namespace Tally

/-- The tally of an abbreviation for a name is that of their lower-case forms. -/
theorem count_eq (isPartial : Bool) (abbreviation name : String) :
    count isPartial abbreviation name =
      ofLower isPartial (LetterCase.lower abbreviation).toList (LetterCase.lower name).toList := rfl

/-- The value of a tally as one fraction. -/
theorem rational_value (tally : Tally) :
    Scale.rational.value tally =
      ((tally.points * tally.matched : Nat) : ℚ) / ((tally.length * tally.total : Nat) : ℚ) := by
  simp only [Scale.rational, Nat.cast_mul]
  rw [← mul_div_assoc, div_div]

/-- No score is below zero. -/
theorem rational_value_nonneg (tally : Tally) : 0 ≤ Scale.rational.value tally := by
  rw [rational_value]
  positivity

section

variable {tally : Tally} (positive : 0 < tally.length * tally.total)

include positive

/-- A full tally alone scores one. -/
theorem rational_value_eq_one_iff : Scale.rational.value tally = 1 ↔ tally.IsFull := by
  have nonzero : ((tally.length * tally.total : Nat) : ℚ) ≠ 0 := by exact_mod_cast positive.ne'
  rw [rational_value, div_eq_one_iff_eq nonzero, IsFull]
  exact_mod_cast Iff.rfl

/-- A score is below a bound if the points are below their share of it. -/
theorem rational_value_lt_iff (bound : Nat) :
    Scale.rational.value tally < bound ↔
      tally.points * tally.matched < bound * (tally.length * tally.total) := by
  have isPositive : (0 : ℚ) < ((tally.length * tally.total : Nat) : ℚ) := by exact_mod_cast positive
  rw [rational_value, div_lt_iff₀ isPositive]
  exact_mod_cast Iff.rfl

/-- A score is above one if the points are above all points. -/
theorem one_lt_rational_value_iff :
    1 < Scale.rational.value tally ↔
      tally.length * tally.total < tally.points * tally.matched := by
  have isPositive : (0 : ℚ) < ((tally.length * tally.total : Nat) : ℚ) := by exact_mod_cast positive
  rw [rational_value, one_lt_div isPositive]
  exact_mod_cast Iff.rfl

/-- A score is zero if there are no points or nothing matches. -/
theorem rational_value_ne_zero_iff :
    Scale.rational.value tally ≠ 0 ↔ 0 < tally.points * tally.matched := by
  have nonzero : ((tally.length * tally.total : Nat) : ℚ) ≠ 0 := by exact_mod_cast positive.ne'
  rw [rational_value, div_ne_zero_iff, Nat.cast_ne_zero, Nat.pos_iff_ne_zero]
  exact and_iff_left nonzero

end

end Tally

section

variable (isPartial : Bool) (abbreviation name : String)

/-- The factors of a tally that a score divides by. -/
theorem count_positive :
    0 < (Tally.count isPartial abbreviation name).length *
      (Tally.count isPartial abbreviation name).total :=
  Nat.mul_pos (Tally.ofLower_positive isPartial _ _).1 (Tally.ofLower_positive isPartial _ _).2

/-- A score is not zero exactly if there is a match. -/
theorem score_matches :
    Scale.rational.score isPartial abbreviation name ≠ 0 ↔
      Tally.Matches isPartial (LetterCase.lower abbreviation).toList
        (LetterCase.lower name).toList := by
  rw [Scale.score, Tally.rational_value_ne_zero_iff (count_positive isPartial abbreviation name),
    Tally.count_eq, Tally.ofLower_points_iff]

end

/-- The lower-case form of a text is empty only if the text is. -/
theorem lower_ne_empty {text : String} (written : text ≠ "") :
    (LetterCase.lower text).toList ≠ [] := by
  rw [LetterCase.lower, String.toList_ofList]
  cases characters : text.toList with
  | nil => exact absurd (String.toList_injective characters) written
  | cons c rest =>
    rw [LetterCase.lowerFrom, LetterCase.lowerChar]
    split_ifs <;> exact List.cons_ne_nil _ _

/-- Only an empty text is empty in lower case. -/
theorem lower_ne_empty_iff {text : String} : (LetterCase.lower text).toList ≠ [] ↔ text ≠ "" := by
  refine ⟨?_, lower_ne_empty⟩
  rintro written rfl
  exact written rfl

/-- A score is not zero exactly if the abbreviation and the name begin alike and the further
characters of the abbreviation are a subsequence of those of the name. If the match may be partial,
beginning alike is enough. -/
theorem score_ne_zero_iff (abbreviation name : String) :
    (Scale.rational.score false abbreviation name ≠ 0 ↔
      ∃ first more rest, (LetterCase.lower abbreviation).toList = first :: more ∧
        (LetterCase.lower name).toList = first :: rest ∧ more.Sublist rest) ∧
    (Scale.rational.score true abbreviation name ≠ 0 ↔
      abbreviation ≠ "" ∧ name ≠ "" ∧
        (LetterCase.lower abbreviation).toList.head? = (LetterCase.lower name).toList.head?) := by
  rw [score_matches, score_matches, ← lower_ne_empty_iff, ← lower_ne_empty_iff]
  generalize (LetterCase.lower abbreviation).toList = abbreviation
  generalize (LetterCase.lower name).toList = name
  constructor
  · constructor
    · intro matched
      obtain ⟨first, more, rest, rfl, rfl⟩ := matched.exists_cons
      exact ⟨first, more, rest, rfl, rfl, matched.2.resolve_left Bool.false_ne_true⟩
    · rintro ⟨first, more, rest, rfl, rfl, within⟩
      exact ⟨rfl, .inr within⟩
  · constructor
    · intro matched
      obtain ⟨first, more, rest, rfl, rfl⟩ := matched.exists_cons
      exact ⟨List.cons_ne_nil _ _, List.cons_ne_nil _ _, rfl⟩
    · rintro ⟨written, named, alike⟩
      obtain ⟨first, more, rfl⟩ := List.exists_cons_of_ne_nil written
      obtain ⟨start, rest, rfl⟩ := List.exists_cons_of_ne_nil named
      exact ⟨Option.some.inj alike, .inl rfl⟩

/-- Nothing is divided by zero, and scores are at least zero and below two. A score is above one
exactly if more points are given on top than fall short, and it is one exactly if as many are. In a
name without dashes it is at most one, and one exactly for the beginnings of the name. -/
theorem score_bounds (isPartial : Bool) (abbreviation name : String) :
    let tally := Tally.count isPartial abbreviation name
    let score := Scale.rational.score isPartial abbreviation name
    let surplus :=
      Tally.surplus (LetterCase.lower abbreviation).toList (LetterCase.lower name).toList
    let shortfall :=
      Tally.shortfall (LetterCase.lower abbreviation).toList (LetterCase.lower name).toList
    0 < tally.length ∧ 0 < tally.total ∧ 0 ≤ score ∧ score < 2 ∧
      (1 < score ↔ score ≠ 0 ∧ shortfall < surplus) ∧
      (score = 1 ↔ score ≠ 0 ∧ surplus = shortfall) ∧
      ('-' ∉ (LetterCase.lower name).toList →
        score ≤ 1 ∧ (score = 1 ↔ abbreviation ≠ "" ∧
          (LetterCase.lower abbreviation).toList <+: (LetterCase.lower name).toList)) := by
  intro tally score surplus shortfall
  have positive := count_positive isPartial abbreviation name
  have isMatch := score_matches isPartial abbreviation name
  obtain ⟨length, total⟩ : 0 < tally.length ∧ 0 < tally.total :=
    Tally.ofLower_positive isPartial _ _
  have atLeast : 0 ≤ score := Tally.rational_value_nonneg tally
  -- A score is the points over the length times the total, so that all bounds are about the surplus
  -- and the shortfall of the points.
  have above : 1 < score ↔ score ≠ 0 ∧ shortfall < surplus := by
    rw [isMatch, ← Tally.isAbove_iff]
    exact Tally.one_lt_rational_value_iff positive
  have full : score = 1 ↔ score ≠ 0 ∧ surplus = shortfall := by
    rw [isMatch, ← Tally.isFull_iff]
    exact Tally.rational_value_eq_one_iff positive
  have below : score < 2 :=
    (Tally.rational_value_lt_iff positive 2).mpr (Tally.ofLower_lt isPartial _ _)
  refine ⟨length, total, atLeast, below, above, full, fun dashless => ⟨?_, ?_⟩⟩
  · have nothing : surplus = 0 := Tally.surplus_of_dashless _ dashless
    rw [← not_lt, above, nothing]
    exact fun more => Nat.not_lt_zero _ more.2
  · constructor
    · intro one
      have isFull := (Tally.rational_value_eq_one_iff positive).mp one
      obtain ⟨first, more, rest, written, _⟩ := (isMatch.mp (full.mp one).1).exists_cons
      exact ⟨lower_ne_empty_iff.mp (by rw [written]; exact List.cons_ne_nil _ _),
        Tally.begins_of_isFull dashless isFull⟩
    · rintro ⟨written, begins⟩
      exact (Tally.rational_value_eq_one_iff positive).mpr
        (Tally.isFull_of_begins isPartial (lower_ne_empty written) begins)

/-- A dash that is passed over costs one point and gives three, and the beginning of a longer name
reaches all points. -/
theorem score_bounds_dashed :
    '-' ∉ (LetterCase.lower "abc").toList ∧ Scale.rational.score false "ab" "abc" = 1 ∧
      1 < Scale.rational.score false "ab" "a-bcd" := by
  have dashless : '-' ∉ (LetterCase.lower "abc").toList := by decide
  obtain ⟨_, _, _, _, _, _, plain⟩ := score_bounds false "ab" "abc"
  obtain ⟨_, _, _, _, above, _, _⟩ := score_bounds false "ab" "a-bcd"
  have characters : (LetterCase.lower "ab").toList = ['a', 'b'] ∧
      (LetterCase.lower "a-bcd").toList = ['a', '-', 'b', 'c', 'd'] := by decide
  have isMatch : Scale.rational.score false "ab" "a-bcd" ≠ 0 := by
    rw [score_matches, characters.1, characters.2]
    exact ⟨rfl, .inr (by decide)⟩
  have written : "ab" ≠ "" := by decide
  have begins : (LetterCase.lower "ab").toList <+: (LetterCase.lower "abc").toList := by decide
  refine ⟨dashless, (plain dashless).2.mpr ⟨written, begins⟩, above.mpr ⟨isMatch, ?_⟩⟩
  decide

end Shorthand.Stylesheet
