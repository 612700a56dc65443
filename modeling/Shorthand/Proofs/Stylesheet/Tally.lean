import Mathlib.Tactic.Linarith
import Mathlib.Tactic.Ring
import Shorthand.Proofs.Stylesheet.Search

/-!
# What a match counts

Without passing over anything, the characters of an abbreviation reach all points. A character that
is passed over costs a point for every character that is found behind it, and a dash directly in
front of a character that is found gives points back. So the points are known from what is passed
over: a match is full exactly if as much is given on top as falls short.
-/

namespace Shorthand.Stylesheet.Tally

/-! ### Points that can be reached -/

/-- One character more adds its number to the points. -/
theorem triangle_succ (bound : Nat) : triangle (bound + 1) = triangle bound + (bound + 1) := by
  have doubled : (bound + 1) * (bound + 1 + 1) = bound * (bound + 1) + (bound + 1) * 2 := by ring
  rw [triangle, triangle, doubled, Nat.add_mul_div_right _ _ (by decide)]

/-- The points of two numbers together are those of each and their product. -/
theorem triangle_add (left right : Nat) :
    triangle (left + right) = triangle left + triangle right + left * right := by
  induction right with
  | zero => simp [triangle]
  | succ right ih =>
    rw [← Nat.add_assoc, triangle_succ, triangle_succ, ih]
    ring

/-- A longer name has no fewer points. -/
theorem triangle_mono {left right : Nat} (ordered : left ≤ right) :
    triangle left ≤ triangle right := by
  obtain ⟨more, rfl⟩ := Nat.exists_eq_add_of_le ordered
  rw [triangle_add]
  omega

/-- The points of as many characters at the beginning of a name. -/
def reach (size count : Nat) : Nat := triangle size - triangle (size - count)

/-- The points at the beginning and those of the rest are all points. -/
theorem reach_add (size count : Nat) :
    reach size count + triangle (size - count) = triangle size :=
  Nat.sub_add_cancel (triangle_mono (Nat.sub_le size count))

/-- More characters at the beginning have no fewer points. -/
theorem reach_mono (size : Nat) {count more : Nat} (ordered : count ≤ more) :
    reach size count ≤ reach size more :=
  Nat.sub_le_sub_left (triangle_mono (Nat.sub_le_sub_left ordered size)) _

/-- The first character of a name counts its length, and the others as in the rest. -/
theorem reach_succ (size count : Nat) :
    reach (size + 1) (count + 1) = size + 1 + reach size count := by
  have whole := reach_add size count
  rw [reach, Nat.add_sub_add_right, triangle_succ]
  omega

/-- A character at the beginning has points. -/
theorem reach_pos {size count : Nat} (counts : 0 < count) (room : 0 < size) :
    0 < reach size count := by
  obtain ⟨count, rfl⟩ := Nat.exists_eq_succ_of_ne_zero (Nat.ne_of_gt counts)
  obtain ⟨size, rfl⟩ := Nat.exists_eq_succ_of_ne_zero (Nat.ne_of_gt room)
  rw [reach_succ]
  omega

/-- The points of a name behind characters that are passed over. -/
theorem reach_passed (passed : Nat) {rest count : Nat} (inside : count ≤ rest) :
    reach (passed + (rest + 1)) (count + 1) =
      passed * (count + 1) + (rest + 1) + reach rest count := by
  obtain ⟨behind, rfl⟩ := Nat.exists_eq_add_of_le inside
  have whole := reach_add (passed + (count + behind + 1)) (count + 1)
  have inner := reach_add (count + behind) count
  have left : passed + (count + behind + 1) - (count + 1) = passed + behind := by omega
  have innerLeft : count + behind - count = behind := by omega
  rw [left, triangle_add, triangle_add, triangle_succ] at whole
  rw [innerLeft] at inner
  linarith [Nat.mul_add passed count behind, Nat.mul_add passed (count + behind) 1]

/-! ### Gains and losses -/

/-- How a character was found: the characters that were passed over, and the number of those that
were left, from the one that was found on. -/
structure Passage where
  passed : List Char
  left : Nat
  deriving DecidableEq, Repr

/-- The last character that was passed over is a dash. -/
def Passage.IsBehindDash (passage : Passage) : Prop := passage.passed.getLast? = some '-'

instance (passage : Passage) : Decidable passage.IsBehindDash :=
  inferInstanceAs (Decidable (passage.passed.getLast? = some '-'))

/-- How the characters of an abbreviation are found in a name, until one is missing. -/
def passages : List Char → List Char → List Passage
  | [], _ => []
  | wanted :: more, name =>
    match name.dropWhile (· != wanted) with
    | [] => []
    | _ :: rest => ⟨name.takeWhile (· != wanted), rest.length + 1⟩ :: passages more rest

/-- What is gained by dashes: the points of the characters behind them once more. -/
def gained (found : List Passage) : Nat :=
  ((found.filter (·.IsBehindDash)).map Passage.left).sum

/-- What is lost: a point for every character that was passed over and every one found behind it. -/
def lost : List Passage → Nat
  | [] => 0
  | passage :: more => passage.passed.length * (more.length + 1) + lost more

section

variable {wanted : Char} {more passed rest name : List Char}

/-- A character that is missing in the name is not found, nor is any behind it. -/
theorem passages_missing (missing : wanted ∉ name) : passages (wanted :: more) name = [] := by
  rw [passages, dropWhile_missing missing]

/-- A character is found at its first place in the name. -/
theorem passages_found (inFront : wanted ∉ passed) :
    passages (wanted :: more) (passed ++ wanted :: rest) =
      ⟨passed, rest.length + 1⟩ :: passages more rest := by
  obtain ⟨front, behind⟩ := splitWhile_found inFront rest
  rw [passages, behind, front]

end

/-- A dash in front of a character gains its points once more. -/
theorem gained_cons (passage : Passage) (more : List Passage) :
    gained (passage :: more) =
      (if passage.IsBehindDash then passage.left else 0) + gained more := by
  by_cases dashed : passage.IsBehindDash
  · simp [gained, dashed]
  · simp [gained, dashed]

section

variable (abbreviation name : List Char)

/-- There is a passage for every character that is found. -/
theorem length_passages :
    (passages abbreviation name).length = (findChars abbreviation name).2 := by
  induction abbreviation, name using search_induction with
  | nil name => rfl
  | missing wanted more name missing =>
    rw [passages_missing missing, findChars_missing missing]
    rfl
  | found wanted more passed rest inFront ih =>
    rw [passages_found inFront, findChars_found inFront, List.length_cons, ih]

/-- No more characters are found than are looked for. -/
theorem length_passages_le_wanted :
    (passages abbreviation name).length ≤ abbreviation.length := by
  rw [length_passages]
  exact findChars_le abbreviation name

/-- No more characters are found than the name has. -/
theorem length_passages_le : (passages abbreviation name).length ≤ name.length := by
  induction abbreviation, name using search_induction with
  | nil name => exact Nat.zero_le _
  | missing wanted more name missing => simp [passages_missing missing]
  | found wanted more passed rest inFront ih =>
    simp only [passages_found inFront, List.length_cons, List.length_append]
    omega

/-- The points of what is found are those that as many characters reach, less what is lost, and with
what is gained. -/
theorem points_balance :
    (findChars abbreviation name).1 + lost (passages abbreviation name) =
      reach name.length (passages abbreviation name).length +
        gained (passages abbreviation name) := by
  induction abbreviation, name using search_induction with
  | nil name => simp [findChars, passages, lost, gained, reach]
  | missing wanted more name missing =>
    simp [findChars_missing missing, passages_missing missing, lost, gained, reach]
  | found wanted more passed rest inFront ih =>
    have inside := length_passages_le more rest
    simp only [findChars_found inFront, passages_found inFront, lost, gained_cons,
      List.length_cons, List.length_append, reach_passed _ inside, Passage.IsBehindDash]
    by_cases dashed : passed.getLast? = some '-'
    · simp only [dashed, if_true]
      omega
    · simp only [dashed, if_false]
      omega

/-- Not more is gained than the points without any gain. -/
theorem gained_add_lost_le :
    gained (passages abbreviation name) + lost (passages abbreviation name) ≤
      reach name.length (passages abbreviation name).length := by
  induction abbreviation, name using search_induction with
  | nil name => simp [passages, lost, gained]
  | missing wanted more name missing => simp [passages_missing missing, lost, gained]
  | found wanted more passed rest inFront ih =>
    have inside := length_passages_le more rest
    simp only [passages_found inFront, lost, gained_cons, List.length_cons, List.length_append,
      reach_passed _ inside]
    split
    · omega
    · omega

/-- Nothing is lost exactly if what is found is the beginning of the name. -/
theorem lost_eq_zero_iff :
    lost (passages abbreviation name) = 0 ↔
      abbreviation.take (passages abbreviation name).length <+: name := by
  induction abbreviation, name using search_induction with
  | nil name => simp [passages, lost]
  | missing wanted more name missing => simp [passages_missing missing, lost]
  | found wanted more passed rest inFront ih =>
    rw [passages_found inFront, lost, List.length_cons, List.take_succ_cons]
    cases passed with
    | nil => simpa using ih
    | cons c others =>
      have other : wanted ≠ c := fun same => inFront (same ▸ List.mem_cons_self)
      simp [other]

end

/-- Where nothing is lost, nothing is gained. -/
theorem gained_eq_zero_of_lost {found : List Passage} (nothing : lost found = 0) :
    gained found = 0 := by
  induction found with
  | nil => rfl
  | cons passage more ih =>
    rw [lost, Nat.add_eq_zero_iff, Nat.mul_eq_zero, List.length_eq_zero_iff] at nothing
    have notPassed : passage.passed = [] := nothing.1.resolve_right (Nat.succ_ne_zero _)
    simp [gained_cons, ih nothing.2, Passage.IsBehindDash, notPassed]

/-- Without dashes nothing is gained. -/
theorem gained_eq_zero_of_dashless (abbreviation : List Char) {name : List Char}
    (dashless : '-' ∉ name) : gained (passages abbreviation name) = 0 := by
  induction abbreviation, name using search_induction with
  | nil name => rfl
  | missing wanted more name missing => rw [passages_missing missing]; rfl
  | found wanted more passed rest inFront ih =>
    rw [List.mem_append, List.mem_cons, not_or, not_or] at dashless
    have notBehind : passed.getLast? ≠ some '-' := fun last =>
      dashless.1 (List.mem_of_getLast? last)
    simp [passages_found inFront, gained_cons, Passage.IsBehindDash, notBehind, ih dashless.2.2]

/-! ### Tallies of matches -/

/-- An abbreviation matches a name if both begin with the same character. All characters must be
found, unless the match may be partial. -/
def Matches (isPartial : Bool) : List Char → List Char → Prop
  | first :: more, start :: rest => first = start ∧ (isPartial ∨ more.Sublist rest)
  | _, _ => False

/-- All points are reached, and all characters are found. -/
def IsFull (tally : Tally) : Prop :=
  tally.points * tally.matched = tally.length * tally.total

instance (tally : Tally) : Decidable tally.IsFull :=
  inferInstanceAs (Decidable (_ = _))

/-- The tally of what is found of an abbreviation in a name. -/
def counted (abbreviation name : List Char) : Tally :=
  ⟨(findChars abbreviation name).1, (findChars abbreviation name).2, abbreviation.length,
    triangle name.length - triangle (name.length - abbreviation.length)⟩

/-- What is gained on top of all points, for every character that is found. -/
def surplus (abbreviation name : List Char) : Nat :=
  let found := passages abbreviation name
  found.length * gained found

/-- What is short of all points: what is lost, for every character that is found, and the points of
those that are missing. -/
def shortfall (abbreviation name : List Char) : Nat :=
  let found := passages abbreviation name
  found.length * lost found +
    (abbreviation.length * reach name.length abbreviation.length -
      found.length * reach name.length found.length)

/-- The first character of an abbreviation is found like any other. -/
theorem counted_cons (first : Char) (more rest : List Char) :
    counted (first :: more) (first :: rest) =
      ⟨rest.length + 1 + (findChars more rest).1, (findChars more rest).2 + 1, more.length + 1,
        triangle (rest.length + 1) - triangle (rest.length + 1 - (more.length + 1))⟩ := by
  simp [counted, findChars, findChar]

/-- The tally of names that are not empty. -/
theorem ofLower_cons (isPartial : Bool) (first start : Char) (more rest : List Char) :
    ofLower isPartial (first :: more) (start :: rest) =
      if first :: more = start :: rest then full
      else if first ≠ start then zero
      else if (findChars more rest).2 < more.length ∧ !isPartial then zero
      else counted (first :: more) (first :: rest) := by
  simp only [ofLower, counted_cons, ne_eq, List.cons_ne_nil, not_false_eq_true, and_true]

/-- A tally is that of names that do not match, that of equal names, or what is found. -/
theorem ofLower_cases (isPartial : Bool) (abbreviation name : List Char) :
    ofLower isPartial abbreviation name = zero ∧ ¬Matches isPartial abbreviation name ∨
      Matches isPartial abbreviation name ∧
        (ofLower isPartial abbreviation name = full ∧ abbreviation = name ∨
          ofLower isPartial abbreviation name = counted abbreviation name) := by
  cases abbreviation with
  | nil => exact .inl ⟨by simp [ofLower], id⟩
  | cons first more =>
    cases name with
    | nil => exact .inl ⟨by simp [ofLower], id⟩
    | cons start rest =>
      have all := findChars_all_iff more rest
      have bounded := findChars_le more rest
      rw [ofLower_cons]
      split_ifs with same differs missing
      · obtain ⟨rfl, rfl⟩ := List.cons.inj same
        exact .inr ⟨⟨rfl, .inr (List.Sublist.refl _)⟩, .inl ⟨rfl, rfl⟩⟩
      · exact .inl ⟨rfl, fun matched => differs matched.1⟩
      · rw [not_not] at differs
        refine .inl ⟨rfl, fun matched => ?_⟩
        rcases matched.2 with isPartial | within
        · simp [isPartial] at missing
        · exact absurd (all.mpr within) (Nat.ne_of_lt missing.1)
      · rw [not_not] at differs
        refine .inr ⟨⟨differs, ?_⟩, .inr (by rw [differs])⟩
        by_cases complete : (findChars more rest).2 = more.length
        · exact .inr (all.mp complete)
        · exact .inl (by simpa [lt_of_le_of_ne bounded complete] using missing)

section

variable {isPartial : Bool} {abbreviation name : List Char}

/-- A match begins with a character that is found without passing over any. -/
theorem Matches.exists_cons (matched : Matches isPartial abbreviation name) :
    ∃ first more rest, abbreviation = first :: more ∧ name = first :: rest := by
  cases abbreviation with
  | nil => exact matched.elim
  | cons first more =>
    cases name with
    | nil => exact matched.elim
    | cons start rest => exact ⟨first, more, rest, rfl, by rw [matched.1]⟩

/-- A match begins at the first character of both. -/
theorem Matches.passages (matched : Matches isPartial abbreviation name) :
    ∃ first more rest, abbreviation = first :: more ∧ name = first :: rest ∧
      passages abbreviation name = ⟨[], rest.length + 1⟩ :: Tally.passages more rest := by
  obtain ⟨first, more, rest, rfl, rfl⟩ := matched.exists_cons
  exact ⟨first, more, rest, rfl, rfl, @passages_found first more [] rest List.not_mem_nil⟩

/-- The beginning of a name matches it. -/
theorem matches_of_begins (isPartial : Bool) (written : abbreviation ≠ [])
    (begins : abbreviation <+: name) : Matches isPartial abbreviation name := by
  obtain ⟨first, more, rfl⟩ := List.exists_cons_of_ne_nil written
  obtain ⟨behind, rfl⟩ := begins
  exact ⟨rfl, .inr (List.sublist_append_left more behind)⟩

/-- No tally is divided by zero. -/
theorem ofLower_positive (isPartial : Bool) (abbreviation name : List Char) :
    0 < (ofLower isPartial abbreviation name).length ∧
      0 < (ofLower isPartial abbreviation name).total := by
  rcases ofLower_cases isPartial abbreviation name with ⟨same, _⟩ | ⟨matched, ⟨same, _⟩ | same⟩
  · simp [same, zero]
  · simp [same, full]
  · obtain ⟨first, more, rest, rfl, rfl⟩ := matched.exists_cons
    rw [same]
    exact ⟨Nat.succ_pos _, reach_pos (Nat.succ_pos more.length) (Nat.succ_pos rest.length)⟩

/-- A tally has points, and characters that are found, exactly if there is a match. -/
theorem ofLower_points_iff :
    0 < (ofLower isPartial abbreviation name).points *
        (ofLower isPartial abbreviation name).matched ↔
      Matches isPartial abbreviation name := by
  rcases ofLower_cases isPartial abbreviation name with
    ⟨same, unmatched⟩ | ⟨matched, ⟨same, _⟩ | same⟩
  · simp [same, zero, unmatched]
  · simp [same, full, matched]
  · obtain ⟨first, more, rest, rfl, rfl⟩ := matched.exists_cons
    rw [same, counted_cons]
    exact iff_of_true (Nat.mul_pos (Nat.add_pos_left (Nat.succ_pos _) _) (Nat.succ_pos _)) matched

/-- What is short of all points, and what is on top of them. -/
theorem counted_balance (abbreviation name : List Char) :
    (counted abbreviation name).points * (counted abbreviation name).matched +
        shortfall abbreviation name =
      (counted abbreviation name).length * (counted abbreviation name).total +
        surplus abbreviation name := by
  have balance := points_balance abbreviation name
  have length := length_passages abbreviation name
  have inside := length_passages_le_wanted abbreviation name
  have room : (passages abbreviation name).length *
        reach name.length (passages abbreviation name).length ≤
      abbreviation.length * reach name.length abbreviation.length :=
    Nat.mul_le_mul inside (reach_mono name.length inside)
  have scaled := congrArg ((passages abbreviation name).length * ·) balance
  simp only [Nat.mul_add] at scaled
  simp only [counted, surplus, shortfall, ← length, ← reach.eq_1]
  rw [Nat.mul_comm (findChars abbreviation name).1]
  omega

/-- At the beginning of a name nothing is lost, and nothing is missing. -/
theorem shortfall_of_begins (begins : abbreviation <+: name) : shortfall abbreviation name = 0 := by
  have all := (findChars_all_iff abbreviation name).mpr begins.sublist
  rw [← length_passages] at all
  have nothing : lost (passages abbreviation name) = 0 := by
    rw [lost_eq_zero_iff, all, List.take_length]
    exact begins
  simp [shortfall, nothing, all]

/-- Nothing is short only if the name begins with the abbreviation. -/
theorem shortfall_eq_zero_iff (matched : Matches isPartial abbreviation name) :
    shortfall abbreviation name = 0 ↔ abbreviation <+: name := by
  refine ⟨fun nothing => ?_, shortfall_of_begins⟩
  obtain ⟨first, more, rest, same, named, found⟩ := matched.passages
  have inside := length_passages_le_wanted abbreviation name
  have anyFound : 0 < (passages abbreviation name).length := by
    rw [found]
    exact Nat.succ_pos _
  have room : 0 < reach name.length abbreviation.length :=
    reach_pos (Nat.lt_of_lt_of_le anyFound inside) (by rw [named]; exact Nat.succ_pos _)
  rw [shortfall, Nat.add_eq_zero_iff, Nat.mul_eq_zero, Nat.sub_eq_zero_iff_le] at nothing
  obtain ⟨notLost, notMissing⟩ := nothing
  have nothingLost := notLost.resolve_left (Nat.ne_of_gt anyFound)
  -- Fewer characters reach fewer points, so none is missing.
  have all : (passages abbreviation name).length = abbreviation.length := by
    by_contra fewer
    have less := Nat.mul_lt_mul_of_lt_of_le (lt_of_le_of_ne inside fewer)
      (reach_mono name.length inside) room
    omega
  rwa [lost_eq_zero_iff, all, List.take_length] at nothingLost

/-- At the beginning of a name nothing is passed over that gives points back. -/
theorem surplus_of_begins (begins : abbreviation <+: name) : surplus abbreviation name = 0 := by
  have nothing : lost (passages abbreviation name) = 0 := by
    rw [lost_eq_zero_iff]
    exact (List.take_prefix _ _).trans begins
  simp [surplus, gained_eq_zero_of_lost nothing]

/-- Without dashes nothing is gained. -/
theorem surplus_of_dashless (abbreviation : List Char) {name : List Char} (dashless : '-' ∉ name) :
    surplus abbreviation name = 0 := by
  simp [surplus, gained_eq_zero_of_dashless abbreviation dashless]

/-- What is on top is less than all points. -/
theorem surplus_lt (matched : Matches isPartial abbreviation name) :
    surplus abbreviation name <
      (counted abbreviation name).length * (counted abbreviation name).total := by
  obtain ⟨first, more, rest, rfl, rfl, found⟩ := matched.passages
  have bounded := gained_add_lost_le more rest
  have inside := length_passages_le_wanted (first :: more) (first :: rest)
  have less : gained (passages (first :: more) (first :: rest)) <
      reach (first :: rest).length (passages (first :: more) (first :: rest)).length := by
    rw [found, List.length_cons, List.length_cons, reach_succ, gained_cons]
    simp only [Passage.IsBehindDash, List.getLast?_nil, reduceCtorEq, if_false]
    omega
  have total : (counted (first :: more) (first :: rest)).total =
      reach (first :: rest).length (first :: more).length := rfl
  rw [surplus, total]
  calc (passages (first :: more) (first :: rest)).length *
        gained (passages (first :: more) (first :: rest))
      < (passages (first :: more) (first :: rest)).length *
        reach (first :: rest).length (passages (first :: more) (first :: rest)).length :=
        Nat.mul_lt_mul_of_pos_left less (by rw [found]; exact Nat.succ_pos _)
    _ ≤ (first :: more).length * reach (first :: rest).length (first :: more).length :=
        Nat.mul_le_mul inside (reach_mono _ inside)

/-- What a match counts is less or more than all points by what is short and what is on top. -/
theorem ofLower_balance (matched : Matches isPartial abbreviation name) :
    (ofLower isPartial abbreviation name).points * (ofLower isPartial abbreviation name).matched +
        shortfall abbreviation name =
      (ofLower isPartial abbreviation name).length * (ofLower isPartial abbreviation name).total +
        surplus abbreviation name := by
  rcases ofLower_cases isPartial abbreviation name with
    ⟨_, unmatched⟩ | ⟨_, ⟨same, rfl⟩ | same⟩
  · exact absurd matched unmatched
  · rw [same, shortfall_of_begins List.prefix_rfl, surplus_of_begins List.prefix_rfl]
    rfl
  · rw [same]
    exact counted_balance abbreviation name

/-- Twice as much as all points is never counted. -/
theorem ofLower_lt (isPartial : Bool) (abbreviation name : List Char) :
    (ofLower isPartial abbreviation name).points * (ofLower isPartial abbreviation name).matched <
      2 * ((ofLower isPartial abbreviation name).length *
        (ofLower isPartial abbreviation name).total) := by
  rcases ofLower_cases isPartial abbreviation name with
    ⟨same, _⟩ | ⟨matched, ⟨same, _⟩ | same⟩
  · rw [same]
    decide
  · rw [same]
    decide
  · have balance := counted_balance abbreviation name
    have bounded := surplus_lt matched
    rw [same]
    omega

/-- What does not match has no points. -/
theorem ofLower_of_not_matches (unmatched : ¬Matches isPartial abbreviation name) :
    ofLower isPartial abbreviation name = zero := by
  rcases ofLower_cases isPartial abbreviation name with ⟨same, _⟩ | ⟨matched, _⟩
  · exact same
  · exact absurd matched unmatched

/-- A match is full exactly if as much is on top as is short. -/
theorem isFull_iff :
    (ofLower isPartial abbreviation name).IsFull ↔
      Matches isPartial abbreviation name ∧
        surplus abbreviation name = shortfall abbreviation name := by
  by_cases matched : Matches isPartial abbreviation name
  · have balance := ofLower_balance matched
    rw [and_iff_right matched, IsFull]
    omega
  · rw [ofLower_of_not_matches matched, iff_false_intro (not_and_of_not_left _ matched)]
    decide

/-- More than all points are counted exactly if more is on top than is short. -/
theorem isAbove_iff :
    (ofLower isPartial abbreviation name).length * (ofLower isPartial abbreviation name).total <
        (ofLower isPartial abbreviation name).points *
          (ofLower isPartial abbreviation name).matched ↔
      Matches isPartial abbreviation name ∧
        shortfall abbreviation name < surplus abbreviation name := by
  by_cases matched : Matches isPartial abbreviation name
  · have balance := ofLower_balance matched
    rw [and_iff_right matched]
    omega
  · rw [ofLower_of_not_matches matched, iff_false_intro (not_and_of_not_left _ matched)]
    decide

end

/-- The beginning of a name scores in full. -/
theorem isFull_of_begins (isPartial : Bool) {abbreviation name : List Char}
    (written : abbreviation ≠ []) (begins : abbreviation <+: name) :
    (ofLower isPartial abbreviation name).IsFull :=
  isFull_iff.mpr ⟨matches_of_begins isPartial written begins, by
    rw [surplus_of_begins begins, shortfall_of_begins begins]⟩

/-- In a name without dashes nothing but its beginning scores in full. -/
theorem begins_of_isFull {isPartial : Bool} {abbreviation name : List Char}
    (dashless : '-' ∉ name) (isFull : (ofLower isPartial abbreviation name).IsFull) :
    abbreviation <+: name := by
  obtain ⟨matched, same⟩ := isFull_iff.mp isFull
  rw [surplus_of_dashless abbreviation dashless] at same
  exact (shortfall_eq_zero_iff matched).mp same.symm

end Shorthand.Stylesheet.Tally
