import Shorthand.Text.LetterCase

/-!
# Fuzzy matching of names

How well an abbreviation matches a name is counted in whole numbers: a tally of points over
what could be reached. A score is the value of a tally on some scale, which compares scores.
-/

namespace Shorthand.Stylesheet

/-- The count of a match: `points * (matched / length) / total`. -/
structure Tally where
  points : Nat
  /-- The characters of the abbreviation that were found. -/
  matched : Nat
  /-- The characters of the abbreviation. -/
  length : Nat
  /-- The most points that can be reached. -/
  total : Nat
  deriving DecidableEq, Repr

namespace Tally

/-- The tally of equal names. -/
def full : Tally := ⟨1, 1, 1, 1⟩

/-- The tally of names that do not match. -/
def zero : Tally := ⟨0, 1, 1, 1⟩

/-- The sum of the numbers up to a bound. -/
def triangle (bound : Nat) : Nat := bound * (bound + 1) / 2

/-- Find a character in the rest of a name. The answer is its points and what follows it: as
many points as characters are left from there on, doubled directly behind a dash that was
passed over. -/
def findChar (wanted : Char) (isAcronym : Bool) : List Char → Option (Nat × List Char)
  | [] => none
  | c :: rest =>
    if c = wanted then
      some ((if isAcronym then 2 else 1) * (rest.length + 1), rest)
    else
      findChar wanted (c == '-') rest

/-- Find characters one after the other until one is missing: the points and how many were
found. -/
def findChars : List Char → List Char → Nat × Nat
  | [], _ => (0, 0)
  | wanted :: more, name =>
    match findChar wanted false name with
    | none => (0, 0)
    | some (points, rest) =>
      let (others, found) := findChars more rest
      (points + others, found + 1)

/-- The tally of an abbreviation in lower case for a name in lower case. Both must begin
alike. A partial match may leave characters of the abbreviation over. -/
def ofLower (isPartial : Bool) (abbreviation name : List Char) : Tally :=
  if abbreviation = name ∧ abbreviation ≠ [] then
    full
  else
    match abbreviation, name with
    | first :: more, start :: rest =>
      if first ≠ start then
        zero
      else
        let (points, found) := findChars more rest
        if found < more.length ∧ !isPartial then
          zero
        else
          let length := more.length + 1
          let size := rest.length + 1
          ⟨size + points, found + 1, length, triangle size - triangle (size - length)⟩
    | _, _ => zero

/-- The tally of an abbreviation for a name, whatever the case of letters. -/
def count (isPartial : Bool) (abbreviation name : String) : Tally :=
  ofLower isPartial (LetterCase.lower abbreviation).toList (LetterCase.lower name).toList

end Tally

/-- How tallies are valued and scores compared. -/
structure Scale (Score : Type) where
  value : Tally → Score
  /-- The score of equal names. -/
  isFull : Score → Bool
  isPositive : Score → Bool
  /-- The second score is not above the first. -/
  isAtLeast : Score → Score → Bool

namespace Scale

/-- Scores as doubles. -/
def float : Scale Float where
  value tally :=
    tally.points.toFloat * (tally.matched.toFloat / tally.length.toFloat) / tally.total.toFloat
  isFull score := score == 1.0
  isPositive score := 0.0 < score
  isAtLeast score other := other ≤ score

variable {Score : Type} (scale : Scale Score)

/-- The score of an abbreviation for a name. -/
def score (isPartial : Bool) (abbreviation name : String) : Score :=
  scale.value (Tally.count isPartial abbreviation name)

/-- Look for the best of the remaining items; `best` is the best one so far. A full score
ends the search, and of equal scores the last one is best. -/
def bestFrom {α : Type} (scoreOf : α → Score) (least : Score) (best : Option (α × Score)) :
    List α → Option (α × Score)
  | [] => best.filter fun found => scale.isAtLeast found.2 least
  | item :: rest =>
    let score := scoreOf item
    if scale.isFull score then
      some (item, score)
    else if scale.isPositive score && best.all fun found => scale.isAtLeast score found.2 then
      bestFrom scoreOf least (some (item, score)) rest
    else
      bestFrom scoreOf least best rest

/-- The item whose key matches an abbreviation best, with its score. Only a full score may be
below the least one. -/
def best? {α : Type} (key : α → String) (least : Score) (isPartial : Bool)
    (abbreviation : String) (items : List α) : Option (α × Score) :=
  bestFrom scale (fun item => scale.score isPartial abbreviation (key item)) least none items

end Scale

end Shorthand.Stylesheet
