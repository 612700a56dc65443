import Shorthand.Proofs.Stylesheet.Score
import Shorthand.Stylesheet.Resolution

/-!
# Names that are written in full

The search for the best item ends at the first one whose score is full. Equal names score in
full, and so does every name that begins with the abbreviation, so a name written in full
wins exactly if no item before it scores in full as well. In names without dashes nothing but
a beginning scores in full: a character that is passed over costs points, and only a dash
gives some back.
-/

namespace Shorthand.Stylesheet

/-- Two names are equal when the case of letters is ignored. -/
def SameName (left right : String) : Prop := LetterCase.lower left = LetterCase.lower right

instance (left right : String) : Decidable (SameName left right) :=
  inferInstanceAs (Decidable (LetterCase.lower left = LetterCase.lower right))

/-- A name scores in full for an abbreviation, like the abbreviation itself. -/
def ScoresFull (isPartial : Bool) (abbreviation name : String) : Prop :=
  (Tally.count isPartial abbreviation name).IsFull

instance (isPartial : Bool) (abbreviation name : String) :
    Decidable (ScoresFull isPartial abbreviation name) :=
  inferInstanceAs (Decidable (Tally.count isPartial abbreviation name).IsFull)

/-- No item before the first one of a name scores in full for it. -/
def Unrivalled {α : Type} (key : α → String) (isPartial : Bool) (name : String)
    (items : List α) : Prop :=
  ∀ other ∈ items.takeWhile fun item => ¬ SameName name (key item),
    ¬ ScoresFull isPartial name (key other)

/-! ### The search -/

namespace Scale

variable {Score α : Type} (scale : Scale Score)

/-- If some item scores in full, the search ends at the first one. -/
theorem bestFrom_full (scoreOf : α → Score) (least : Score) (best : Option (α × Score))
    {items : List α} {found : α}
    (first : items.find? (fun item => scale.isFull (scoreOf item)) = some found) :
    scale.bestFrom scoreOf least best items = some (found, scoreOf found) := by
  induction items generalizing best with
  | nil => cases first
  | cons item rest ih =>
    rw [bestFrom]
    by_cases full : scale.isFull (scoreOf item)
    · simp only [List.find?_cons, full, Option.some.injEq] at first
      rw [if_pos full, first]
    · simp only [List.find?_cons, full] at first
      simp only [full, Bool.false_eq_true, if_false]
      split_ifs
      · exact ih _ first
      · exact ih _ first

/-- A score is one exactly if it is full. -/
theorem rational_isFull (isPartial : Bool) (abbreviation name : String) :
    rational.isFull (rational.score isPartial abbreviation name) = true ↔
      ScoresFull isPartial abbreviation name := by
  rw [ScoresFull,
    ← Tally.rational_value_eq_one_iff (count_positive isPartial abbreviation name)]
  exact decide_eq_true_iff

end Scale

/-- Equal names score in full. -/
theorem scoresFull_of_sameName (isPartial : Bool) {abbreviation name : String}
    (written : abbreviation ≠ "") (same : SameName abbreviation name) :
    ScoresFull isPartial abbreviation name := by
  rw [ScoresFull, Tally.count, ← same]
  exact Tally.isFull_of_begins isPartial (lower_ne_empty written) List.prefix_rfl

/-- Of the items that pass the weaker one of two tests, the first one passes the stronger one
exactly if none before the first that does passes the weaker one alone. -/
theorem find?_passes_iff {α : Type} {weaker stronger : α → Prop} [DecidablePred weaker]
    [DecidablePred stronger] (implies : ∀ item, stronger item → weaker item) {items : List α}
    {found : α} (first : items.find? (fun item => weaker item) = some found)
    (some : ∃ item ∈ items, stronger item) :
    stronger found ↔
      ∀ other ∈ items.takeWhile fun item => ¬ stronger item, ¬ weaker other := by
  induction items with
  | nil => cases first
  | cons item rest ih =>
    by_cases strong : stronger item
    · simp only [List.find?_cons, implies item strong, decide_true, Option.some.injEq] at first
      simp [← first, strong]
    · by_cases weak : weaker item
      · simp only [List.find?_cons, weak, decide_true, Option.some.injEq] at first
        simp [← first, strong, weak]
      · simp only [List.find?_cons, weak, decide_false] at first
        have further : ∃ item ∈ rest, stronger item := by
          simpa [strong] using some
        rw [ih first further]
        simp [strong, weak]

/-- A name that some item has is found with a full score, and the item that is found has the
name exactly if the name is unrivalled. -/
theorem best?_full {α : Type} (key : α → String) (least : ℚ) (isPartial : Bool) {name : String}
    {items : List α} (written : name ≠ "") (known : ∃ item ∈ items, SameName name (key item)) :
    ∃ found ∈ items, Scale.rational.best? key least isPartial name items = some (found, 1) ∧
      (SameName name (key found) ↔ Unrivalled key isPartial name items) := by
  have implies : ∀ item, SameName name (key item) → ScoresFull isPartial name (key item) :=
    fun item same => scoresFull_of_sameName isPartial written same
  have someFull : (items.find? fun item => ScoresFull isPartial name (key item)).isSome := by
    obtain ⟨item, member, same⟩ := known
    rw [List.find?_isSome]
    exact ⟨item, member, decide_eq_true (implies item same)⟩
  obtain ⟨found, first⟩ := Option.isSome_iff_exists.mp someFull
  have full : ScoresFull isPartial name (key found) := by
    simpa using List.find?_some first
  have searched : items.find? (fun item =>
      Scale.rational.isFull (Scale.rational.score isPartial name (key item))) = some found := by
    have sameTest : (fun item =>
        Scale.rational.isFull (Scale.rational.score isPartial name (key item))) =
          fun item => decide (ScoresFull isPartial name (key item)) := by
      funext item
      rw [Bool.eq_iff_iff, Scale.rational_isFull, decide_eq_true_eq]
    rw [sameTest, first]
  have score : Scale.rational.score isPartial name (key found) = 1 :=
    of_decide_eq_true ((Scale.rational_isFull isPartial name (key found)).mpr full)
  refine ⟨found, List.mem_of_find?_eq_some first, ?_, find?_passes_iff implies first known⟩
  rw [Scale.best?, Scale.bestFrom_full _ _ _ _ searched, score]

/-- A name that is written in full wins exactly if it is unrivalled: among any items, among
the keywords of a property, and among the snippets of a table. Whatever begins with the name
scores in full, and without dashes nothing else does. -/
theorem fullName_wins_iff {α : Type} (key : α → String) (items : List α)
    (alternatives : List (List Fragment)) (table : Table) (least : ℚ) (isPartial : Bool)
    {name : String} (written : name ≠ "") :
    ((∃ item ∈ items, SameName name (key item)) →
      ∃ found ∈ items, Scale.rational.best? key least isPartial name items = some (found, 1) ∧
        (SameName name (key found) ↔ Unrivalled key isPartial name items)) ∧
    ((∃ keyword ∈ Snippet.keywordsOf alternatives, keyword.1 = name) →
      ∃ found ∈ Snippet.keywordsOf alternatives,
        matchKeyword Scale.rational (Snippet.keywordsOf alternatives) name least =
          some found.2 ∧
        (SameName name found.1 ↔
          Unrivalled Prod.fst false name (Snippet.keywordsOf alternatives))) ∧
    ((∃ snippet ∈ (Database.ofTable table).snippets, snippet.key = name) →
      ∃ found ∈ (Database.ofTable table).snippets,
        Scale.rational.best? Snippet.key least isPartial name (Database.ofTable table).snippets =
          some (found, 1) ∧
        (SameName name found.key ↔
          Unrivalled Snippet.key isPartial name (Database.ofTable table).snippets)) ∧
    ∀ other : String,
      ((LetterCase.lower name).toList <+: (LetterCase.lower other).toList →
        ScoresFull isPartial name other) ∧
      ('-' ∉ (LetterCase.lower other).toList → ScoresFull isPartial name other →
        (LetterCase.lower name).toList <+: (LetterCase.lower other).toList) := by
  -- Any list, the keywords and the snippets, and last which names score as much as the whole one.
  refine ⟨?_, ?_, ?_, ?_⟩
  · exact best?_full key least isPartial written
  · rintro ⟨keyword, member, rfl⟩
    obtain ⟨found, among, best, wins⟩ :=
      best?_full Prod.fst least false written ⟨keyword, member, rfl⟩
    refine ⟨found, among, ?_, wins⟩
    rw [matchKeyword, best]
    rfl
  · rintro ⟨snippet, member, rfl⟩
    exact best?_full Snippet.key least isPartial written ⟨snippet, member, rfl⟩
  · intro other
    constructor
    · exact Tally.isFull_of_begins isPartial (lower_ne_empty written)
    · exact Tally.begins_of_isFull

/-- An item of the name that was written loses to one before it that begins with the name. -/
theorem fullName_loses :
    ("ab" ≠ "" ∧ ∃ item ∈ ["abc", "ab"], SameName "ab" (id item)) ∧
      ∃ found ∈ ["abc", "ab"],
        Scale.rational.best? id 1 false "ab" ["abc", "ab"] = some (found, 1) ∧
        ¬ SameName "ab" found := by
  have written : "ab" ≠ "" := by decide
  have known : ∃ item ∈ ["abc", "ab"], SameName "ab" (id item) := by decide
  obtain ⟨found, member, best, wins⟩ :=
    (fullName_wins_iff id ["abc", "ab"] [] .empty 1 false written).1 known
  have rival : ScoresFull false "ab" "abc" := by decide
  refine ⟨⟨written, known⟩, found, member, best, fun same => ?_⟩
  exact wins.mp same "abc" (by decide) rival

end Shorthand.Stylesheet
