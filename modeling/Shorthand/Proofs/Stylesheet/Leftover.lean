import Shorthand.Proofs.Stylesheet.Score
import Shorthand.Proofs.Text.Run
import Shorthand.Stylesheet.Resolution

/-!
# What a key leaves of an abbreviation

A key leaves the least of an abbreviation that can be left behind a subsequence of the key, and
nothing of its subsequences. The score looks for the same subsequence, but in the lower-case forms,
and the leftover does not ignore case: a capital that a key has not got is left over, although the
key may score in full. So both agree about lower-case texts, and for a key in lower case they agree
exactly about abbreviations in lower case and about those that do not score.
-/

namespace Shorthand.LetterCase

/-! ### Texts in lower case -/

/-- A character that is its own lower-case form, whatever surrounds it. -/
def IsSmall (c : Char) : Prop := c ≠ 'Σ' ∧ lowerChar c = [c]

section

variable {text part : List Char}

/-- A character other than a capital sigma has one lower case wherever it stands. -/
theorem lowerFrom_cons {c : Char} (before rest : List Char) (plain : c ≠ 'Σ') :
    lowerFrom before (c :: rest) = lowerChar c ++ lowerFrom (c :: before) rest := by
  simp [lowerFrom, plain]

/-- A capital sigma has one small form or the other. -/
theorem lowerFrom_sigma (before rest : List Char) :
    ∃ image, image ≠ 'Σ' ∧
      lowerFrom before ('Σ' :: rest) = image :: lowerFrom ('Σ' :: before) rest := by
  by_cases ends : (facesCased before && !facesCased rest) = true
  · exact ⟨'ς', by decide, by simp [lowerFrom, ends]⟩
  · exact ⟨'σ', by decide, by simp [lowerFrom, ends]⟩

/-- The lower case of a character is at least one character. -/
theorem lowerChar_ne_nil (c : Char) : lowerChar c ≠ [] := by
  rw [lowerChar]
  split_ifs <;> exact List.cons_ne_nil _ _

/-- No character is lost in lower case. -/
theorem length_le_lowerFrom (before text : List Char) :
    text.length ≤ (lowerFrom before text).length := by
  induction text generalizing before with
  | nil => exact Nat.zero_le _
  | cons c rest ih =>
    have others := ih (c :: before)
    by_cases plain : c = 'Σ'
    · subst plain
      obtain ⟨image, -, same⟩ := lowerFrom_sigma before rest
      rw [same, List.length_cons, List.length_cons]
      omega
    · have some := List.length_pos_of_ne_nil (lowerChar_ne_nil c)
      rw [lowerFrom_cons before rest plain, List.length_append, List.length_cons]
      omega

/-- A text is its own lower-case form exactly if its characters are. -/
theorem lowerFrom_eq_self_iff (before text : List Char) :
    lowerFrom before text = text ↔ ∀ c ∈ text, IsSmall c := by
  induction text generalizing before with
  | nil => simp [lowerFrom]
  | cons c rest ih =>
    rw [List.forall_mem_cons, ← ih (c :: before)]
    by_cases plain : c = 'Σ'
    · subst plain
      obtain ⟨image, other, same⟩ := lowerFrom_sigma before rest
      rw [same, List.cons_eq_cons]
      exact ⟨fun small => absurd small.1 other, fun small => absurd rfl small.1.1⟩
    · rw [lowerFrom_cons before rest plain]
      constructor
      · intro same
        -- Nothing is lost behind the first character, so its image has no room for a second one.
        have others := length_le_lowerFrom (c :: before) rest
        obtain ⟨first, more, image⟩ := List.exists_cons_of_ne_nil (lowerChar_ne_nil c)
        have sizes := congrArg List.length same
        rw [image, List.length_append, List.length_cons, List.length_cons] at sizes
        have single : more = [] := List.eq_nil_of_length_eq_zero (by omega)
        rw [image, single, List.singleton_append, List.cons_eq_cons] at same
        exact ⟨⟨plain, by rw [image, single, same.1]⟩, same.2⟩
      · rintro ⟨⟨-, image⟩, same⟩
        rw [image, same, List.singleton_append]

/-- What is part of a text in lower case is in lower case. -/
theorem lowerFrom_eq_self_of_sublist (within : part.Sublist text) (before behind : List Char)
    (small : lowerFrom before text = text) : lowerFrom behind part = part := by
  rw [lowerFrom_eq_self_iff] at small ⊢
  exact fun c member => small c (within.subset member)

/-- Without a capital sigma, no character depends on what surrounds it. -/
theorem lowerFrom_sublist (within : part.Sublist text) (plain : 'Σ' ∉ part)
    (before behind : List Char) : (lowerFrom before part).Sublist (lowerFrom behind text) := by
  induction within generalizing before behind with
  | slnil => exact .slnil
  | @cons part text c _ ih =>
    have others := ih plain before (c :: behind)
    rw [lowerFrom]
    exact others.trans (List.sublist_append_right _ _)
  | @cons_cons part text c _ ih =>
    rw [List.mem_cons, not_or] at plain
    rw [lowerFrom_cons before part (Ne.symm plain.1), lowerFrom_cons behind text (Ne.symm plain.1)]
    exact (List.Sublist.refl _).append (ih plain.2 _ _)

end

/-- A text is in lower case if its characters are. -/
theorem lower_eq_self_iff (text : String) :
    lower text = text ↔ lowerFrom [] text.toList = text.toList := by
  rw [lower, String.ext_iff, String.toList_ofList]

end Shorthand.LetterCase

namespace Shorthand.Stylesheet

open LetterCase (lower)

/-! ### Leftovers -/

section

variable {wanted : Char} {more passed rest key : List Char}

/-- Behind a character that is missing in the key everything is left over. -/
theorem unmatchedPart_missing (missing : wanted ∉ key) :
    unmatchedPart (wanted :: more) key = wanted :: more := by
  rw [unmatchedPart, Tally.dropWhile_missing missing]

/-- A character that is found in the key is not left over. -/
theorem unmatchedPart_found (inFront : wanted ∉ passed) :
    unmatchedPart (wanted :: more) (passed ++ wanted :: rest) = unmatchedPart more rest := by
  rw [unmatchedPart, (Tally.splitWhile_found inFront _).2]

end

/-- A key leaves nothing exactly of its subsequences. -/
theorem unmatchedPart_eq_nil_iff (abbreviation key : List Char) :
    unmatchedPart abbreviation key = [] ↔ abbreviation.Sublist key := by
  induction abbreviation, key using Tally.search_induction with
  | nil key => simp [unmatchedPart]
  | missing wanted more key missing =>
    rw [unmatchedPart_missing missing]
    constructor
    · intro nothing
      cases nothing
    · intro within
      exact absurd (within.subset List.mem_cons_self) missing
  | found wanted more passed rest inFront ih =>
    rw [unmatchedPart_found inFront, Tally.sublist_found_iff inFront, ih]

/-- What stands in front of a rest of the abbreviation is a subsequence of the key. -/
def Leaves (abbreviation key rest : List Char) : Prop :=
  ∃ front, front ++ rest = abbreviation ∧ front.Sublist key

/-- What stands in front of the leftover is found in the key. -/
theorem leaves_unmatchedPart (abbreviation key : List Char) :
    Leaves abbreviation key (unmatchedPart abbreviation key) := by
  induction abbreviation, key using Tally.search_induction with
  | nil key => exact ⟨[], rfl, List.nil_sublist key⟩
  | missing wanted more key missing =>
    rw [unmatchedPart_missing missing]
    exact ⟨[], rfl, List.nil_sublist key⟩
  | found wanted more passed rest inFront ih =>
    obtain ⟨front, whole, within⟩ := ih
    rw [unmatchedPart_found inFront]
    exact ⟨wanted :: front, by rw [List.cons_append, whole],
      (Tally.sublist_found_iff inFront).mpr within⟩

/-- Taking the first place of every character leaves no more than any other choice of places. -/
theorem Leaves.unmatchedPart_suffix {abbreviation key rest : List Char}
    (leaves : Leaves abbreviation key rest) : unmatchedPart abbreviation key <:+ rest := by
  obtain ⟨front, rfl, within⟩ := leaves
  induction front generalizing key with
  | nil =>
    obtain ⟨front, whole, -⟩ := leaves_unmatchedPart rest key
    exact ⟨front, whole⟩
  | cons wanted front ih =>
    obtain ⟨passed, behind, rfl, inFront⟩ :=
      List.eq_append_cons_of_mem (within.subset List.mem_cons_self)
    rw [List.cons_append, unmatchedPart_found inFront]
    exact ih ((Tally.sublist_found_iff inFront).mp within)

/-- The leftover is the shortest text that stands behind a front part of the abbreviation that is a
subsequence of the key, and there is no other one of its length. Nothing is left over exactly of
the subsequences of the key. -/
theorem unmatchedPart_shortest (abbreviation key : List Char) :
    (∀ rest, unmatchedPart abbreviation key = rest ↔
      Leaves abbreviation key rest ∧
        ∀ other, Leaves abbreviation key other → rest.length ≤ other.length) ∧
    (unmatchedPart abbreviation key = [] ↔ abbreviation.Sublist key) := by
  refine ⟨fun rest => ⟨?_, ?_⟩, unmatchedPart_eq_nil_iff abbreviation key⟩
  · rintro rfl
    exact ⟨leaves_unmatchedPart abbreviation key,
      fun other leaves => leaves.unmatchedPart_suffix.length_le⟩
  · rintro ⟨leaves, least⟩
    have shorter := least _ (leaves_unmatchedPart abbreviation key)
    exact leaves.unmatchedPart_suffix.eq_of_length_le shorter

/-- The only `b` of the key is taken by the first one of the abbreviation. -/
example : unmatchedPart "abb".toList "cabc".toList = ['b'] := by decide

/-! ### Leftovers and scores -/

/-- Two texts begin with the same character when case is ignored. -/
def BeginAlike (left right : String) : Prop :=
  ∃ c, (lower left).toList.head? = some c ∧ (lower right).toList.head? = some c

/-- A match is a subsequence that begins alike. -/
theorem matches_iff_sublist {abbreviation name : List Char} :
    Tally.Matches false abbreviation name ↔
      (∃ c, abbreviation.head? = some c ∧ name.head? = some c) ∧ abbreviation.Sublist name := by
  constructor
  · intro matched
    obtain ⟨first, more, rest, rfl, rfl⟩ := matched.exists_cons
    have within : more.Sublist rest := matched.2.resolve_left Bool.false_ne_true
    exact ⟨⟨first, rfl, rfl⟩, within.cons_cons first⟩
  · rintro ⟨⟨first, begins, alike⟩, within⟩
    obtain ⟨more, rfl⟩ := List.head?_eq_some_iff.mp begins
    obtain ⟨rest, rfl⟩ := List.head?_eq_some_iff.mp alike
    exact ⟨rfl, .inr (List.cons_sublist_cons.mp within)⟩

/-- A score is not zero exactly if the texts begin alike and nothing is left over in lower case. -/
theorem score_ne_zero_iff_leftover (abbreviation key : String) :
    Scale.rational.score false abbreviation key ≠ 0 ↔
      BeginAlike abbreviation key ∧
        unmatchedPart (lower abbreviation).toList (lower key).toList = [] := by
  rw [score_matches, matches_iff_sublist, unmatchedPart_eq_nil_iff, BeginAlike]

/-- Without a leftover, a property is not rejected. -/
theorem resolveAsProperty_of_matched {config : Config} {database : Database}
    {snippet : PropertySnippet} {declaration : Declaration}
    (nothing : unmatchedPart (declaration.name.getD "").toList snippet.key.toList = []) :
    (resolveAsProperty config database snippet declaration).1 = true := by
  simp [resolveAsProperty, nothing]

/-- A leftover admits no value, and the declaration stays as it is. -/
theorem resolveAsProperty_of_leftover {config : Config} {database : Database}
    {snippet : PropertySnippet} {declaration : Declaration}
    (leftover : unmatchedPart (declaration.name.getD "").toList snippet.key.toList ≠ [])
    (valued : declaration.fragments ≠ []) :
    resolveAsProperty config database snippet declaration = (false, declaration) := by
  simp [resolveAsProperty, leftover, valued]

/-- Score and leftover agree in lower case: the score is not zero exactly if the texts begin alike
and their lower-case forms leave nothing over. Without a capital sigma, what leaves nothing over
always scores. For a key in lower case both agree about an abbreviation exactly if it does not score
or is in lower case itself. A declaration whose name leaves nothing over is never rejected, and one
with a value whose name leaves something over always is. -/
theorem leftover_agrees_iff (abbreviation key : String) :
    let leftover := unmatchedPart abbreviation.toList key.toList
    let score := Scale.rational.score false abbreviation key
    (score ≠ 0 ↔ BeginAlike abbreviation key ∧
      unmatchedPart (lower abbreviation).toList (lower key).toList = []) ∧
    ('Σ' ∉ abbreviation.toList → leftover = [] ∧ BeginAlike abbreviation key → score ≠ 0) ∧
    (lower key = key →
      ((leftover = [] ∧ BeginAlike abbreviation key ↔ score ≠ 0) ↔
        score = 0 ∨ lower abbreviation = abbreviation)) ∧
    ∀ (config : Config) (database : Database) (snippet : PropertySnippet)
      (declaration : Declaration),
      snippet.key = key → declaration.name = some abbreviation →
        (leftover = [] → (resolveAsProperty config database snippet declaration).1 = true) ∧
        (leftover ≠ [] → declaration.fragments ≠ [] →
          resolveAsProperty config database snippet declaration = (false, declaration)) := by
  intro leftover score
  have scores := score_ne_zero_iff_leftover abbreviation key
  refine ⟨scores, ?_, ?_, ?_⟩
  · rintro plain ⟨nothing, alike⟩
    have within := (unmatchedPart_eq_nil_iff _ _).mp nothing
    refine scores.mpr ⟨alike, (unmatchedPart_eq_nil_iff _ _).mpr ?_⟩
    rw [LetterCase.lower, LetterCase.lower, String.toList_ofList, String.toList_ofList]
    exact LetterCase.lowerFrom_sublist within plain [] []
  · intro small
    -- The leftover of a key in lower case is empty only for abbreviations in lower case.
    have smallPart : leftover = [] → lower abbreviation = abbreviation := by
      intro nothing
      have within := (unmatchedPart_eq_nil_iff _ _).mp nothing
      rw [LetterCase.lower_eq_self_iff] at small ⊢
      exact LetterCase.lowerFrom_eq_self_of_sublist within [] [] small
    constructor
    · intro agree
      by_cases nonzero : score = 0
      · exact .inl nonzero
      · exact .inr (smallPart (agree.mpr nonzero).1)
    · rintro (zero | same)
      · refine ⟨fun agree => ?_, fun nonzero => absurd zero nonzero⟩
        refine scores.mpr ⟨agree.2, ?_⟩
        rw [smallPart agree.1, small]
        exact agree.1
      · rw [same, small] at scores
        exact and_comm.trans scores.symm
  · rintro config database snippet declaration rfl named
    have sameName : declaration.name.getD "" = abbreviation := by rw [named, Option.getD_some]
    refine ⟨fun nothing => ?_, fun left valued => ?_⟩
    · exact resolveAsProperty_of_matched (by rw [sameName]; exact nothing)
    · exact resolveAsProperty_of_leftover (by rw [sameName]; exact left) valued

/-- A capital in front of a key in lower case is left over, although the key scores. -/
theorem leftover_of_capital :
    lower "display" = "display" ∧ BeginAlike "D" "display" ∧
      Scale.rational.score false "D" "display" ≠ 0 ∧
      unmatchedPart "D".toList "display".toList = ['D'] ∧
      ¬(unmatchedPart "D".toList "display".toList = [] ∧ BeginAlike "D" "display" ↔
        Scale.rational.score false "D" "display" ≠ 0) := by
  obtain ⟨scores, -, agrees, -⟩ := leftover_agrees_iff "D" "display"
  have small : lower "display" = "display" := by decide
  have alike : BeginAlike "D" "display" := ⟨'d', by decide, by decide⟩
  have nonzero : Scale.rational.score false "D" "display" ≠ 0 := scores.mpr ⟨alike, by decide⟩
  have capital : lower "D" ≠ "D" := by decide
  refine ⟨small, alike, nonzero, by decide, fun agree => ?_⟩
  exact ((agrees small).mp agree).elim nonzero capital

end Shorthand.Stylesheet
