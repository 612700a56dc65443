import Mathlib.Data.List.Forall2
import Shorthand.Stylesheet.Resolution

/-!
# Declarations that nothing matches

A declaration is matched or it stays as it was written: whatever rejects it, no change of its name
or values is left behind. Only numbers get their units, and only those outside of calls.
-/

namespace Shorthand.Stylesheet

/-- What finds a snippet, or none, for a declaration without a value scope. -/
def bestSnippet? (config : Config) (database : Database) (name : String) :
    Option (Snippet × Float) :=
  Scale.float.best? Snippet.key config.options.stylesheet.minScore
    (!config.options.stylesheet.strictMatch) name database.snippets

/-- Why a declaration is not matched. -/
inductive Unmatched (config : Config) (database : Database) (declaration : Declaration) : Prop where
  | unnamed (nameless : declaration.name = none)
  /-- No snippet is similar enough. -/
  | unknown {name : String} (named : declaration.name = some name)
      (nothing : bestSnippet? config database name = none)
  /-- The best snippet leaves a part of the name that is no keyword, or stands beside a value. -/
  | leftover {name : String} {snippet : PropertySnippet} {score : Float} {left : List Char}
      (named : declaration.name = some name)
      (best : bestSnippet? config database name = some (.property snippet, score))
      (leaves : unmatchedPart name.toList snippet.key.toList = left) (filled : left ≠ [])
      (rejects : declaration.fragments ≠ [] ∨
        resolveKeyword config database (some snippet) 0.0 (String.ofList left) = none)

/-- Two tokens that differ at most in the unit of a number. -/
inductive SameButUnit : ValueToken → ValueToken → Prop where
  | same (token : ValueToken) : SameButUnit token token
  | unit (value : Float) (raw before after : String) :
      SameButUnit (.number value raw before) (.number value raw after)

/-- Two declarations that differ at most in the units of numbers outside of calls. -/
structure Declaration.SameButUnits (first second : Declaration) : Prop where
  name : first.name = second.name
  isImportant : first.isImportant = second.isImportant
  fragments : List.Forall₂ (List.Forall₂ SameButUnit) first.fragments second.fragments

/-- Declarations that are the same but for units have as many fragments. -/
theorem Declaration.SameButUnits.length_eq {first second : Declaration}
    (same : first.SameButUnits second) : first.fragments.length = second.fragments.length :=
  same.fragments.length_eq

/-- A declaration is the same as itself. -/
theorem Declaration.SameButUnits.refl (declaration : Declaration) :
    declaration.SameButUnits declaration where
  name := rfl
  isImportant := rfl
  fragments := List.forall₂_same.mpr fun _ _ =>
    List.forall₂_same.mpr fun token _ => .same token

/-! ### Units -/

/-- Completing the unit of a token changes nothing else of it. -/
theorem sameButUnit_resolveUnit (options : StylesheetOptions) (isUnitless : Bool)
    (token : ValueToken) : SameButUnit token (resolveUnit options isUnitless token) := by
  cases token with
  | number value raw unit =>
    rw [resolveUnit]
    split_ifs <;> exact .unit value raw unit _
  | literal | customProperty | color | quoted | field | call => exact .same _

/-- Completing the units of a declaration changes nothing else of it. -/
theorem sameButUnits_resolveUnits (config : Config) (declaration : Declaration) :
    declaration.SameButUnits (resolveUnits config declaration) where
  name := rfl
  isImportant := rfl
  fragments := by
    rw [resolveUnits, List.forall₂_map_right_iff]
    refine List.forall₂_same.mpr fun fragment _ => ?_
    rw [List.forall₂_map_right_iff]
    exact List.forall₂_same.mpr fun token _ => sameButUnit_resolveUnit _ _ token

/-! ### Rejections -/

section

variable {config : Config} {database : Database} {declaration : Declaration}

/-- A property is rejected exactly for a part of the name that is left over. -/
theorem resolveAsProperty_rejects_iff {snippet : PropertySnippet} {name : String}
    (named : declaration.name = some name) :
    (resolveAsProperty config database snippet declaration).1 = false ↔
      unmatchedPart name.toList snippet.key.toList ≠ [] ∧
        (declaration.fragments ≠ [] ∨ resolveKeyword config database (some snippet) 0.0
          (String.ofList (unmatchedPart name.toList snippet.key.toList)) = none) := by
  rw [resolveAsProperty, named, Option.getD_some]
  generalize unmatchedPart name.toList snippet.key.toList = left
  by_cases filled : left = []
  · simp [filled]
  · by_cases valued : declaration.fragments = []
    · cases resolveKeyword config database (some snippet) 0.0 (String.ofList left) <;>
        simp [filled, valued]
    · simp [filled, valued]

/-- Nothing is changed before a property is rejected. -/
theorem resolveAsProperty_rejected {snippet : PropertySnippet}
    (rejected : (resolveAsProperty config database snippet declaration).1 = false) :
    (resolveAsProperty config database snippet declaration).2 = declaration := by
  rw [resolveAsProperty] at rejected ⊢
  generalize String.ofList _ = left at rejected ⊢
  by_cases filled : left.isEmpty
  · simp [filled] at rejected
  · by_cases valued : declaration.fragments = []
    · cases keyword : resolveKeyword config database (some snippet) 0.0 left with
      | none => simp [filled, valued]
      | some found => simp [filled, valued, keyword] at rejected
    · simp [filled, valued]

section

variable (unscoped : valueScope? config = none) (noGradient : gradientArguments? declaration = none)

include unscoped noGradient

/-- A declaration without a name is not looked up. -/
theorem lookUp_unnamed (nameless : declaration.name = none) :
    lookUp config database declaration = ⟨declaration, false, false⟩ := by
  simp only [lookUp, resolveGradient?, noGradient, Option.map_none, unscoped, nameless]

/-- A declaration with a name is looked up under it. -/
theorem lookUp_named {name : String} (named : declaration.name = some name) :
    lookUp config database declaration =
      match bestSnippet? config database name with
      | none => ⟨declaration, false, false⟩
      | some (.raw _ text, _) => ⟨resolveAsRaw text declaration, true, true⟩
      | some (.property snippet, _) =>
        let (isMatched, resolved) := resolveAsProperty config database snippet declaration
        ⟨resolved, false, isMatched⟩ := by
  simp only [lookUp, resolveGradient?, noGradient, Option.map_none, unscoped, named]
  rfl

/-- What nothing matches is not changed. -/
theorem lookUp_of_unmatched (unmatched : Unmatched config database declaration) :
    lookUp config database declaration = ⟨declaration, false, false⟩ := by
  cases unmatched with
  | unnamed nameless => exact lookUp_unnamed unscoped noGradient nameless
  | unknown named nothing => rw [lookUp_named unscoped noGradient named, nothing]
  | leftover named best leaves filled rejects =>
    subst leaves
    have rejected := (resolveAsProperty_rejects_iff named).mpr ⟨filled, rejects⟩
    have kept := resolveAsProperty_rejected rejected
    rw [lookUp_named unscoped noGradient named, best]
    simp only [rejected, kept]

end

/-- What is not matched is neither a gradient nor matched by a snippet. -/
theorem unmatched_of_lookUp (unscoped : valueScope? config = none)
    (failed : (lookUp config database declaration).isMatched = false) :
    gradientArguments? declaration = none ∧ Unmatched config database declaration := by
  cases gradient : gradientArguments? declaration with
  | some arguments => simp [lookUp, resolveGradient?, gradient] at failed
  | none =>
    refine ⟨rfl, ?_⟩
    cases named : declaration.name with
    | none => exact .unnamed named
    | some name =>
      rw [lookUp_named unscoped gradient named] at failed
      cases best : bestSnippet? config database name with
      | none => exact .unknown named best
      | some found =>
        rw [best] at failed
        obtain ⟨snippet, score⟩ := found
        cases snippet with
        | raw key text => exact absurd failed Bool.noConfusion
        | property snippet =>
          obtain ⟨filled, rejects⟩ := (resolveAsProperty_rejects_iff named).mp failed
          exact .leftover named best rfl filled rejects

/-- Resolving changes at most units behind the look-up. -/
theorem resolve_lookUp (config : Config) (database : Database) (declaration : Declaration) :
    let found := lookUp config database declaration
    let resolved := resolve config database declaration
    resolved.isMatched = found.isMatched ∧ resolved.isRaw = found.isRaw ∧
      found.declaration.SameButUnits resolved.declaration := by
  intro found resolved
  simp only [resolved, resolve]
  split_ifs
  · exact ⟨rfl, rfl, sameButUnits_resolveUnits config found.declaration⟩
  · exact ⟨rfl, rfl, .refl found.declaration⟩

/-- Outside of values, a declaration is not matched exactly if it is no gradient and has no name,
no snippet is found for its name, or the best one leaves a part of it that is rejected. Then it is
not raw, and it is the declaration that was written but for the units of numbers outside of
calls. -/
theorem unmatched_kept {config : Config} (database : Database) (declaration : Declaration)
    (unscoped : valueScope? config = none) :
    let resolved := resolve config database declaration
    (resolved.isMatched = false ↔
      gradientArguments? declaration = none ∧ Unmatched config database declaration) ∧
    (resolved.isMatched = false →
      resolved.isRaw = false ∧ declaration.SameButUnits resolved.declaration ∧
        resolved.declaration.fragments.length = declaration.fragments.length) := by
  intro resolved
  obtain ⟨isMatched, isRaw, same⟩ := resolve_lookUp config database declaration
  have reasons : resolved.isMatched = false ↔
      gradientArguments? declaration = none ∧ Unmatched config database declaration := by
    rw [isMatched]
    refine ⟨unmatched_of_lookUp unscoped, fun reasons => ?_⟩
    rw [lookUp_of_unmatched unscoped reasons.1 reasons.2]
  refine ⟨reasons, fun failed => ?_⟩
  obtain ⟨noGradient, unmatched⟩ := reasons.mp failed
  have kept := lookUp_of_unmatched unscoped noGradient unmatched
  rw [kept] at isRaw same
  exact ⟨isRaw, same, same.length_eq.symm⟩

end

/-- A value beside a name that goes on behind its key: the best snippet is rejected, and the number
that is no argument gets a unit. -/
theorem unmatched_kept_rejected :
    let config := Config.ofSettings { Settings.blank with language := some .stylesheet }
    let database := Database.ofTable (.ofList [("d", "display:block|none")])
    let argument := ValueToken.call "f" [[.number 1 "1" ""]]
    let declaration : Declaration := ⟨some "dx", [[.number 10 "10" "", argument]], true⟩
    let resolved := resolve config database declaration
    valueScope? config = none ∧ resolved.isMatched = false ∧
      (bestSnippet? config database "dx").isSome ∧ resolved.isRaw = false ∧
      declaration.SameButUnits resolved.declaration ∧
      resolved.declaration.fragments = [[.number 10 "10" "px", argument]] := by
  intro config database argument declaration resolved
  have unscoped : valueScope? config = none := rfl
  have failed : resolved.isMatched = false := by decide +kernel
  obtain ⟨reasons, keeps⟩ := unmatched_kept database declaration unscoped
  obtain ⟨isRaw, same, -⟩ := keeps failed
  obtain ⟨noGradient, unmatched⟩ := reasons.mp failed
  have units : resolved.declaration = resolveUnits config declaration := by
    simp only [resolved, resolve, lookUp_of_unmatched unscoped noGradient unmatched]
    rfl
  refine ⟨unscoped, failed, by decide +kernel, isRaw, same, ?_⟩
  rw [units]
  with_unfolding_all rfl

end Shorthand.Stylesheet
