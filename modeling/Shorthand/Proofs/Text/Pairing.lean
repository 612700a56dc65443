import Mathlib.Data.List.Infix

/-!
# Marks that come in pairs

`depthBehind?` follows how deep a list leads into pairs of marks, and gives up at a mark that
closes what was never opened. Where it does not give up, no beginning of the list closes more
than it opens. Texts in which all braces are paired are `Balanced`.
-/

namespace Shorthand.Pairing

section

variable {α : Type} {opens closes : α → Bool}

/-- The depth behind a list that begins at a depth, unless it closes more than is open. -/
def depthBehind? (opens closes : α → Bool) (depth : Nat) : List α → Option Nat
  | [] => some depth
  | first :: rest =>
    if opens first then
      depthBehind? opens closes (depth + 1) rest
    else if closes first then
      match depth with
      | 0 => none
      | outer + 1 => depthBehind? opens closes outer rest
    else
      depthBehind? opens closes depth rest

/-- The depth behind two pieces is that behind the second, from the depth behind the first. -/
theorem depthBehind?_append (depth : Nat) (front rest : List α) :
    depthBehind? opens closes depth (front ++ rest) =
      (depthBehind? opens closes depth front).bind fun between =>
        depthBehind? opens closes between rest := by
  induction front generalizing depth with
  | nil => rfl
  | cons first others ih =>
    simp only [List.cons_append, depthBehind?]
    split
    · exact ih (depth + 1)
    · split
      · cases depth with
        | zero => rfl
        | succ outer => exact ih outer
      · exact ih depth

/-- A list leads as far from any depth further out. -/
theorem depthBehind?_add (outer : Nat) {depth behind : Nat} {list : List α}
    (reached : depthBehind? opens closes depth list = some behind) :
    depthBehind? opens closes (outer + depth) list = some (outer + behind) := by
  induction list generalizing depth with
  | nil =>
    cases reached
    rfl
  | cons first rest ih =>
    simp only [depthBehind?] at reached ⊢
    split at reached
    case isTrue opening =>
      rw [if_pos opening]
      exact ih reached
    case isFalse noOpening =>
      rw [if_neg noOpening]
      split at reached
      case isTrue closing =>
        rw [if_pos closing]
        cases depth with
        | zero => cases reached
        | succ depth => exact ih reached
      case isFalse noClosing =>
        rw [if_neg noClosing]
        exact ih reached

/-- What neither opens nor closes leads no deeper. -/
theorem depthBehind?_neutral (depth : Nat) {list : List α}
    (neutral : ∀ item ∈ list, opens item = false ∧ closes item = false) :
    depthBehind? opens closes depth list = some depth := by
  induction list with
  | nil => rfl
  | cons first rest ih =>
    obtain ⟨noOpening, noClosing⟩ := neutral first List.mem_cons_self
    have others := ih fun item member => neutral item (List.mem_cons_of_mem first member)
    simp [depthBehind?, noOpening, noClosing, others]

/-- The depth counts what was opened and not closed. -/
theorem countP_of_depthBehind? (apart : ∀ item, opens item → closes item = false)
    {depth behind : Nat} {list : List α}
    (reached : depthBehind? opens closes depth list = some behind) :
    list.countP closes + behind = list.countP opens + depth := by
  induction list generalizing depth with
  | nil =>
    cases reached
    simp
  | cons first rest ih =>
    simp only [depthBehind?] at reached
    split at reached
    case isTrue opening =>
      have counted := ih reached
      simp only [List.countP_cons, opening, apart first opening, if_true, Bool.false_eq_true,
        if_false]
      omega
    case isFalse noOpening =>
      split at reached
      case isTrue closing =>
        cases depth with
        | zero => cases reached
        | succ outer =>
          have counted := ih reached
          simp only [List.countP_cons, noOpening, closing, if_true, Bool.false_eq_true, if_false]
          omega
      case isFalse noClosing =>
        have counted := ih reached
        simp only [List.countP_cons, noOpening, noClosing, Bool.false_eq_true, if_false]
        omega

/-- No beginning of a list closes more than it opens. -/
theorem countP_le_of_prefix (apart : ∀ item, opens item → closes item = false) {behind : Nat}
    {list front : List α} (reached : depthBehind? opens closes 0 list = some behind)
    (begins : front <+: list) : front.countP closes ≤ front.countP opens := by
  obtain ⟨rest, rfl⟩ := begins
  rw [depthBehind?_append, Option.bind_eq_some_iff] at reached
  obtain ⟨between, reachedFront, _⟩ := reached
  have counted := countP_of_depthBehind? apart reachedFront
  omega

end

/-- How deep a text leads into braces. -/
def braceDepth? (depth : Nat) (text : List Char) : Option Nat :=
  depthBehind? (· == '{') (· == '}') depth text

/-- Only a brace that closes what is not open leads nowhere. -/
theorem braceDepth?_singleton_eq_none {depth : Nat} {c : Char}
    (stuck : braceDepth? depth [c] = none) : c = '}' ∧ depth = 0 := by
  simp only [braceDepth?, depthBehind?, beq_iff_eq] at stuck
  split at stuck
  · cases stuck
  · split at stuck
    case isTrue isClosing =>
      cases depth with
      | zero => exact ⟨isClosing, rfl⟩
      | succ outer => cases stuck
    case isFalse => cases stuck

/-- Every brace of a text is one of a pair. -/
def Balanced (text : List Char) : Prop := braceDepth? 0 text = some 0

instance (text : List Char) : Decidable (Balanced text) :=
  inferInstanceAs (Decidable (braceDepth? 0 text = some 0))

end Shorthand.Pairing
