import Shorthand.Proofs.Markup.Budget.Meter

/-!
# How far a budget is overdrawn

A copy that is begun is finished, even when the budget runs out within it, so nested repeats
may overdraw the budget. `Bill` says by how much: while something is left, every copy has been
paid for; once nothing is left, every repeat of the source makes at most one more copy. The
nodes are bounded with the copies, as a copy adds at most one node for each element.
-/

namespace Shorthand.Markup

/-! ### Sizes -/

mutual

/-- The number of elements of a tree. -/
def Node.size : Node → Nat
  | .node _ children => Node.sizeAll children + 1

/-- The number of elements of some trees. -/
def Node.sizeAll : List Node → Nat
  | [] => 0
  | first :: rest => first.size + Node.sizeAll rest

end

mutual

/-- The number of elements written in a statement. -/
def Statement.elementCount : Statement → Nat
  | .element _ children => Statement.elementCountAll children + 1
  | .group members _ => Statement.elementCountAll members

/-- The number of elements written in some statements. -/
def Statement.elementCountAll : List Statement → Nat
  | [] => 0
  | first :: rest => first.elementCount + Statement.elementCountAll rest

end

mutual

/-- The number of repeated elements and groups written in a statement. -/
def Statement.repeatCount : Statement → Nat
  | .element head children =>
    Statement.repeatCountAll children + head.repetition.isSome.toNat
  | .group members repetition =>
    Statement.repeatCountAll members + repetition.isSome.toNat

/-- The number of repeated elements and groups written in some statements. -/
def Statement.repeatCountAll : List Statement → Nat
  | [] => 0
  | first :: rest => first.repeatCount + Statement.repeatCountAll rest

end

namespace Node

/-- The nodes in a row are counted one by one. -/
@[simp] theorem sizeAll_append (left right : List Node) :
    sizeAll (left ++ right) = sizeAll left + sizeAll right := by
  induction left with
  | nil => simp [sizeAll]
  | cons first rest ih => simp [sizeAll, ih, Nat.add_assoc]

mutual

/-- A change of the deepest element into one node leaves the number of nodes. -/
theorem size_mapDeepest {change : Element → Node} (single : ∀ element, (change element).size = 1)
    (node : Node) : (mapDeepest change node).size = node.size := by
  cases node with
  | node element children =>
    cases children with
    | nil => simp [mapDeepest, single, size, sizeAll]
    | cons first rest =>
      simp only [mapDeepest, size, sizeAll_mapLastDeepest single (first :: rest)]

/-- Filling the deepest element in keeps the number of elements. -/
theorem sizeAll_mapLastDeepest {change : Element → Node}
    (single : ∀ element, (change element).size = 1) (nodes : List Node) :
    sizeAll (mapLastDeepest change nodes) = sizeAll nodes := by
  match nodes with
  | [] => rfl
  | [last] => simp only [mapLastDeepest, sizeAll, size_mapDeepest single last]
  | first :: second :: rest =>
    simp only [mapLastDeepest, sizeAll, sizeAll_mapLastDeepest single (second :: rest)]

end

end Node

/-- An element is one node more than those below it. -/
@[simp] theorem Element.sizeAll_over (element : Element) (below : List Node) :
    Node.sizeAll (element.over below) = Node.sizeAll below + 1 := by
  unfold Element.over
  split
  case isTrue => simp only [Node.sizeAll, Node.size, Nat.zero_add, Nat.add_comm]
  case isFalse => simp only [Node.sizeAll, Node.size, Nat.add_zero]

/-- Marking which copy nodes are leaves their number. -/
@[simp] theorem sizeAll_markIteration (iteration : Option Iteration) (nodes : List Node) :
    Node.sizeAll (markIteration iteration nodes) = Node.sizeAll nodes := by
  induction nodes with
  | nil => rfl
  | cons first rest ih =>
    unfold markIteration at ih ⊢
    cases first
    simp only [List.map_cons, Node.sizeAll, Node.mapElement, Node.size, ih]

/-- Filling a copy with its text leaves the number of nodes. -/
@[simp] theorem sizeAll_fillCopy (options : ReadOptions) (iteration : Iteration)
    (nodes : List Node) (progress : Progress) :
    Node.sizeAll (fillCopy options iteration nodes progress).1 = Node.sizeAll nodes := by
  unfold fillCopy
  split
  case h_1 => rfl
  case h_2 =>
    split
    case isTrue => rfl
    case isFalse => exact Node.sizeAll_mapLastDeepest (fun _ => rfl) nodes

/-! ### A bounded budget -/

/-- How a budget pays for copies: those that are made and what is left exceed it by at most
one copy for each repeat, and only when nothing is left. -/
structure Bill (budget repeats more left : Nat) : Prop where
  within : more + left ≤ budget + repeats
  paid : left ≠ 0 → more + left = budget

namespace Bill

variable {budget repeats repeats' more more' left left' : Nat}

/-- What repeats nothing costs nothing. -/
theorem idle : Bill budget 0 0 budget := ⟨by omega, by omega⟩

/-- Bills one after the other add up. -/
theorem trans (first : Bill budget repeats more left) (second : Bill left repeats' more' left') :
    Bill budget (repeats + repeats') (more + more') left' := by
  obtain ⟨firstWithin, firstPaid⟩ := first
  obtain ⟨secondWithin, secondPaid⟩ := second
  exact ⟨by omega, by omega⟩

/-- The copy of a repeat is counted when it is finished. Only this one may be unpaid: the
repeat goes on only if something is left. -/
theorem spend (bill : Bill budget repeats more left) :
    Bill budget (repeats + 1) (more + 1) (left - 1) := by
  obtain ⟨within, paid⟩ := bill
  exact ⟨by omega, by omega⟩

/-- Further copies of the same repeat, made while something was left, add no debt. -/
theorem again (bill : Bill budget repeats more left) (unspent : left - 1 ≠ 0)
    (others : Bill (left - 1) (repeats + 1) more' left') :
    Bill budget (repeats + 1) (more + 1 + more') left' := by
  obtain ⟨within, paid⟩ := bill
  obtain ⟨othersWithin, othersPaid⟩ := others
  exact ⟨by omega, by omega⟩

end Bill

/-- A run from a bounded budget makes copies as the budget pays for them, and for each copy at
most as many nodes as there are elements. -/
def Bounded (elements repeats : Nat) (run : Progress → List Node × Progress) : Prop :=
  ∀ progress budget, progress.budget = some budget → ∃ more left,
    (run progress).2.budget = some left ∧ (run progress).2.made = progress.made + more ∧
    Bill budget repeats more left ∧ Node.sizeAll (run progress).1 ≤ (more + 1) * elements

/-- A finished copy is one copy more than those that are made inside of it. -/
theorem finishedCopy_bounded (options : ReadOptions)
    {copy : Iteration → Progress → List Node × Progress} {iteration : Iteration}
    {elements repeats : Nat} (one : Bounded elements repeats (copy iteration))
    (progress : Progress) (budget : Nat) (bounded : progress.budget = some budget) :
    ∃ more left, (finishedCopy options copy iteration progress).2.budget = some (left - 1) ∧
      (finishedCopy options copy iteration progress).2.made = progress.made + (more + 1) ∧
      Bill budget repeats more left ∧
      Node.sizeAll (finishedCopy options copy iteration progress).1 ≤ (more + 1) * elements := by
  obtain ⟨more, left, budgetLeft, madeMore, bill, size⟩ := one progress budget bounded
  refine ⟨more, left, ?_, ?_, bill, ?_⟩
  · simp only [finishedCopy, Progress.spend, fillCopy_budget, budgetLeft, Option.map_some]
  · simp only [finishedCopy, Progress.spend, fillCopy_made, madeMore, Nat.add_assoc]
  · simpa only [finishedCopy, sizeAll_fillCopy] using size

/-- Each copy of a repeat pays for its own nodes. -/
theorem copiesFrom_bounded (options : ReadOptions) (iteration : Iteration)
    (copy : Iteration → Progress → List Node × Progress) {elements repeats : Nat}
    (one : ∀ index, Bounded elements repeats (copy { iteration with index })) (remaining : Nat)
    (progress : Progress) (budget : Nat) (bounded : progress.budget = some budget) :
    ∃ more left, (copiesFrom options iteration copy remaining progress).2.budget = some left ∧
      (copiesFrom options iteration copy remaining progress).2.made = progress.made + more ∧
      Bill budget (repeats + 1) more left ∧
      Node.sizeAll (copiesFrom options iteration copy remaining progress).1 ≤
        more * elements := by
  induction remaining generalizing progress budget with
  | zero =>
    exact ⟨0, budget, bounded, rfl, ⟨by omega, by omega⟩, by simp [copiesFrom, Node.sizeAll]⟩
  | succ remaining ih =>
    obtain ⟨more, left, budgetLeft, madeMore, bill, size⟩ :=
      finishedCopy_bounded options (one (iteration.count - (remaining + 1))) progress budget
        bounded
    rw [copiesFrom_succ]
    generalize finishedCopy options copy _ progress = next at budgetLeft madeMore size ⊢
    by_cases spent : left - 1 = 0
    · have isSpent : next.2.isSpent = true := by simp [Progress.isSpent, budgetLeft, spent]
      simp only [isSpent, if_true]
      exact ⟨more + 1, left - 1, budgetLeft, madeMore, bill.spend, size⟩
    · have unspent : next.2.isSpent = false := by simp [Progress.isSpent, budgetLeft, spent]
      obtain ⟨more', left', budgetLeft', madeMore', bill', size'⟩ := ih next.2 (left - 1) budgetLeft
      simp only [unspent, Bool.false_eq_true, if_false]
      refine ⟨more + 1 + more', left', budgetLeft', by omega, bill.again spent bill', ?_⟩
      rw [Node.sizeAll_append, Nat.add_mul]
      exact Nat.add_le_add size size'

/-- The copies that a statement is unrolled to. -/
theorem copies_bounded (options : ReadOptions) (enclosing : List Iteration)
    (repetition : Option Repeat)
    {copy : List Iteration → Option Iteration → Progress → List Node × Progress}
    {elements repeats : Nat}
    (one : ∀ around iteration, Bounded elements repeats (copy around iteration)) :
    Bounded elements (repeats + repetition.isSome.toNat)
      (copies options enclosing repetition copy) := by
  cases repetition with
  | none => exact one enclosing none
  | some repetition =>
    intro progress budget bounded
    obtain ⟨more, left, budgetLeft, madeMore, bill, size⟩ :=
      copiesFrom_bounded options ⟨copyCount options repetition, 0, repetition.isImplicit⟩
        (fun iteration => copy (iteration :: enclosing) (some iteration)) (fun _ => one _ _)
        (copyCount options repetition) progress budget bounded
    refine ⟨more, left, ?_, ?_, bill, Nat.le_trans size (Nat.mul_le_mul_right _ (Nat.le_succ _))⟩
    · simp only [copies, apply_ite Progress.budget, Progress.insert, ite_self, budgetLeft]
    · simp only [copies, apply_ite Progress.made, Progress.insert, ite_self, madeMore]

/-- An element adds itself to what stands below it. -/
theorem elementCopy_bounded (options : ReadOptions) (head : Head) (enclosing : List Iteration)
    (iteration : Option Iteration) {children : Progress → List Node × Progress}
    {elements repeats : Nat} (below : Bounded elements repeats children) :
    Bounded (elements + 1) repeats
      (elementCopy options head enclosing iteration children) := by
  intro progress budget bounded
  rw [elementCopy_eq]
  obtain ⟨more, left, budgetLeft, madeMore, bill, size⟩ :=
    below (headTexts options enclosing head progress).2 budget
      (by rw [headTexts_budget, bounded])
  refine ⟨more, left, ?_, ?_, bill, ?_⟩
  · rw [attributesOfTokens_budget, budgetLeft]
  · rw [attributesOfTokens_made, madeMore, headTexts_made]
  · rw [Element.sizeAll_over, Nat.mul_add, Nat.mul_one]
    omega

/-- A group adds nothing to its members. -/
theorem groupCopy_bounded (iteration : Option Iteration)
    {members : Progress → List Node × Progress} {elements repeats : Nat}
    (inner : Bounded elements repeats members) :
    Bounded elements repeats (groupCopy iteration members) := by
  intro progress budget bounded
  obtain ⟨more, left, budgetLeft, madeMore, bill, size⟩ := inner progress budget bounded
  exact ⟨more, left, budgetLeft, madeMore, bill, by simpa only [groupCopy, sizeAll_markIteration]⟩

mutual

/-- Unrolling a statement overdraws by what one pass over it can cost. -/
theorem unroll_bounded (options : ReadOptions) (statement : Statement)
    (enclosing : List Iteration) :
    Bounded statement.elementCount statement.repeatCount
      (unroll options enclosing statement) := by
  cases statement with
  | element head children =>
    exact copies_bounded options enclosing head.repetition fun around iteration =>
      elementCopy_bounded options head around iteration
        (unrollAll_bounded options children around)
  | group members repetition =>
    rw [unroll_group]
    exact copies_bounded options enclosing repetition fun around iteration =>
      groupCopy_bounded iteration (unrollAll_bounded options members around)

/-- Statements share the budget one after the other. -/
theorem unrollAll_bounded (options : ReadOptions) (statements : List Statement)
    (enclosing : List Iteration) :
    Bounded (Statement.elementCountAll statements) (Statement.repeatCountAll statements)
      (unrollAll options enclosing statements) := by
  intro progress budget bounded
  cases statements with
  | nil => exact ⟨0, budget, bounded, rfl, .idle, by simp [unrollAll, Node.sizeAll]⟩
  | cons first rest =>
    obtain ⟨more, left, budgetLeft, madeMore, bill, size⟩ :=
      unroll_bounded options first enclosing progress budget bounded
    obtain ⟨more', left', budgetLeft', madeMore', bill', size'⟩ :=
      unrollAll_bounded options rest enclosing _ left budgetLeft
    refine ⟨more + more', left', budgetLeft', ?_, bill.trans bill', ?_⟩
    · simp only [unrollAll, madeMore', madeMore, Nat.add_assoc]
    · calc Node.sizeAll (unrollAll options enclosing (first :: rest) progress).1
          ≤ (more + 1) * first.elementCount + (more' + 1) * Statement.elementCountAll rest := by
            simpa only [unrollAll, Node.sizeAll_append] using Nat.add_le_add size size'
        _ ≤ (more + more' + 1) * first.elementCount +
            (more + more' + 1) * Statement.elementCountAll rest :=
          Nat.add_le_add (Nat.mul_le_mul_right _ (by omega)) (Nat.mul_le_mul_right _ (by omega))
        _ = (more + more' + 1) * Statement.elementCountAll (first :: rest) :=
          (Nat.mul_add _ _ _).symm

end

end Shorthand.Markup
