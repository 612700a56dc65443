import Shorthand.Proofs.Markup.Budget.Overdraft

/-!
# The budget of copies

All repeats of an abbreviation share one budget. It bounds the copies and the nodes linearly,
every repeat still makes its first copies in turn, and a budget for all copies is never
noticed. The main statement is `copies_withinLimit`.
-/

namespace Shorthand.Markup

/-! ### An ample budget -/

/-- A run without a bound, which makes at least so many copies, does the same from a budget
for all its copies and leaves the rest of it. -/
def Agrees (least : Nat) (guarded free : Progress → List Node × Progress) : Prop :=
  ∀ progress, progress.budget = none → ∃ total, least ≤ total ∧
    (free progress).2.budget = none ∧ (free progress).2.made = progress.made + total ∧
    ∀ budget made, total ≤ budget → guarded (progress.metered (some budget) made) =
      ((free progress).1, (free progress).2.metered (some (budget - total)) (made + total))

section Ample

variable (options : ReadOptions) (limit : Option Nat)

/-- A finished copy with a bound agrees with one without, as long as the bound is not reached. -/
theorem finishedCopy_agrees {iteration : Iteration}
    {guarded free : Iteration → Progress → List Node × Progress}
    (one : Agrees 0 (guarded iteration) (free iteration)) :
    Agrees 1 (finishedCopy (options.limited limit) guarded iteration)
      (finishedCopy options free iteration) := by
  intro progress unbounded
  obtain ⟨total, -, stays, counted, same⟩ := one progress unbounded
  refine ⟨total + 1, by omega, ?_, ?_, fun budget made ample => ?_⟩
  · simp only [finishedCopy, Progress.spend, fillCopy_budget, stays, Option.map_none]
  · simp only [finishedCopy, Progress.spend, fillCopy_made, counted, Nat.add_assoc]
  · simp only [finishedCopy, same budget made (by omega), fillCopy_idle options limit _ _ _ _ _]
    rfl

/-- As every copy that is left is paid for, the budget is not spent before the last one. -/
theorem copiesFrom_agrees (iteration : Iteration)
    (guarded free : Iteration → Progress → List Node × Progress)
    (one : ∀ index, Agrees 0 (guarded { iteration with index }) (free { iteration with index }))
    (remaining : Nat) :
    Agrees remaining (copiesFrom (options.limited limit) iteration guarded remaining)
      (copiesFrom options iteration free remaining) := by
  induction remaining with
  | zero => exact fun progress unbounded => ⟨0, Nat.le_refl 0, unbounded, rfl, fun _ _ _ => rfl⟩
  | succ remaining ih =>
    intro progress unbounded
    obtain ⟨total, copied, stays, counted, same⟩ :=
      finishedCopy_agrees options limit (one (iteration.count - (remaining + 1))) progress unbounded
    simp only [copiesFrom_succ]
    generalize finishedCopy options free _ progress = next at stays counted same ⊢
    obtain ⟨total', enough, stays', counted', same'⟩ := ih next.2 stays
    have unspent : next.2.isSpent = false := by simp [Progress.isSpent, stays]
    simp only [unspent, Bool.false_eq_true, if_false]
    refine ⟨total + total', by omega, stays', by omega, fun budget made ample => ?_⟩
    rw [same budget made (by omega)]
    by_cases spent : budget - total = 0
    · -- Only the last copy may spend the budget, and then nothing is left to make.
      have last : remaining = 0 := by omega
      subst last
      have idle : total' = 0 := by
        simpa [copiesFrom] using counted'
      simp [Progress.isSpent, spent, copiesFrom, idle]
    · have goesOn : (next.2.metered (some (budget - total)) (made + total)).isSpent = false := by
        simp [Progress.isSpent, spent]
      simp only [goesOn, Bool.false_eq_true, if_false,
        same' (budget - total) (made + total) (by omega), Nat.sub_sub, Nat.add_assoc]

/-- Copies agree if one does. -/
theorem copies_agrees (enclosing : List Iteration) (repetition : Option Repeat)
    (guarded free : List Iteration → Option Iteration → Progress → List Node × Progress)
    (one : ∀ around iteration, Agrees 0 (guarded around iteration) (free around iteration)) :
    Agrees 0 (copies (options.limited limit) enclosing repetition guarded)
      (copies options enclosing repetition free) := by
  cases repetition with
  | none => exact one enclosing none
  | some repetition =>
    intro progress unbounded
    obtain ⟨total, -, stays, counted, same⟩ :=
      copiesFrom_agrees options limit ⟨copyCount options repetition, 0, repetition.isImplicit⟩
        (fun iteration => guarded (iteration :: enclosing) (some iteration))
        (fun iteration => free (iteration :: enclosing) (some iteration)) (fun _ => one _ _)
        (copyCount options repetition) progress unbounded
    have sameCount : copyCount (options.limited limit) repetition = copyCount options repetition :=
      rfl
    refine ⟨total, Nat.zero_le total, ?_, ?_, fun budget made ample => ?_⟩
    · simp only [copies, apply_ite Progress.budget, Progress.insert, ite_self, stays]
    · simp only [copies, apply_ite Progress.made, Progress.insert, ite_self, counted]
    · simp only [copies, sameCount, same budget made ample]
      cases repetition.isImplicit <;> rfl

/-- An element agrees over children that do. -/
theorem elementCopy_agrees (head : Head) (enclosing : List Iteration)
    (iteration : Option Iteration) {guarded free : Progress → List Node × Progress}
    (below : Agrees 0 guarded free) :
    Agrees 0 (elementCopy (options.limited limit) head enclosing iteration guarded)
      (elementCopy options head enclosing iteration free) := by
  intro progress unbounded
  obtain ⟨total, -, stays, counted, same⟩ :=
    below (headTexts options enclosing head progress).2 (by rw [headTexts_budget, unbounded])
  simp only [elementCopy_eq]
  refine ⟨total, Nat.zero_le total, ?_, ?_, fun budget made ample => ?_⟩
  · rw [attributesOfTokens_budget, stays]
  · rw [attributesOfTokens_made, counted, headTexts_made]
  · simp only [headTexts_idle options limit enclosing head progress _ _, same budget made ample,
      attributesOfTokens_idle options limit enclosing _ _ _ _]

omit options limit in
/-- A group agrees over members that do. -/
theorem groupCopy_agrees (iteration : Option Iteration)
    {guarded free : Progress → List Node × Progress} (inner : Agrees 0 guarded free) :
    Agrees 0 (groupCopy iteration guarded) (groupCopy iteration free) := by
  intro progress unbounded
  obtain ⟨total, least, stays, counted, same⟩ := inner progress unbounded
  exact ⟨total, least, stays, counted, fun budget made ample => by
    simp only [groupCopy, same budget made ample]⟩

mutual

/-- A statement is unrolled in the same way as long as the bound is not reached. -/
theorem unroll_agrees (statement : Statement) (enclosing : List Iteration) :
    Agrees 0 (unroll (options.limited limit) enclosing statement)
      (unroll options enclosing statement) := by
  cases statement with
  | element head children =>
    exact copies_agrees options limit enclosing head.repetition _ _ fun around iteration =>
      elementCopy_agrees options limit head around iteration (unrollAll_agrees children around)
  | group members repetition =>
    simp only [unroll_group]
    exact copies_agrees options limit enclosing repetition _ _ fun around iteration =>
      groupCopy_agrees iteration (unrollAll_agrees members around)

/-- Statements are unrolled from an ample budget as without a bound. -/
theorem unrollAll_agrees (statements : List Statement) (enclosing : List Iteration) :
    Agrees 0 (unrollAll (options.limited limit) enclosing statements)
      (unrollAll options enclosing statements) := by
  intro progress unbounded
  cases statements with
  | nil => exact ⟨0, Nat.le_refl 0, unbounded, rfl, fun _ _ _ => rfl⟩
  | cons first rest =>
    obtain ⟨total, -, stays, counted, same⟩ := unroll_agrees first enclosing progress unbounded
    obtain ⟨total', -, stays', counted', same'⟩ := unrollAll_agrees rest enclosing _ stays
    refine ⟨total + total', Nat.zero_le _, stays', ?_, fun budget made ample => ?_⟩
    · simp only [unrollAll, counted', counted, Nat.add_assoc]
    · simp only [unrollAll, same budget made (by omega),
        same' (budget - total) (made + total) (by omega), Nat.sub_sub, Nat.add_assoc]

end

end Ample

/-! ### A single repeat -/

/-- Copies of the given numbers, one after the other and each finished. -/
def copiesInTurn (options : ReadOptions) (iteration : Iteration)
    (copy : Iteration → Progress → List Node × Progress) :
    List Nat → Progress → List Node × Progress
  | [], progress => ([], progress)
  | index :: rest, progress =>
    let next := finishedCopy options copy { iteration with index } progress
    let others := copiesInTurn options iteration copy rest next.2
    (next.1 ++ others.1, others.2)

/-- Copies are made in turn until the budget is spent, and at least one. -/
theorem copiesFrom_inTurn (options : ReadOptions) (iteration : Iteration)
    (copy : Iteration → Progress → List Node × Progress) {remaining : Nat}
    (positive : 0 < remaining) (left : remaining ≤ iteration.count) (progress : Progress) :
    ∃ made, 0 < made ∧ made ≤ remaining ∧
      copiesFrom options iteration copy remaining progress =
        copiesInTurn options iteration copy
          (List.range' (iteration.count - remaining) made) progress ∧
      (made < remaining →
        (copiesFrom options iteration copy remaining progress).2.isSpent = true) := by
  induction remaining generalizing progress with
  | zero => omega
  | succ remaining ih =>
    simp only [copiesFrom_succ]
    generalize finishedIs : finishedCopy options copy
      { iteration with index := iteration.count - (remaining + 1) } progress = next
    by_cases isSpent : next.2.isSpent = true
    · refine ⟨1, by omega, by omega, ?_, fun _ => ?_⟩
      · simp [isSpent, copiesInTurn, finishedIs]
      · simp [isSpent]
    · simp only [isSpent, Bool.false_eq_true, if_false]
      have numbers : iteration.count - (remaining + 1) + 1 = iteration.count - remaining := by
        omega
      cases remaining with
      | zero =>
        exact ⟨1, by omega, by omega, by simp [copiesInTurn, finishedIs, copiesFrom], by omega⟩
      | succ remaining =>
        obtain ⟨made, atLeast, atMost, inTurn, untilSpent⟩ :=
          ih (by omega) (by omega) next.2
        refine ⟨made + 1, by omega, by omega, ?_, fun fewer => untilSpent (by omega)⟩
        simp only [List.range'_succ, copiesInTurn, finishedIs, numbers, inTurn]

/-- A repeat makes at least one copy. -/
theorem copyCount_pos (options : ReadOptions) (repetition : Repeat) :
    0 < copyCount options repetition :=
  Nat.le_max_left 1 _

/-- A repeat makes its first copies in turn, all of them unless the budget is spent. -/
theorem copies_inTurn (options : ReadOptions) (enclosing : List Iteration) (repetition : Repeat)
    (copy : List Iteration → Option Iteration → Progress → List Node × Progress)
    (progress : Progress) :
    ∃ made run, 0 < made ∧ made ≤ copyCount options repetition ∧
      run = copiesInTurn options ⟨copyCount options repetition, 0, repetition.isImplicit⟩
        (fun iteration => copy (iteration :: enclosing) (some iteration)) (List.range made)
        progress ∧
      copies options enclosing (some repetition) copy progress =
        (run.1, if repetition.isImplicit then run.2.insert else run.2) ∧
      (made < copyCount options repetition → run.2.isSpent = true) := by
  obtain ⟨made, atLeast, atMost, inTurn, untilSpent⟩ :=
    copiesFrom_inTurn options ⟨copyCount options repetition, 0, repetition.isImplicit⟩
      (fun iteration => copy (iteration :: enclosing) (some iteration))
      (copyCount_pos options repetition) (Nat.le_refl _) progress
  rw [inTurn, Nat.sub_self, ← List.range_eq_range'] at untilSpent
  rw [Nat.sub_self, ← List.range_eq_range'] at inTurn
  exact ⟨made, _, atLeast, atMost, rfl, by simp only [copies, inTurn], untilSpent⟩

/-! ### The whole abbreviation -/

/-- Wrapping the text that nothing asked for keeps the number of elements. -/
theorem sizeAll_nodesOfStatements (options : ReadOptions) (found : List Statement) :
    Node.sizeAll (nodesOfStatements options found) =
      Node.sizeAll (unrollAll options [] found (.start options.maxRepeat)).1 := by
  simp only [nodesOfStatements]
  split
  case h_1 => rfl
  case h_2 =>
    split
    case isTrue => rfl
    case isFalse => exact Node.sizeAll_mapLastDeepest (fun _ => rfl) _

/-- Where the bound allows for all copies that are made without it, the nodes are the same. -/
theorem nodesOfStatements_agrees (options : ReadOptions) (found : List Statement) {limit : Nat}
    (ample : (unrollAll (options.limited none) [] found (.start none)).2.made ≤ limit) :
    nodesOfStatements (options.limited (some limit)) found =
      nodesOfStatements (options.limited none) found := by
  obtain ⟨total, -, -, counted, same⟩ :=
    unrollAll_agrees (options.limited none) (some limit) found [] (.start none) rfl
  have enough : total ≤ limit := by
    rw [counted] at ample
    exact Nat.le_trans (Nat.le_add_left _ _) ample
  have run : unrollAll (options.limited (some limit)) [] found
      (.start (options.limited (some limit)).maxRepeat) = _ := same limit 0 enough
  simp only [nodesOfStatements, run]
  rfl

/-- A bound on the copies keeps the work linear and is otherwise not seen. All repeats
together overdraw it by at most one copy each, so the nodes are at most as many as the
elements written for every copy and once more. A repeat makes its copies in turn, at least
one and at most as many as it asks for, and fewer only when the budget is spent. Where the
bound allows for all copies that are made without it, it changes nothing. -/
theorem copies_withinLimit (options : ReadOptions) {source : String} {found : List Statement}
    (read : statements options.jsx source = .ok found) (limit : Nat) :
    (unrollAll (options.limited (some limit)) [] found (.start (some limit))).2.made ≤
        limit + Statement.repeatCountAll found ∧
      (∃ result, nodes (options.limited (some limit)) source = .ok result ∧
        Node.sizeAll result ≤
          (limit + Statement.repeatCountAll found + 1) * Statement.elementCountAll found) ∧
      (∀ enclosing repetition copy progress, ∃ made run, 0 < made ∧
        made ≤ copyCount options repetition ∧
        run = copiesInTurn (options.limited (some limit))
          ⟨copyCount options repetition, 0, repetition.isImplicit⟩
          (fun iteration => copy (iteration :: enclosing) (some iteration)) (List.range made)
          progress ∧
        copies (options.limited (some limit)) enclosing (some repetition) copy progress =
          (run.1, if repetition.isImplicit then run.2.insert else run.2) ∧
        (made < copyCount options repetition → run.2.isSpent = true)) ∧
      ((unrollAll (options.limited none) [] found (.start none)).2.made ≤ limit →
        nodes (options.limited (some limit)) source = nodes (options.limited none) source) := by
  have readsSame (bound : Option Nat) :
      nodes (options.limited bound) source =
        .ok (nodesOfStatements (options.limited bound) found) := by
    simp only [nodes, ReadOptions.limited, read]
    rfl
  obtain ⟨more, left, -, made, bill, size⟩ :=
    unrollAll_bounded (options.limited (some limit)) found [] (.start (some limit)) limit rfl
  -- Every repeat makes a copy before it looks at the budget, so that each may pass the limit by
  -- one.
  have within : more ≤ limit + Statement.repeatCountAll found :=
    Nat.le_trans (Nat.le_add_right _ _) bill.within
  refine ⟨?_, ⟨_, readsSame _, ?_⟩, ?_, fun ample => ?_⟩
  · rw [made]
    simpa only [Progress.start, Nat.zero_add] using within
  · rw [sizeAll_nodesOfStatements]
    exact Nat.le_trans size (Nat.mul_le_mul_right _ (Nat.succ_le_succ within))
  · exact fun enclosing repetition copy progress =>
      copies_inTurn (options.limited (some limit)) enclosing repetition copy progress
  · rw [readsSame, readsSame, nodesOfStatements_agrees options found ample]

/-- In `(a*2>b*3)*2` a budget of two is overdrawn by at most the three repeats that are open,
and a budget of eighteen allows for all copies that are made without a bound. -/
theorem copies_withinLimit_nested :
    ∃ found, statements false "(a*2>b*3)*2" = .ok found ∧
      (unrollAll (ReadOptions.limited ⟨false, false, none, .empty, none⟩ (some 2)) [] found
        (.start (some 2))).2.made ≤ 2 + 3 ∧
      nodes (ReadOptions.limited ⟨false, false, none, .empty, none⟩ (some 18)) "(a*2>b*3)*2" =
        nodes (ReadOptions.limited ⟨false, false, none, .empty, none⟩ none) "(a*2>b*3)*2" := by
  have counts : (match statements false "(a*2>b*3)*2" with
      | .ok found => Statement.repeatCountAll found == 3 &&
        (unrollAll (ReadOptions.limited ⟨false, false, none, .empty, none⟩ none) [] found
          (.start none)).2.made == 18
      | .error _ => false) = true := by decide +kernel
  cases read : statements false "(a*2>b*3)*2" with
  | error fault => simp [read] at counts
  | ok found =>
    simp only [read, Bool.and_eq_true, beq_iff_eq] at counts
    have bounds := copies_withinLimit ⟨false, false, none, .empty, none⟩ read
    exact ⟨found, rfl, counts.1 ▸ (bounds 2).1, (bounds 18).2.2.2 (Nat.le_of_eq counts.2)⟩

end Shorthand.Markup
