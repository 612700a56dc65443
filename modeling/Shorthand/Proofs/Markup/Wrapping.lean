import Shorthand.Proofs.Markup.Budget
import Shorthand.Proofs.Markup.Likeness
import Shorthand.Proofs.Markup.Wrapping.Wrapper

/-!
# Wrapping lines

An abbreviation that holds no text of its own is wrapped around lines of text. With an implicit
repeat every line that is not blank becomes the text of one node, in order: the first implicit
repeat that has no other one inside of it makes a copy for each line, and all later copies find
the lines placed. Without an implicit repeat the whole text goes into the deepest element at the
end. The main statement is `nodes_wrapped`.
-/

namespace Shorthand.Markup

/-! ### Runs that place the lines -/

/-- What unrolling makes of a progress: the lines are placed if something repeats implicitly
and they are not placed yet. -/
structure Placed (lines : List String) (repeats : Bool) (progress : Progress)
    (outcome : List Node × Progress) : Prop where
  texts : Node.texts outcome.1 =
    if repeats && !progress.isInserted then lines.map fun line => [.text line] else []
  unbounded : outcome.2.budget = none
  inserted : outcome.2.isInserted = (progress.isInserted || repeats)
  used : outcome.2.isTextUsed = (progress.isTextUsed || (repeats && !progress.isInserted))

/-- A run without a bound places the lines if something in it repeats implicitly. -/
def Places (lines : List String) (repeats : Bool)
    (run : Progress → List Node × Progress) : Prop :=
  ∀ progress, progress.budget = none → Placed lines repeats progress (run progress)

namespace Placed

variable {lines : List String} {progress : Progress}

/-- Nothing is done. -/
theorem nothing (unbounded : progress.budget = none) : Placed lines false progress ([], progress) :=
  ⟨rfl, unbounded, by simp, by simp⟩

/-- What comes first places the lines if it can, and nothing behind it places them again. -/
theorem append {first rest : List Node × Progress} {repeats more : Bool}
    (one : Placed lines repeats progress first) (others : Placed lines more first.2 rest) :
    Placed lines (repeats || more) progress (first.1 ++ rest.1, rest.2) := by
  obtain ⟨texts, -, inserted, used⟩ := one
  obtain ⟨texts', unbounded', inserted', used'⟩ := others
  refine ⟨?_, unbounded', ?_, ?_⟩
  · rw [Node.texts_append, texts, texts', inserted]
    cases repeats <;> cases progress.isInserted <;> simp
  · rw [inserted', inserted, Bool.or_assoc]
  · rw [used', used, inserted]
    cases repeats <;> cases progress.isInserted <;> simp

/-- A copy is counted. -/
theorem spend {outcome : List Node × Progress} {repeats : Bool}
    (placed : Placed lines repeats progress outcome) :
    Placed lines repeats progress (outcome.1, outcome.2.spend) :=
  ⟨placed.texts, by rw [Progress.spend, placed.unbounded, Option.map_none], placed.inserted,
    placed.used⟩

/-- Behind an implicit repeat that had no lines to place, they are placed. -/
theorem insert {outcome : List Node × Progress} {repeats : Bool}
    (placed : Placed lines repeats progress outcome)
    (passed : (progress.isInserted || repeats) = true) :
    Placed lines true progress (outcome.1, outcome.2.insert) := by
  obtain ⟨texts, unbounded, inserted, used⟩ := placed
  refine ⟨?_, unbounded, by simp [Progress.insert], ?_⟩
  · rw [texts]
    cases waiting : progress.isInserted <;> simp_all
  · rw [Progress.insert, used]
    cases waiting : progress.isInserted <;> simp_all

/-- Without a bound on the copies nothing is spent. -/
theorem unspent {outcome : List Node × Progress} {repeats : Bool}
    (placed : Placed lines repeats progress outcome) : outcome.2.isSpent = false := by
  simp [Progress.isSpent, placed.unbounded]

end Placed

section Lines

variable (options : ReadOptions) {written : List String}

/-- A finished copy has placed the lines, or has had no need to. -/
theorem finishedCopy_passes {lines : List String} {iteration : Iteration} {repeats : Bool}
    {copy : Iteration → Progress → List Node × Progress}
    (one : Places lines repeats (copy iteration)) {progress : Progress}
    (unbounded : progress.budget = none)
    (passed : iteration.isImplicit = true → (progress.isInserted || repeats) = true) :
    Placed lines repeats progress (finishedCopy options copy iteration progress) := by
  have placed := one progress unbounded
  have passes : fillCopy options iteration (copy iteration progress).1 (copy iteration progress).2 =
      copy iteration progress :=
    fillCopy_passes options _ fun implicit => placed.inserted.trans (passed implicit)
  simp only [finishedCopy, passes]
  exact placed.spend

/-- Without an own implicit repeat that still has the lines to place, the copies place what the
first of them places. -/
theorem copiesFrom_passes {lines : List String} (iteration : Iteration) {repeats : Bool}
    (copy : Iteration → Progress → List Node × Progress)
    (one : ∀ index, Places lines repeats (copy { iteration with index })) (remaining : Nat)
    {progress : Progress} (unbounded : progress.budget = none)
    (passed : iteration.isImplicit = true → (progress.isInserted || repeats) = true) :
    Placed lines (0 < remaining && repeats) progress
      (copiesFrom options iteration copy remaining progress) := by
  induction remaining generalizing progress with
  | zero => exact .nothing unbounded
  | succ remaining ih =>
    have first : Placed lines repeats progress (finishedCopy options copy
        { iteration with index := iteration.count - (remaining + 1) } progress) :=
      finishedCopy_passes options (one _) unbounded passed
    rw [copiesFrom_succ]
    generalize finishedCopy options copy _ progress = next at first ⊢
    have others := ih first.unbounded fun implicit => by
      simp [first.inserted, passed implicit]
    have once : (repeats || (decide (0 < remaining) && repeats)) =
        (decide (0 < remaining + 1) && repeats) := by
      cases repeats <;> simp
    simp only [first.unspent, Bool.false_eq_true, if_false, ← once]
    exact first.append others

/-- A copy of the implicit repeat that has the lines to place becomes the next of them. -/
theorem finishedCopy_fills (wraps : options.text = some (.lines written)) (iteration : Iteration)
    (implicit : iteration.isImplicit = true)
    {copy : Iteration → Progress → List Node × Progress}
    (one : Places (WrappedText.filledLines written) false (copy iteration)) {progress : Progress}
    (filled : (copy iteration progress).1 ≠ []) (unbounded : progress.budget = none)
    (waiting : progress.isInserted = false) {line : String}
    (found : (WrappedText.filledLines written)[iteration.index]? = some line) :
    Node.texts (finishedCopy options copy iteration progress).1 = [[.text line]] ∧
      (finishedCopy options copy iteration progress).2.budget = none ∧
      (finishedCopy options copy iteration progress).2.isInserted = false ∧
      (finishedCopy options copy iteration progress).2.isTextUsed = true := by
  obtain ⟨textless, unbounded', inserted, -⟩ := one progress unbounded
  have waiting' : (copy iteration progress).2.isInserted = false := by
    rw [inserted, waiting, Bool.false_or]
  have fills : fillCopy options iteration (copy iteration progress).1
      (copy iteration progress).2 =
        (Node.mapLastDeepest (fun element => .node (element.pushText line) [])
          (copy iteration progress).1, (copy iteration progress).2.useText) := by
    simp only [fillCopy, wraps, implicit, waiting', WrappedText.forCopy, found]
    simp [filled]
  simp only [finishedCopy, fills]
  refine ⟨?_, ?_, waiting', rfl⟩
  · exact (Node.texts_pushed filled textless fun _ => rfl).1
  · simp only [Progress.spend, Progress.useText, unbounded', Option.map_none]

/-- The copies of the implicit repeat that has the lines to place become the lines, one after
the other. -/
theorem copiesFrom_fills (wraps : options.text = some (.lines written)) (iteration : Iteration)
    (copy : Iteration → Progress → List Node × Progress)
    (implicit : iteration.isImplicit = true)
    (count : iteration.count = (WrappedText.filledLines written).length)
    (one : ∀ index,
      Places (WrappedText.filledLines written) false (copy { iteration with index }))
    (filled : ∀ index progress, (copy { iteration with index } progress).1 ≠ [])
    {remaining : Nat} (left : remaining ≤ iteration.count) {progress : Progress}
    (unbounded : progress.budget = none) (waiting : progress.isInserted = false) :
    Node.texts (copiesFrom options iteration copy remaining progress).1 =
        ((WrappedText.filledLines written).drop (iteration.count - remaining)).map
          (fun line => [.text line]) ∧
      (copiesFrom options iteration copy remaining progress).2.budget = none ∧
      (copiesFrom options iteration copy remaining progress).2.isInserted = false ∧
      (copiesFrom options iteration copy remaining progress).2.isTextUsed =
        (progress.isTextUsed || 0 < remaining) := by
  induction remaining generalizing progress with
  | zero => exact ⟨by simp [copiesFrom, count], unbounded, waiting, by simp [copiesFrom]⟩
  | succ remaining ih =>
    -- The index of a copy grows as the copies that remain get fewer, and with it the line that is
    -- taken.
    have inside : iteration.count - (remaining + 1) < (WrappedText.filledLines written).length := by
      omega
    obtain ⟨text, unbounded', waiting', used⟩ :=
      finishedCopy_fills options wraps { iteration with index := iteration.count - (remaining + 1) }
        implicit (one _) (filled _ progress) unbounded waiting (List.getElem?_eq_getElem inside)
    rw [copiesFrom_succ]
    generalize finishedCopy options copy _ progress = next at text unbounded' waiting' used ⊢
    have unspent : next.2.isSpent = false := by
      simp [Progress.isSpent, unbounded']
    obtain ⟨texts, unboundedRest, waitingRest, usedRest⟩ :=
      ih (Nat.le_of_succ_le left) unbounded' waiting'
    have following : iteration.count - (remaining + 1) + 1 = iteration.count - remaining := by
      omega
    simp only [unspent, Bool.false_eq_true, if_false]
    refine ⟨?_, unboundedRest, waitingRest, by simp [usedRest, used]⟩
    rw [Node.texts_append, text, texts, List.drop_eq_getElem_cons inside, following]
    rfl

/-! ### Statements -/

/-- An implicit repeat without others inside of it places the lines, one in each of its copies. -/
theorem copies_fill (wraps : options.text = some (.lines written))
    (hasLine : WrappedText.filledLines written ≠ []) (enclosing : List Iteration)
    {repetition : Repeat} (implicit : repetition.isImplicit = true)
    {copy : List Iteration → Option Iteration → Progress → List Node × Progress}
    (one : ∀ around iteration,
      Places (WrappedText.filledLines written) false (copy around iteration))
    (filled : ∀ around iteration progress, (copy around iteration progress).1 ≠ [])
    {progress : Progress} (unbounded : progress.budget = none)
    (waiting : progress.isInserted = false) :
    Placed (WrappedText.filledLines written) true progress
      (copies options enclosing (some repetition) copy progress) := by
  have positive := copyCount_pos options repetition
  have count : copyCount options repetition = (WrappedText.filledLines written).length := by
    simp only [copyCount, implicit, wraps, if_true, Option.bind_some, WrappedText.copies?,
      Option.getD_some]
    exact Nat.max_eq_right (List.length_pos_iff.mpr hasLine)
  obtain ⟨texts, unbounded', waiting', used⟩ :=
    copiesFrom_fills options wraps ⟨copyCount options repetition, 0, true⟩
      (fun iteration => copy (iteration :: enclosing) (some iteration)) rfl count
      (fun _ => one _ _) (fun _ => filled _ _) (Nat.le_refl _) unbounded waiting
  simp only [copies, implicit, if_true]
  refine ⟨?_, unbounded', ?_, ?_⟩
  · simpa [waiting] using texts
  · simp [Progress.insert]
  · simpa [Progress.insert, waiting, positive] using used

/-- Any other repeat places the lines if something in it does; behind an implicit one they are
placed. -/
theorem copies_pass {lines : List String} (enclosing : List Iteration) {repetition : Repeat}
    {copy : List Iteration → Option Iteration → Progress → List Node × Progress} {repeats : Bool}
    (one : ∀ around iteration, Places lines repeats (copy around iteration))
    {progress : Progress} (unbounded : progress.budget = none)
    (passed : repetition.isImplicit = true → (progress.isInserted || repeats) = true) :
    Placed lines (repetition.isImplicit || repeats) progress
      (copies options enclosing (some repetition) copy progress) := by
  have placed : Placed lines (0 < copyCount options repetition && repeats) progress _ :=
    copiesFrom_passes options ⟨copyCount options repetition, 0, repetition.isImplicit⟩
      (fun iteration => copy (iteration :: enclosing) (some iteration))
      (fun _ => one _ _) (copyCount options repetition) unbounded passed
  simp only [copyCount_pos options repetition, decide_true, Bool.true_and] at placed
  simp only [copies]
  cases implicit : repetition.isImplicit with
  | false => simpa [implicit] using placed
  | true => simpa [implicit] using placed.insert (passed implicit)

/-- The copies of a statement place the lines if it repeats implicitly or something in it
does. -/
theorem copies_places (wraps : options.text = some (.lines written))
    (hasLine : WrappedText.filledLines written ≠ []) (enclosing : List Iteration)
    (repetition : Option Repeat)
    {copy : List Iteration → Option Iteration → Progress → List Node × Progress} {repeats : Bool}
    (one : ∀ around iteration,
      Places (WrappedText.filledLines written) repeats (copy around iteration))
    (filled : ∀ around iteration progress, (copy around iteration progress).1 ≠ []) :
    Places (WrappedText.filledLines written) (repetition.any Repeat.isImplicit || repeats)
      (copies options enclosing repetition copy) := by
  cases repetition with
  | none => exact one enclosing none
  | some repetition =>
    intro progress unbounded
    by_cases fills : repetition.isImplicit = true ∧ repeats = false ∧ progress.isInserted = false
    · obtain ⟨implicit, rfl, waiting⟩ := fills
      rw [Option.any_some, implicit, Bool.true_or]
      exact copies_fill options wraps hasLine enclosing implicit one filled unbounded waiting
    · refine copies_pass options enclosing one unbounded fun implicit => ?_
      cases waiting : progress.isInserted <;> cases inner : repeats <;> simp_all

/-- An element without text adds nothing to what its children place. -/
theorem elementCopy_places {lines : List String} {head : Head} (textless : head.value = none)
    (apart : ∀ token ∈ head.tokens, token.isPlace = false) (enclosing : List Iteration)
    (iteration : Option Iteration) {children : Progress → List Node × Progress} {repeats : Bool}
    (below : Places lines repeats children) :
    Places lines repeats (elementCopy options head enclosing iteration children) := by
  intro progress unbounded
  obtain ⟨named, valueless⟩ := headTexts_progress options enclosing progress textless apart
  have attributesApart :
      ∀ token ∈ (head.attributes.getD []).flatMap AttributeTokens.tokens, token.isPlace = false :=
    fun token mem => apart token (List.mem_append_right _ mem)
  simp only [elementCopy_eq, named, attributesOfTokens_progress options enclosing _ attributesApart]
  obtain ⟨texts, unbounded', inserted, used⟩ := below progress unbounded
  refine ⟨?_, unbounded', inserted, used⟩
  simp only [Element.over, valueless, List.isEmpty_nil, Bool.not_true, Bool.and_false,
    Bool.false_and, Bool.false_eq_true, if_false]
  rw [Node.texts_node rfl, texts]

/-- A group places the lines if its members do. -/
theorem groupCopy_places {lines : List String} (iteration : Option Iteration)
    {members : Progress → List Node × Progress} {repeats : Bool}
    (inner : Places lines repeats members) :
    Places lines repeats (groupCopy iteration members) := by
  intro progress unbounded
  obtain ⟨texts, unbounded', inserted, used⟩ := inner progress unbounded
  exact ⟨by rw [groupCopy, Node.texts_markIteration, texts], unbounded', inserted, used⟩

/-! ### No copy is empty -/

/-- A repeat is unrolled to some nodes if each of its copies is. -/
theorem copies_ne_nil (enclosing : List Iteration) (repetition : Option Repeat)
    {copy : List Iteration → Option Iteration → Progress → List Node × Progress}
    (filled : ∀ around iteration progress, (copy around iteration progress).1 ≠ [])
    (progress : Progress) : (copies options enclosing repetition copy progress).1 ≠ [] := by
  cases repetition with
  | none => exact filled _ _ _
  | some repetition =>
    have kept (iteration : Iteration) (nodes : List Node) (progress : Progress)
        (filled : nodes ≠ []) : (fillCopy options iteration nodes progress).1 ≠ [] := by
      unfold fillCopy
      split
      · exact filled
      · split
        · exact filled
        · exact mt Node.mapLastDeepest_eq_nil.mp filled
    obtain ⟨remaining, more⟩ :=
      Nat.exists_eq_succ_of_ne_zero (Nat.ne_of_gt (copyCount_pos options repetition))
    simp only [copies, more, copiesFrom_succ]
    split
    · exact kept _ _ _ (filled _ _ _)
    · exact List.append_ne_nil_of_left_ne_nil (kept _ _ _ (filled _ _ _)) _

/-- An element is unrolled to some nodes. -/
theorem elementCopy_ne_nil (head : Head) (enclosing : List Iteration)
    (iteration : Option Iteration) (children : Progress → List Node × Progress)
    (progress : Progress) :
    (elementCopy options head enclosing iteration children progress).1 ≠ [] := by
  rw [elementCopy_eq]
  simp only [Element.over]
  split <;> exact List.cons_ne_nil _ _

/-- A group is unrolled to some nodes if its members are. -/
theorem groupCopy_ne_nil (iteration : Option Iteration)
    {members : Progress → List Node × Progress} {progress : Progress}
    (filled : (members progress).1 ≠ []) : (groupCopy iteration members progress).1 ≠ [] := by
  simpa [groupCopy, markIteration] using filled

/-- A group that leaves its texts open has members. -/
theorem Statement.isOpen_group {members : List Statement} {repetition : Option Repeat}
    (isOpen : (Statement.group members repetition).isOpen) : members ≠ [] := by
  simpa [Statement.isOpen, Statement.hasText, Statement.hasPlace, Statement.isEmptyGroup] using
    isOpen

/-- An element that leaves its text open has none, and no token asks for the text. -/
theorem Statement.isOpen_element {head : Head} {children : List Statement}
    (isOpen : (Statement.element head children).isOpen) :
    head.value = none ∧ ∀ token ∈ head.tokens, token.isPlace = false := by
  simpa [Statement.isOpen, Statement.hasText, Statement.hasPlace, Statement.isEmptyGroup] using
    isOpen

mutual

/-- A statement without empty groups is unrolled to some nodes. -/
theorem unroll_ne_nil (statement : Statement) (isOpen : ∀ inner ∈ statement.flat, inner.isOpen)
    (enclosing : List Iteration) (progress : Progress) :
    (unroll options enclosing statement progress).1 ≠ [] := by
  cases statement with
  | element head children =>
    exact copies_ne_nil options enclosing head.repetition
      (fun around iteration progress =>
        elementCopy_ne_nil options head around iteration (unrollAll options around children)
          progress)
      progress
  | group members repetition =>
    simp only [Statement.flat, List.forall_mem_cons] at isOpen
    rw [unroll_group]
    exact copies_ne_nil options enclosing repetition
      (fun around iteration progress => groupCopy_ne_nil iteration
        (unrollAll_ne_nil members (Statement.isOpen_group isOpen.1) isOpen.2 around progress))
      progress

/-- Statements that leave their texts open are unrolled to some nodes. -/
theorem unrollAll_ne_nil (statements : List Statement) (some' : statements ≠ [])
    (isOpen : ∀ inner ∈ Statement.flatAll statements, inner.isOpen)
    (enclosing : List Iteration) (progress : Progress) :
    (unrollAll options enclosing statements progress).1 ≠ [] := by
  cases statements with
  | nil => exact absurd rfl some'
  | cons first rest =>
    simp only [Statement.flatAll, List.forall_mem_append] at isOpen
    exact List.append_ne_nil_of_left_ne_nil (unroll_ne_nil first isOpen.1 enclosing progress) _

end

mutual

/-- A statement places the lines if an implicit repeat is in it. -/
theorem unroll_places (wraps : options.text = some (.lines written))
    (hasLine : WrappedText.filledLines written ≠ []) (statement : Statement)
    (isOpen : ∀ inner ∈ statement.flat, inner.isOpen) (enclosing : List Iteration) :
    Places (WrappedText.filledLines written) (statement.flat.any Statement.repeatsImplicitly)
      (unroll options enclosing statement) := by
  cases statement with
  | element head children =>
    simp only [Statement.flat, List.forall_mem_cons, List.any_cons] at isOpen ⊢
    obtain ⟨textless, placeless⟩ := Statement.isOpen_element isOpen.1
    exact copies_places options wraps hasLine enclosing head.repetition
      (fun around iteration => elementCopy_places options textless placeless around iteration
        (unrollAll_places wraps hasLine children isOpen.2 around))
      (fun around iteration progress =>
        elementCopy_ne_nil options head around iteration (unrollAll options around children)
          progress)
  | group members repetition =>
    simp only [Statement.flat, List.forall_mem_cons, List.any_cons] at isOpen ⊢
    rw [unroll_group]
    exact copies_places options wraps hasLine enclosing repetition
      (fun around iteration => groupCopy_places iteration
        (unrollAll_places wraps hasLine members isOpen.2 around))
      (fun around iteration progress => groupCopy_ne_nil iteration
        (unrollAll_ne_nil options members (Statement.isOpen_group isOpen.1) isOpen.2 around
          progress))

/-- Statements place the lines if an implicit repeat is among them. -/
theorem unrollAll_places (wraps : options.text = some (.lines written))
    (hasLine : WrappedText.filledLines written ≠ []) (statements : List Statement)
    (isOpen : ∀ inner ∈ Statement.flatAll statements, inner.isOpen)
    (enclosing : List Iteration) :
    Places (WrappedText.filledLines written)
      ((Statement.flatAll statements).any Statement.repeatsImplicitly)
      (unrollAll options enclosing statements) := by
  intro progress unbounded
  cases statements with
  | nil => exact .nothing unbounded
  | cons first rest =>
    simp only [Statement.flatAll, List.forall_mem_append, List.any_append] at isOpen ⊢
    have one := unroll_places wraps hasLine first isOpen.1 enclosing progress unbounded
    exact one.append (unrollAll_places wraps hasLine rest isOpen.2 enclosing _ one.unbounded)

end

end Lines

/-! ### The whole abbreviation -/

/-- Putting the whole text into an element adds it to the text of the element. Only a link may
get another attribute or another value of one. -/
theorem wrapText_eq (options : ReadOptions) (text : String) (element : Element) :
    ∃ attributes, wrapText options text element = { element.pushText text with attributes } ∧
      (element.name ≠ some "a" → attributes = element.attributes) := by
  have linked (element : Element) :
      ∃ attributes, linkTo text element = { element with attributes } := by
    unfold linkTo
    split <;> exact ⟨_, rfl⟩
  unfold wrapText
  split
  case isTrue isLink =>
    obtain ⟨attributes, same⟩ := linked (element.pushText text)
    rw [Bool.and_eq_true, beq_iff_eq] at isLink
    exact ⟨attributes, same, fun noLink => absurd isLink.2 noLink⟩
  case isFalse => exact ⟨element.attributes, rfl, fun _ => rfl⟩

/-- Wrapped text is pushed into the value of an element. -/
theorem value_wrapText (options : ReadOptions) (text : String) (element : Element) :
    (wrapText options text element).value = element.value.pushText text := by
  obtain ⟨attributes, same, -⟩ := wrapText_eq options text element
  rw [same]
  rfl

/-- Elements of the same name, which have the same attributes unless they are links. -/
def Element.SameBesidesText (left right : Element) : Prop :=
  left.name = right.name ∧ (left.name ≠ some "a" → left.attributes = right.attributes)

/-- A text that is wrapped changes no name and no attributes but those of a link. -/
theorem nodesOfStatements_alike (options : ReadOptions) (found : List Statement) :
    Node.Alike Element.SameBesidesText Element.SameBesidesText
      (unrollAll options [] found (.start options.maxRepeat)).1
      (nodesOfStatements options found) := by
  have refl (element : Element) : element.SameBesidesText element := ⟨rfl, fun _ => rfl⟩
  have wraps (text : String) (element : Element) :
      element.SameBesidesText (wrapText options text element) := by
    obtain ⟨attributes, wrapped, kept⟩ := wrapText_eq options text element
    rw [wrapped]
    exact ⟨rfl, fun noLink => (kept noLink).symm⟩
  simp only [nodesOfStatements]
  split
  · exact .refl refl _
  · split
    · exact .refl refl _
    · exact .changeDeepest refl (wraps _) _

/-- Wrapping lines loses none of them and repeats none. With an implicit repeat, wherever it
stands and however many there are, the texts of the nodes are the lines that are not blank.
Without one, only the deepest element at the end has a text, which is all lines. -/
theorem nodes_wrapped (options : ReadOptions) {written : List String}
    (wraps : options.text = some (.lines written)) (unbounded : options.maxRepeat = none)
    (hasLine : ∃ line ∈ written, Text.isBlank line = false) {source : String}
    {found : List Statement} (read : statements options.jsx source = .ok found)
    (wrapper : IsWrapper found) :
    ∃ result, nodes options source = .ok result ∧
      ((∃ statement ∈ Statement.flatAll found, statement.repeatsImplicitly) →
        Node.texts result = (written.filter fun line => !Text.isBlank line).map
          fun line => [.text line]) ∧
      ((¬ ∃ statement ∈ Statement.flatAll found, statement.repeatsImplicitly) →
        Node.texts result = [[.text (Text.join "\n" written)]] ∧
        (Node.lastDeepest? result).map Element.value = some [.text (Text.join "\n" written)]) := by
  have filledLine : WrappedText.filledLines written ≠ [] := by
    simpa [WrappedText.filledLines, List.filter_eq_nil_iff] using hasLine
  have some' : found ≠ [] := by
    rintro rfl
    exact absurd wrapper.hasElement (Nat.lt_irrefl 0)
  have filled := unrollAll_ne_nil options found some' wrapper.isOpen [] (.start none)
  obtain ⟨texts, -, -, used⟩ :=
    unrollAll_places options wraps filledLine found wrapper.isOpen [] (.start none) rfl
  refine ⟨nodesOfStatements options found, by simp only [nodes, read]; rfl,
    fun implicit => ?_, fun explicit => ?_⟩
  · rw [← List.any_eq_true] at implicit
    simp only [implicit, Progress.start, Bool.not_false, Bool.and_true, Bool.or_true] at texts used
    simp only [nodesOfStatements, unbounded, wraps, Progress.start, used, if_true]
    exact texts
  · rw [← List.any_eq_true, Bool.not_eq_true] at explicit
    simp only [explicit, Progress.start, Bool.false_and, Bool.or_false] at texts used
    simp only [nodesOfStatements, unbounded, wraps, Progress.start, used, Bool.false_eq_true,
      if_false]
    exact Node.texts_pushed filled texts (value_wrapText options _)

/-- Two lines are wrapped with `ul*2>(li*>a*)+p*`, whose first copy of the first group takes them
all, and with `ul>li`, which has no place for either of them. -/
theorem nodes_wrapped_nested :
    (∃ result, nodes ⟨false, false, some (.lines ["x", " ", "y"]), .empty, none⟩
        "ul*2>(li*>a*)+p*" = .ok result ∧
      Node.texts result = [[.text "x"], [.text "y"]]) ∧
    (∃ result, nodes ⟨false, false, some (.lines ["x", " ", "y"]), .empty, none⟩
        "ul>li" = .ok result ∧
      Node.texts result = [[.text "x\n \ny"]] ∧
      (Node.lastDeepest? result).map Element.value = some [.text "x\n \ny"]) := by
  have wrapper (source : String) (implicit : Bool)
      (checked : (match statements false source with
        | .ok found => decide (0 < Statement.elementCountAll found) &&
          (Statement.flatAll found).all Statement.isOpen &&
          (Statement.flatAll found).any Statement.repeatsImplicitly == implicit
        | .error _ => false) = true) :
      ∃ found, statements false source = .ok found ∧ IsWrapper found ∧
        (Statement.flatAll found).any Statement.repeatsImplicitly = implicit := by
    cases read : statements false source with
    | error fault => simp [read] at checked
    | ok found =>
      simp only [read, Bool.and_eq_true, decide_eq_true_eq, List.all_eq_true, beq_iff_eq]
        at checked
      exact ⟨found, rfl, ⟨checked.1.1, checked.1.2⟩, checked.2⟩
  have hasLine : ∃ line ∈ ["x", " ", "y"], Text.isBlank line = false := ⟨"x", by simp, by decide⟩
  have lines : (["x", " ", "y"].filter fun line => !Text.isBlank line) = ["x", "y"] := by decide
  obtain ⟨nested, readNested, nestedWraps, implicit⟩ :=
    wrapper "ul*2>(li*>a*)+p*" true (by decide +kernel)
  obtain ⟨plain, readPlain, plainWraps, explicit⟩ := wrapper "ul>li" false (by decide +kernel)
  obtain ⟨result, isResult, placed, -⟩ :=
    nodes_wrapped ⟨false, false, some (.lines ["x", " ", "y"]), .empty, none⟩ rfl rfl hasLine
      readNested nestedWraps
  obtain ⟨result', isResult', -, whole⟩ :=
    nodes_wrapped ⟨false, false, some (.lines ["x", " ", "y"]), .empty, none⟩ rfl rfl hasLine
      readPlain plainWraps
  rw [lines] at placed
  exact ⟨⟨result, isResult, placed (List.any_eq_true.mp implicit)⟩,
    result', isResult', whole (by rw [← List.any_eq_true, explicit]; exact Bool.false_ne_true)⟩

end Shorthand.Markup
