import Shorthand.Markup.Unrolling

/-!
# Steps that make no copy

Unrolling reads names, texts and attributes between the copies. These steps pass the budget
and the count of copies on and never look at them, so they do the same under every bound.
-/

namespace Shorthand.Markup

/-- The same options with another bound on the copies. -/
def ReadOptions.limited (options : ReadOptions) (limit : Option Nat) : ReadOptions :=
  { options with maxRepeat := limit }

namespace Progress

/-- The same progress with another budget and another count of copies. -/
def metered (progress : Progress) (budget : Option Nat) (made : Nat) : Progress :=
  { progress with budget, made }

/-- The budget of metered progress is the given one. -/
@[simp] theorem metered_budget (progress : Progress) (budget : Option Nat) (made : Nat) :
    (progress.metered budget made).budget = budget := rfl

/-- The count of metered progress is the given one. -/
@[simp] theorem metered_made (progress : Progress) (budget : Option Nat) (made : Nat) :
    (progress.metered budget made).made = made := rfl

end Progress

/-- A step passes the budget and the count of copies on, and is otherwise the same as another
step. -/
def Idle {α : Type} (step other : Progress → α × Progress) : Prop :=
  ∀ progress budget made, step (progress.metered budget made) =
    ((other progress).1, (other progress).2.metered budget made)

namespace Idle

variable {α : Type} {step : Progress → α × Progress}

/-- An idle step spends no budget. -/
theorem budget (idle : Idle step step) (progress : Progress) :
    (step progress).2.budget = progress.budget :=
  congrArg (fun outcome => outcome.2.budget) (idle progress progress.budget progress.made)

/-- An idle step makes no copy. -/
theorem made (idle : Idle step step) (progress : Progress) :
    (step progress).2.made = progress.made :=
  congrArg (fun outcome => outcome.2.made) (idle progress progress.budget progress.made)

end Idle

/-! ### Texts -/

section Texts

variable (options : ReadOptions) (limit : Option Nat) (enclosing : List Iteration)

/-- The text of a token is written without regard to the bound. -/
theorem tokenText_idle (token : Token) :
    Idle (tokenText (options.limited limit) enclosing token)
      (tokenText options enclosing token) := by
  intro progress budget made
  unfold tokenText
  cases token.kind with
  | field index name => cases index <;> rfl
  | _ => rfl

/-- So is the text of tokens. -/
theorem tokensText_idle (tokens : List Token) :
    Idle (tokensText (options.limited limit) enclosing tokens)
      (tokensText options enclosing tokens) := by
  intro progress budget made
  induction tokens generalizing progress with
  | nil => rfl
  | cons token rest ih =>
    simp only [tokensText, tokenText_idle options limit enclosing token progress budget made, ih]

/-- So is the value of tokens. -/
theorem tokensValue_idle (value : Value) (tokens : List Token) :
    Idle (tokensValue (options.limited limit) enclosing value tokens)
      (tokensValue options enclosing value tokens) := by
  intro progress budget made
  induction tokens generalizing progress value with
  | nil => rfl
  | cons token rest ih =>
    unfold tokensValue
    split
    case h_1 => exact ih _ _
    case h_2 =>
      simp only [tokenText_idle options limit enclosing token progress budget made]
      exact ih _ _

/-- The name and the text of an element. -/
def headTexts (head : Head) (progress : Progress) : (Option String × Value) × Progress :=
  let (name, progress) : Option String × Progress :=
    match head.name with
    | none => (none, progress)
    | some tokens =>
      let (text, progress) := tokensText options enclosing tokens progress
      (some text, progress)
  let (value, progress) := tokensValue options enclosing [] (head.value.getD []) progress
  ((name, value), progress)

/-- So are the name and the text of an element. -/
theorem headTexts_idle (head : Head) :
    Idle (headTexts (options.limited limit) enclosing head)
      (headTexts options enclosing head) := by
  intro progress budget made
  obtain ⟨name, attributes, value, repetition, isSelfClosing⟩ := head
  cases name <;>
    simp only [headTexts, tokensText_idle options limit enclosing _ _ budget made,
      tokensValue_idle options limit enclosing _ _ _ budget made]

/-- So is an attribute. -/
theorem attributeOfTokens_idle (written : AttributeTokens) :
    Idle (attributeOfTokens (options.limited limit) enclosing written)
      (attributeOfTokens options enclosing written) := by
  intro progress budget made
  obtain ⟨name, value, isExpression, isMultiple⟩ := written
  cases name <;> cases value <;>
    simp only [attributeOfTokens, tokensText_idle options limit enclosing _ _ budget made,
      tokensValue_idle options limit enclosing _ _ _ budget made]

/-- So are attributes. -/
theorem attributesOfTokens_idle (written : List AttributeTokens) :
    Idle (attributesOfTokens (options.limited limit) enclosing written)
      (attributesOfTokens options enclosing written) := by
  intro progress budget made
  induction written generalizing progress with
  | nil => rfl
  | cons first rest ih =>
    simp only [attributesOfTokens,
      attributeOfTokens_idle options limit enclosing first progress budget made, ih]

/-- Filling a copy with its text makes no copy. -/
theorem fillCopy_idle (iteration : Iteration) (nodes : List Node) :
    Idle (fillCopy (options.limited limit) iteration nodes)
      (fillCopy options iteration nodes) := by
  intro progress budget made
  have sameText : (options.limited limit).text = options.text := rfl
  unfold fillCopy
  rw [sameText]
  cases options.text with
  | none => rfl
  | some text =>
    by_cases keeps : (!iteration.isImplicit || progress.isInserted || nodes.isEmpty) = true
    · simp only [if_pos keeps]
      exact if_pos keeps
    · simp only [if_neg keeps]
      exact if_neg keeps

end Texts

section Kept

variable (options : ReadOptions) (enclosing : List Iteration) (progress : Progress)

/-- The texts of an element spend no budget. -/
theorem headTexts_budget (head : Head) :
    (headTexts options enclosing head progress).2.budget = progress.budget :=
  Idle.budget (headTexts_idle options options.maxRepeat enclosing head) progress

/-- The texts of an element make no copy. -/
theorem headTexts_made (head : Head) :
    (headTexts options enclosing head progress).2.made = progress.made :=
  Idle.made (headTexts_idle options options.maxRepeat enclosing head) progress

/-- Attributes spend no budget. -/
theorem attributesOfTokens_budget (written : List AttributeTokens) :
    (attributesOfTokens options enclosing written progress).2.budget = progress.budget :=
  Idle.budget (attributesOfTokens_idle options options.maxRepeat enclosing written) progress

/-- Attributes make no copy. -/
theorem attributesOfTokens_made (written : List AttributeTokens) :
    (attributesOfTokens options enclosing written progress).2.made = progress.made :=
  Idle.made (attributesOfTokens_idle options options.maxRepeat enclosing written) progress

/-- Filling a copy spends no budget. -/
theorem fillCopy_budget (iteration : Iteration) (nodes : List Node) :
    (fillCopy options iteration nodes progress).2.budget = progress.budget :=
  Idle.budget (fillCopy_idle options options.maxRepeat iteration nodes) progress

/-- Filling a copy makes none. -/
theorem fillCopy_made (iteration : Iteration) (nodes : List Node) :
    (fillCopy options iteration nodes progress).2.made = progress.made :=
  Idle.made (fillCopy_idle options options.maxRepeat iteration nodes) progress

end Kept

/-! ### One copy of a statement -/

/-- An element over nodes, or before them if it is only text. -/
def Element.over (element : Element) (below : List Node) : List Node :=
  if element.isBare && !element.value.isEmpty && !element.value.hasField then
    .node element [] :: below
  else
    [.node element below]

/-- A copy of an element reads its name and its text, then the statements below it, then its
attributes. -/
theorem elementCopy_eq (options : ReadOptions) (head : Head) (enclosing : List Iteration)
    (iteration : Option Iteration) (children : Progress → List Node × Progress)
    (progress : Progress) :
    elementCopy options head enclosing iteration children progress =
      let texts := headTexts options enclosing head progress
      let below := children texts.2
      let attributes :=
        attributesOfTokens options enclosing (head.attributes.getD []) below.2
      (Element.over ⟨texts.1.1, texts.1.2, attributes.1, iteration, head.isSelfClosing⟩ below.1,
        attributes.2) := by
  unfold elementCopy Element.over headTexts
  cases head.name <;> exact (apply_ite (fun nodes => (nodes, _)) _ _ _).symm

/-- A copy of a group, given how its members are unrolled. -/
def groupCopy (iteration : Option Iteration) (members : Progress → List Node × Progress)
    (progress : Progress) : List Node × Progress :=
  let inner := members progress
  (markIteration iteration inner.1, inner.2)

/-- A group is unrolled as copies of its members. -/
theorem unroll_group (options : ReadOptions) (enclosing : List Iteration)
    (members : List Statement) (repetition : Option Repeat) :
    unroll options enclosing (.group members repetition) =
      copies options enclosing repetition
        fun around iteration => groupCopy iteration (unrollAll options around members) := rfl

/-! ### Copies of a repeat -/

/-- A copy of a repeat: it is made, filled with its text and counted. -/
def finishedCopy (options : ReadOptions) (copy : Iteration → Progress → List Node × Progress)
    (iteration : Iteration) (progress : Progress) : List Node × Progress :=
  let copied := copy iteration progress
  let filled := fillCopy options iteration copied.1 copied.2
  (filled.1, filled.2.spend)

/-- A copy is not filled by a repeat that is explicit or behind the place of the text. -/
theorem fillCopy_passes (options : ReadOptions) {iteration : Iteration} {progress : Progress}
    (nodes : List Node) (passed : iteration.isImplicit = true → progress.isInserted = true) :
    fillCopy options iteration nodes progress = (nodes, progress) := by
  unfold fillCopy
  cases options.text with
  | none => rfl
  | some text =>
    have passes : (!iteration.isImplicit || progress.isInserted || nodes.isEmpty) = true := by
      cases implicit : iteration.isImplicit
      · rfl
      · simp [passed implicit]
    exact if_pos passes

/-- The copies that are left are the next one and, unless it has spent the budget, the
others. -/
theorem copiesFrom_succ (options : ReadOptions) (iteration : Iteration)
    (copy : Iteration → Progress → List Node × Progress) (remaining : Nat)
    (progress : Progress) :
    copiesFrom options iteration copy (remaining + 1) progress =
      let next := finishedCopy options copy
        { iteration with index := iteration.count - (remaining + 1) } progress
      let others := copiesFrom options iteration copy remaining next.2
      if next.2.isSpent then next else (next.1 ++ others.1, others.2) := rfl

end Shorthand.Markup
