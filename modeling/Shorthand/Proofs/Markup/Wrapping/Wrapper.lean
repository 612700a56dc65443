import Shorthand.Proofs.Markup.Budget.Meter
import Shorthand.Proofs.Markup.Budget.Overdraft
import Shorthand.Proofs.Markup.Preorder

/-!
# Abbreviations that leave the text open

A text is wrapped with statements that hold neither a text nor a place for one. Reading the
names and attributes of such statements never asks for the wrapped text, so only repeats and
the end of the abbreviation do.
-/

namespace Shorthand.Markup

/-! ### Abbreviations without text -/

mutual

/-- A statement, then the statements inside of it. -/
def Statement.flat : Statement → List Statement
  | .element head children => .element head children :: Statement.flatAll children
  | .group members repetition => .group members repetition :: Statement.flatAll members

/-- Some statements, each with the statements inside of it. -/
def Statement.flatAll : List Statement → List Statement
  | [] => []
  | first :: rest => first.flat ++ Statement.flatAll rest

end

/-- Whether a token is a place for the wrapped text. -/
def Token.isPlace (token : Token) : Bool := token.kind == .repeaterPlaceholder

namespace Statement

/-- Whether a statement is an element with a text. -/
def hasText : Statement → Bool
  | element head _ => head.value.isSome
  | group _ _ => false

/-- Whether a statement is an element with a place for the wrapped text. -/
def hasPlace : Statement → Bool
  | element head _ => head.tokens.any Token.isPlace
  | group _ _ => false

/-- Whether a statement is a group of nothing. -/
def isEmptyGroup : Statement → Bool
  | element _ _ => false
  | group members _ => members.isEmpty

/-- Whether a statement is repeated once for each line. -/
def repeatsImplicitly (statement : Statement) : Bool :=
  statement.repetition.any Repeat.isImplicit

/-- Whether a statement by itself leaves the texts of its nodes open, and is not empty. -/
def isOpen (statement : Statement) : Bool :=
  !statement.hasText && !statement.hasPlace && !statement.isEmptyGroup

end Statement

/-- Statements that a text can be wrapped with: some element is among them, no text and no
place for the text is written, and no group is empty. -/
structure IsWrapper (found : List Statement) : Prop where
  hasElement : 0 < Statement.elementCountAll found
  isOpen : ∀ statement ∈ Statement.flatAll found, statement.isOpen

/-! ### Texts of nodes -/

/-- The texts of nodes in preorder, without the empty ones. -/
def Node.texts (nodes : List Node) : List Value :=
  ((Node.elementsAll nodes).map Element.value).filter fun value => !value.isEmpty

namespace Node

@[simp] theorem texts_nil : texts [] = [] := rfl

/-- The texts of nodes in a row are those of each of them. -/
@[simp] theorem texts_append (left right : List Node) :
    texts (left ++ right) = texts left ++ texts right := by
  simp [texts]

/-- An element without text has the texts below it. -/
theorem texts_node {element : Element} (textless : element.value = []) (children : List Node) :
    texts [.node element children] = texts children := by
  simp [texts, textless]

/-- Marking which copy nodes are leaves their texts. -/
@[simp] theorem texts_markIteration (iteration : Option Iteration) (nodes : List Node) :
    texts (markIteration iteration nodes) = texts nodes := by
  induction nodes with
  | nil => rfl
  | cons first rest ih =>
    obtain ⟨element, children⟩ := first
    simp only [markIteration, texts, List.map_cons, mapElement, elementsAll_cons] at ih ⊢
    simp only [List.map_append, List.filter_cons, List.filter_append, ih]

/-- A text that is put into the deepest of elements without text is the only one. -/
theorem texts_pushed {nodes : List Node} (filled : nodes ≠ []) (textless : texts nodes = [])
    {text : String} {change : Element → Element}
    (pushes : ∀ element, (change element).value = element.value.pushText text) :
    texts (mapLastDeepest (fun element => .node (change element) []) nodes) =
        [[.text text]] ∧
      (lastDeepest? (mapLastDeepest (fun element => .node (change element) []) nodes)).map
        Element.value = some [.text text] := by
  obtain ⟨before, last, same, -, replaced⟩ := elementsAll_deepest filled
  have pushed := replaced fun element => .node (change element) []
  obtain ⟨before', last', same', isLast, -⟩ :=
    elementsAll_deepest (mt mapLastDeepest_eq_nil.mp filled :
      mapLastDeepest (fun element => .node (change element) []) nodes ≠ [])
  have isChanged : last' = change last := by
    rw [same'] at pushed
    exact List.singleton_inj.mp (List.append_inj_right' pushed rfl)
  obtain ⟨textlessBefore, textlessLast⟩ :
      (∀ element ∈ before, element.value = []) ∧ last.value = [] := by
    simpa [texts, same, List.filter_eq_nil_iff] using textless
  have value : (change last).value = [.text text] := by
    rw [pushes, textlessLast]
    rfl
  have none' : (before.map Element.value).filter (fun value => !value.isEmpty) = [] := by
    simpa [List.filter_eq_nil_iff] using textlessBefore
  refine ⟨?_, ?_⟩
  · rw [texts, pushed]
    simp [none', value, elements]
  · rw [isLast, isChanged, Option.map_some, value]

end Node

/-! ### Steps without text -/

section Steps

variable (options : ReadOptions) (enclosing : List Iteration) (progress : Progress)

/-- A token that does not ask for the text leaves the progress as it is. -/
theorem tokenText_progress {token : Token} (apart : token.isPlace = false) :
    (tokenText options enclosing token progress).2 = progress := by
  unfold tokenText
  cases kind : token.kind with
  | field index name => cases index <;> rfl
  | repeaterPlaceholder => simp [Token.isPlace, kind] at apart
  | _ => rfl

/-- So do tokens that are written as a text. -/
theorem tokensText_progress {tokens : List Token}
    (apart : ∀ token ∈ tokens, token.isPlace = false) :
    (tokensText options enclosing tokens progress).2 = progress := by
  induction tokens with
  | nil => rfl
  | cons token rest ih =>
    simp only [List.forall_mem_cons] at apart
    simp only [tokensText, tokenText_progress options enclosing progress apart.1, ih apart.2]

/-- So do tokens that are written as a value. -/
theorem tokensValue_progress {tokens : List Token}
    (apart : ∀ token ∈ tokens, token.isPlace = false) (value : Value) :
    (tokensValue options enclosing value tokens progress).2 = progress := by
  induction tokens generalizing value with
  | nil => rfl
  | cons token rest ih =>
    simp only [List.forall_mem_cons] at apart
    unfold tokensValue
    split
    case h_1 => exact ih apart.2 _
    case h_2 =>
      simp only [tokenText_progress options enclosing progress apart.1]
      exact ih apart.2 _

/-- Without its quotes a value has no other tokens. -/
theorem unquote_subset (kind : ValueKind) (tokens : List Token) :
    (unquote kind tokens).2 ⊆ tokens := by
  have dropped (test : Token → Bool) (tokens : List Token) : dropLastIf test tokens ⊆ tokens := by
    unfold dropLastIf
    split
    · exact List.dropLast_subset tokens
    · exact List.Subset.refl tokens
  cases tokens with
  | nil => exact List.Subset.refl []
  | cons first rest =>
    simp only [unquote]
    split
    · exact List.subset_cons_of_subset _ (dropped _ rest)
    · exact List.subset_cons_of_subset _ (dropped _ rest)
    · exact List.Subset.refl _

/-- An attribute that does not ask for the text leaves the progress as it is. -/
theorem attributeOfTokens_progress {written : AttributeTokens}
    (apart : ∀ token ∈ written.tokens, token.isPlace = false) :
    (attributeOfTokens options enclosing written progress).2 = progress := by
  obtain ⟨name, value, isExpression, isMultiple⟩ := written
  simp only [AttributeTokens.tokens, List.forall_mem_append] at apart
  obtain ⟨nameApart, valueApart⟩ := apart
  have readName := tokensText_progress options enclosing progress nameApart
  have readValue (kind : ValueKind) := tokensValue_progress options enclosing progress
    (fun token mem => valueApart token (unquote_subset kind _ mem)) []
  cases name <;> cases value <;>
    simp_all [attributeOfTokens]

/-- So do attributes. -/
theorem attributesOfTokens_progress {written : List AttributeTokens}
    (apart : ∀ token ∈ written.flatMap AttributeTokens.tokens, token.isPlace = false) :
    (attributesOfTokens options enclosing written progress).2 = progress := by
  induction written with
  | nil => rfl
  | cons first rest ih =>
    simp only [List.flatMap_cons, List.forall_mem_append] at apart
    simp only [attributesOfTokens,
      attributeOfTokens_progress options enclosing progress apart.1, ih apart.2]

/-- The name of an element without text and without places. -/
theorem headTexts_progress {head : Head} (textless : head.value = none)
    (apart : ∀ token ∈ head.tokens, token.isPlace = false) :
    (headTexts options enclosing head progress).2 = progress ∧
      (headTexts options enclosing head progress).1.2 = [] := by
  obtain ⟨name, attributes, value, repetition, isSelfClosing⟩ := head
  simp only at textless
  subst textless
  cases name with
  | none => exact ⟨rfl, rfl⟩
  | some tokens =>
    have nameApart : ∀ token ∈ tokens, token.isPlace = false := fun token mem =>
      apart token (by simp [Head.tokens, mem])
    exact ⟨tokensText_progress options enclosing progress nameApart, rfl⟩

end Steps

end Shorthand.Markup
