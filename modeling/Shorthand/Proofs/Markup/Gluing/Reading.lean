import Shorthand.Proofs.Markup.AttributeNames
import Shorthand.Proofs.Markup.Budget.Meter
import Shorthand.Proofs.Markup.Gluing

/-!
# Nodes that have been read

Reading builds values from their front to their end. A wrapped text is put into a node without
children, so an element that is only a text never gets any: what was written below it follows it.
-/

namespace Shorthand.Markup

/-- An element that is only a text, which has no fields. -/
def Element.isPlainText (element : Element) : Bool :=
  element.isBare && !element.value.isEmpty && !element.value.hasField

/-- The values of a node are glued, and it has no children if it is only a text. -/
structure Node.IsTidy (node : Node) : Prop where
  glued : node.element.IsGlued
  childless : node.element.isPlainText → node.children = []

/-- All nodes of some trees are tidy. -/
def Node.AllTidy (nodes : List Node) : Prop := ∀ node ∈ Node.withinAll nodes, node.IsTidy

/-! ### Trees -/

namespace Node

/-- The empty list of nodes is tidy. -/
theorem allTidy_nil : AllTidy [] := by
  rw [AllTidy, withinAll]
  exact List.forall_mem_nil _

/-- The elements of nodes in a row are those of each of them. -/
theorem withinAll_append (left right : List Node) :
    withinAll (left ++ right) = withinAll left ++ withinAll right := by
  induction left with
  | nil => rw [withinAll, List.nil_append, List.nil_append]
  | cons first rest ih =>
    obtain ⟨element, children⟩ := first
    simp only [List.cons_append, withinAll, ih, List.append_assoc]

/-- Nodes are tidy if the first one, its children and the others are. -/
theorem allTidy_cons {element : Element} {children rest : List Node} :
    AllTidy (node element children :: rest) ↔
      (node element children).IsTidy ∧ AllTidy children ∧ AllTidy rest := by
  simp only [AllTidy, withinAll, List.forall_mem_cons, List.forall_mem_append]

/-- Tidy nodes in a row are tidy. -/
theorem AllTidy.append {left right : List Node} (tidyLeft : AllTidy left)
    (tidyRight : AllTidy right) : AllTidy (left ++ right) := by
  rw [AllTidy, withinAll_append]
  exact List.forall_mem_append.mpr ⟨tidyLeft, tidyRight⟩

/-- The elements of tidy trees are glued. -/
theorem AllTidy.glued {nodes : List Node} (tidy : AllTidy nodes) :
    ∀ element ∈ elementsAll nodes, element.IsGlued := by
  induction nodes using forest_induction with
  | nil => exact List.forall_mem_nil _
  | cons element children rest below behind =>
    obtain ⟨root, tidyChildren, tidyRest⟩ := allTidy_cons.mp tidy
    rw [elementsAll_cons]
    exact List.forall_mem_cons.mpr ⟨root.glued,
      List.forall_mem_append.mpr ⟨below tidyChildren, behind tidyRest⟩⟩

/-- The deepest element has no children, so it may get a text. -/
theorem AllTidy.changeDeepest {nodes : List Node} (tidy : AllTidy nodes)
    {change : Element → Element} (keeps : ∀ element, element.IsGlued → (change element).IsGlued) :
    AllTidy (mapLastDeepest (fun element => node (change element) []) nodes) := by
  induction nodes using forest_induction with
  | nil => exact tidy
  | cons element children rest below behind =>
    obtain ⟨root, tidyChildren, tidyRest⟩ := allTidy_cons.mp tidy
    cases rest with
    | cons second rest => exact allTidy_cons.mpr ⟨root, tidyChildren, behind tidyRest⟩
    | nil =>
      cases children with
      | nil =>
        exact allTidy_cons.mpr
          ⟨⟨keeps element root.glued, fun _ => rfl⟩, allTidy_nil, allTidy_nil⟩
      | cons first others =>
        refine allTidy_cons.mpr ⟨⟨root.glued, fun isPlain => ?_⟩, below tidyChildren, tidyRest⟩
        exact absurd (root.childless isPlain) (List.cons_ne_nil first others)

end Node

open Node (AllTidy)

/-- The children of an element that is only a text stand behind it. -/
theorem Element.IsGlued.over {element : Element} (glued : element.IsGlued) {below : List Node}
    (tidy : AllTidy below) : AllTidy (element.over below) := by
  have same : element.over below =
      if element.isPlainText then .node element [] :: below else [.node element below] := rfl
  rw [same]
  split
  case isTrue =>
    exact Node.allTidy_cons.mpr ⟨⟨glued, fun _ => rfl⟩, Node.allTidy_nil, tidy⟩
  case isFalse other =>
    exact Node.allTidy_cons.mpr
      ⟨⟨glued, fun isPlain => absurd isPlain other⟩, tidy, Node.allTidy_nil⟩

/-- Marking which copy nodes are leaves them tidy. -/
theorem markIteration_tidy (iteration : Option Iteration) {nodes : List Node}
    (tidy : AllTidy nodes) : AllTidy (markIteration iteration nodes) := by
  induction nodes with
  | nil => exact tidy
  | cons first rest ih =>
    obtain ⟨element, children⟩ := first
    obtain ⟨⟨glued, childless⟩, tidyChildren, tidyRest⟩ := Node.allTidy_cons.mp tidy
    exact Node.allTidy_cons.mpr
      ⟨⟨⟨glued.text, glued.attributes⟩, childless⟩, tidyChildren, ih tidyRest⟩

/-! ### Values of tokens -/

section

variable (options : ReadOptions) (enclosing : List Iteration)

/-- The texts of tokens are pushed one by one, so that none stand side by side. -/
theorem tokensValue_isGlued {value : Value} (glued : value.IsGlued) (tokens : List Token)
    (progress : Progress) : (tokensValue options enclosing value tokens progress).1.IsGlued := by
  induction tokens generalizing value progress with
  | nil => exact glued
  | cons token rest ih =>
    rw [tokensValue]
    split
    case h_1 index name _ => exact ih (glued.pushField index name) progress
    case h_2 =>
      dsimp only
      split
      case isTrue => exact ih glued _
      case isFalse => exact ih (glued.push _) _

/-- The value of an attribute is pushed together from its tokens. -/
theorem attributeOfTokens_isGlued (written : AttributeTokens) (progress : Progress) :
    (attributeOfTokens options enclosing written progress).1.IsGlued := by
  obtain ⟨name, value, isExpression, isMultiple⟩ := written
  cases value with
  | none => exact fun _ isValue => nomatch isValue
  | some tokens =>
    rintro _ ⟨⟩
    exact tokensValue_isGlued options enclosing Value.isGlued_nil _ _

/-- So are the values of attributes. -/
theorem attributesOfTokens_isGlued (written : List AttributeTokens) (progress : Progress) :
    ∀ found ∈ (attributesOfTokens options enclosing written progress).1, found.IsGlued := by
  induction written generalizing progress with
  | nil => exact List.forall_mem_nil _
  | cons first rest ih =>
    exact List.forall_mem_cons.mpr
      ⟨attributeOfTokens_isGlued options enclosing first progress, ih _⟩

end

/-! ### Unrolling -/

/-- A run of unrolling gives tidy nodes. -/
def Tidies (run : Progress → List Node × Progress) : Prop := ∀ progress, AllTidy (run progress).1

/-- Filling a copy with its text leaves it tidy. -/
theorem fillCopy_tidy (options : ReadOptions) (iteration : Iteration) {nodes : List Node}
    (tidy : AllTidy nodes) (progress : Progress) :
    AllTidy (fillCopy options iteration nodes progress).1 := by
  rw [fillCopy]
  split
  case h_1 => exact tidy
  case h_2 =>
    split
    case isTrue => exact tidy
    case isFalse => exact tidy.changeDeepest fun _ glued => glued.pushText _

/-- Copies are tidy if one is. -/
theorem copiesFrom_tidies (options : ReadOptions) (iteration : Iteration)
    {copy : Iteration → Progress → List Node × Progress} (one : ∀ current, Tidies (copy current))
    (remaining : Nat) : Tidies (copiesFrom options iteration copy remaining) := by
  induction remaining with
  | zero => exact fun _ => Node.allTidy_nil
  | succ remaining ih =>
    intro progress
    have next (current : Iteration) : AllTidy (finishedCopy options copy current progress).1 :=
      fillCopy_tidy options current (one current progress) _
    rw [copiesFrom_succ]
    dsimp only
    split
    case isTrue => exact next _
    case isFalse => exact (next _).append (ih _)

/-- A repeat is tidy if one of its copies is. -/
theorem copies_tidies (options : ReadOptions) (enclosing : List Iteration)
    (repetition : Option Repeat)
    {copy : List Iteration → Option Iteration → Progress → List Node × Progress}
    (one : ∀ around iteration, Tidies (copy around iteration)) :
    Tidies (copies options enclosing repetition copy) := by
  cases repetition with
  | none => exact one enclosing none
  | some repetition =>
    exact fun progress => copiesFrom_tidies options _ (fun _ => one _ _) _ progress

/-- An element is tidy over tidy children. -/
theorem elementCopy_tidies (options : ReadOptions) (head : Head) (enclosing : List Iteration)
    (iteration : Option Iteration) {children : Progress → List Node × Progress}
    (below : Tidies children) :
    Tidies (elementCopy options head enclosing iteration children) := by
  intro progress
  rw [elementCopy_eq]
  have glued : Value.IsGlued (headTexts options enclosing head progress).1.2 :=
    tokensValue_isGlued options enclosing Value.isGlued_nil _ _
  exact Element.IsGlued.over ⟨glued, attributesOfTokens_isGlued options enclosing _ _⟩ (below _)

/-- A group is tidy if its members are. -/
theorem groupCopy_tidies (iteration : Option Iteration)
    {members : Progress → List Node × Progress} (inner : Tidies members) :
    Tidies (groupCopy iteration members) :=
  fun progress => markIteration_tidy iteration (inner progress)

mutual

/-- Unrolling a statement finds tidy nodes. -/
theorem unroll_tidies (options : ReadOptions) (statement : Statement)
    (enclosing : List Iteration) : Tidies (unroll options enclosing statement) := by
  cases statement with
  | element head children =>
    exact copies_tidies options enclosing head.repetition fun around iteration =>
      elementCopy_tidies options head around iteration
        (unrollAll_tidies options children around)
  | group members repetition =>
    rw [unroll_group]
    exact copies_tidies options enclosing repetition fun around iteration =>
      groupCopy_tidies iteration (unrollAll_tidies options members around)

/-- Unrolling statements finds tidy nodes. -/
theorem unrollAll_tidies (options : ReadOptions) (statements : List Statement)
    (enclosing : List Iteration) : Tidies (unrollAll options enclosing statements) := by
  intro progress
  cases statements with
  | nil => exact Node.allTidy_nil
  | cons first rest =>
    exact (unroll_tidies options first enclosing progress).append
      (unrollAll_tidies options rest enclosing _)

end

/-- What has been read is tidy, also if a text has been wrapped. -/
theorem nodesOfStatements_tidy (options : ReadOptions) (found : List Statement) :
    AllTidy (nodesOfStatements options found) := by
  have unrolled := unrollAll_tidies options found [] (.start options.maxRepeat)
  rw [nodesOfStatements]
  dsimp only
  split
  case h_1 => exact unrolled
  case h_2 =>
    split
    case isTrue => exact unrolled
    case isFalse => exact unrolled.changeDeepest fun _ glued => glued.wrapText options _

/-- Reading an abbreviation finds tidy nodes. -/
theorem nodes_tidy {options : ReadOptions} {source : String} {written : List Node}
    (read : nodes options source = .ok written) : AllTidy written := by
  rw [nodes] at read
  cases parsed : statements options.jsx source with
  | error fault => rw [parsed] at read; cases read
  | ok found =>
    rw [parsed] at read
    obtain rfl := Except.ok.inj read
    exact nodesOfStatements_tidy options found

end Shorthand.Markup
