import Shorthand.Markup.Node

/-!
# Elements of nodes in preorder

Every element stands before those below it, and siblings follow one another. The deepest
element, at the end of the chain of last children, is the last of them, so whatever replaces it
stands at the end of the list.
-/

namespace Shorthand.Markup.Node

mutual

/-- The elements of a tree in preorder. -/
def elements : Node → List Element
  | node element children => element :: elementsAll children

/-- The elements of some trees in preorder. -/
def elementsAll : List Node → List Element
  | [] => []
  | first :: rest => first.elements ++ elementsAll rest

end

mutual

/-- The element at the end of the chain of last children. -/
def deepest : Node → Element
  | node element children => (lastDeepest? children).getD element

/-- The deepest element of the last one of some trees. -/
def lastDeepest? : List Node → Option Element
  | [] => none
  | [last] => some last.deepest
  | _ :: second :: rest => lastDeepest? (second :: rest)

end

/-- Induction over trees: a statement about the children and about what follows them gives it for
the whole. -/
theorem forest_induction {motive : List Node → Prop} (nil : motive [])
    (cons : ∀ element children rest, motive children → motive rest →
      motive (node element children :: rest)) :
    ∀ nodes, motive nodes
  | [] => nil
  | node element children :: rest =>
    cons element children rest (forest_induction nil cons children)
      (forest_induction nil cons rest)

/-- Without nodes there are no elements. -/
@[simp] theorem elementsAll_nil : elementsAll [] = [] := rfl

/-- An element stands in front of those below it, and these in front of those behind it. -/
@[simp] theorem elementsAll_cons (element : Element) (children rest : List Node) :
    elementsAll (node element children :: rest) =
      element :: (elementsAll children ++ elementsAll rest) := rfl

/-- The elements of nodes in a row are those of each of them. -/
@[simp] theorem elementsAll_append (left right : List Node) :
    elementsAll (left ++ right) = elementsAll left ++ elementsAll right := by
  induction left with
  | nil => rfl
  | cons first rest ih => simp only [List.cons_append, elementsAll, ih, List.append_assoc]

/-- Nodes without elements are none. -/
@[simp] theorem elementsAll_eq_nil {nodes : List Node} : elementsAll nodes = [] ↔ nodes = [] := by
  cases nodes with
  | nil => simp
  | cons first rest => cases first; simp

/-- The elements of the outermost nodes are among all. -/
theorem root_mem_elementsAll {element : Element} {nodes : List Node}
    (mem : element ∈ nodes.map Node.element) : element ∈ elementsAll nodes := by
  obtain ⟨⟨_, children⟩, isNode, rfl⟩ := List.mem_map.mp mem
  obtain ⟨before, behind, rfl⟩ := List.append_of_mem isNode
  simp [Node.element]

/-- The elements below the outermost nodes are among all. -/
theorem below_mem_elementsAll {element : Element} {nodes : List Node}
    (mem : element ∈ elementsAll (nodes.flatMap Node.children)) : element ∈ elementsAll nodes := by
  induction nodes with
  | nil => exact mem
  | cons first rest ih =>
    obtain ⟨root, children⟩ := first
    rw [List.flatMap_cons, elementsAll_append, List.mem_append] at mem
    rw [elementsAll_cons, List.mem_cons, List.mem_append]
    exact .inr (mem.imp_right ih)

mutual

/-- The deepest element is the last one, and changing it leaves the others. -/
theorem elements_deepest (tree : Node) :
    ∃ before, tree.elements = before ++ [tree.deepest] ∧
      ∀ change, (mapDeepest change tree).elements = before ++ (change tree.deepest).elements := by
  cases tree with
  | node element children =>
    cases children with
    | nil => exact ⟨[], rfl, fun _ => rfl⟩
    | cons first rest =>
      obtain ⟨before, last, same, isLast, replaced⟩ :=
        elementsAll_deepest (List.cons_ne_nil first rest)
      have isDeepest : deepest (node element (first :: rest)) = last := by
        rw [deepest, isLast, Option.getD_some]
      refine ⟨element :: before, ?_, fun change => ?_⟩
      · rw [elements, same, isDeepest, List.cons_append]
      · rw [mapDeepest, elements, replaced, isDeepest, List.cons_append]

/-- The deepest element is the last one in preorder, and what replaces it stands there. -/
theorem elementsAll_deepest {nodes : List Node} (filled : nodes ≠ []) :
    ∃ before last, elementsAll nodes = before ++ [last] ∧ lastDeepest? nodes = some last ∧
      ∀ change, elementsAll (mapLastDeepest change nodes) = before ++ (change last).elements := by
  match nodes with
  | [only] =>
    obtain ⟨before, same, replaced⟩ := elements_deepest only
    refine ⟨before, only.deepest, ?_, rfl, fun change => ?_⟩
    · rw [elementsAll, elementsAll, List.append_nil, same]
    · rw [mapLastDeepest, elementsAll, elementsAll, List.append_nil, replaced]
  | first :: second :: rest =>
    obtain ⟨before, last, same, isLast, replaced⟩ :=
      elementsAll_deepest (List.cons_ne_nil second rest)
    refine ⟨first.elements ++ before, last, ?_, isLast, fun change => ?_⟩
    · rw [elementsAll, same, List.append_assoc]
    · rw [mapLastDeepest, elementsAll, replaced, List.append_assoc]

end

/-- A change of the deepest element makes nodes vanish only if there are none. -/
theorem mapLastDeepest_eq_nil {change : Element → Node} {nodes : List Node} :
    mapLastDeepest change nodes = [] ↔ nodes = [] := by
  match nodes with
  | [] => simp [mapLastDeepest]
  | [_] => simp [mapLastDeepest]
  | _ :: _ :: _ => simp [mapLastDeepest]

end Shorthand.Markup.Node
