import Shorthand.Proofs.Markup.Preorder

/-!
# Trees of one shape

Two lists of trees are alike if they have one shape and their elements correspond: those of the
first level in one way, those below in another. Putting trees together or grafting them below
the deepest element keeps likeness.
-/

namespace Shorthand.Markup.Node

mutual

/-- Change every element of a tree. -/
def mapEach (change : Element → Element) : Node → Node
  | node element children => node (change element) (mapEachAll change children)

/-- Change every element of some trees. -/
def mapEachAll (change : Element → Element) : List Node → List Node
  | [] => []
  | first :: rest => mapEach change first :: mapEachAll change rest

end

/-- Trees of one shape, whose roots are related by `top` and whose other elements by `below`. -/
inductive Alike (below : Element → Element → Prop) :
    (top : Element → Element → Prop) → List Node → List Node → Prop where
  | nil {top} : Alike below top [] []
  | cons {top} {left right : Element} {leftChildren rightChildren leftRest rightRest : List Node} :
    top left right → Alike below below leftChildren rightChildren →
    Alike below top leftRest rightRest →
    Alike below top (node left leftChildren :: leftRest) (node right rightChildren :: rightRest)

namespace Alike

variable {below top : Element → Element → Prop} {left right : List Node}

/-- Every list of trees is like itself. -/
theorem refl {related : Element → Element → Prop} (same : ∀ element, related element element)
    (nodes : List Node) : Alike related related nodes nodes := by
  induction nodes using forest_induction with
  | nil => exact .nil
  | cons element children rest children_ih rest_ih =>
    exact .cons (same element) children_ih rest_ih

/-- Trees are like those in which the deepest element at the end has been changed. -/
theorem changeDeepest {related : Element → Element → Prop} {change : Element → Element}
    (same : ∀ element, related element element)
    (changes : ∀ element, related element (change element)) (nodes : List Node) :
    Alike related related nodes
      (mapLastDeepest (fun element => node (change element) []) nodes) := by
  induction nodes using forest_induction with
  | nil => exact .nil
  | cons element children rest children_ih rest_ih =>
    cases rest with
    | nil =>
      cases children with
      | nil => exact .cons (changes element) .nil .nil
      | cons => exact .cons (same element) children_ih .nil
    | cons => exact .cons (same element) (.refl same children) rest_ih

/-- Nodes that are alike are so in every wider sense. -/
theorem mono {wider : Element → Element → Prop} (alike : Alike below top left right)
    (widens : ∀ l r, top l r → wider l r) : Alike below wider left right := by
  induction alike generalizing wider with
  | nil => exact .nil
  | cons roots children _ _ ih => exact .cons (widens _ _ roots) children (ih widens)

/-- Nodes that are alike in a row are alike. -/
theorem append {left' right' : List Node} (alike : Alike below top left right)
    (alike' : Alike below top left' right') :
    Alike below top (left ++ left') (right ++ right') := by
  induction alike with
  | nil => exact alike'
  | cons roots children _ _ ih => exact .cons roots children (ih alike')

/-- Roots may be changed into roots that are related in another way. -/
theorem map_mapElement {changed : Element → Element → Prop} {change change' : Element → Element}
    (alike : Alike below top left right)
    (changes : ∀ l r, top l r → changed (change l) (change' r)) :
    Alike below changed (left.map (mapElement change)) (right.map (mapElement change')) := by
  induction alike with
  | nil => exact .nil
  | cons roots children _ _ ih => exact .cons (changes _ _ roots) children (ih changes)

/-- Every element may be changed if all of them become related in one way. -/
theorem mapEachAll {changed : Element → Element → Prop} {change change' : Element → Element}
    (alike : Alike below top left right)
    (roots : ∀ l r, top l r → changed (change l) (change' r))
    (others : ∀ l r, below l r → changed (change l) (change' r)) :
    Alike changed changed (mapEachAll change left) (mapEachAll change' right) := by
  induction alike with
  | nil => exact .nil
  | cons root _ _ children rest => exact .cons (roots _ _ root) (children others) (rest roots)

/-- Trees that are put below the deepest elements are below, whatever those are. -/
theorem graft {added added' : List Node} (alike : Alike below top left right)
    (addedAlike : Alike below below added added') :
    Alike below top (mapLastDeepest (fun element => node element added) left)
      (mapLastDeepest (fun element => node element added') right) := by
  induction alike with
  | nil => exact .nil
  | cons root children rest deeper behind =>
    cases rest with
    | nil =>
      cases children with
      | nil => exact .cons root addedAlike .nil
      | cons => exact .cons root deeper .nil
    | cons => exact .cons root children behind

end Alike

end Shorthand.Markup.Node
