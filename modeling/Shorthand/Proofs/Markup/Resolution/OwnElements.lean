import Shorthand.Proofs.Markup.Preorder
import Shorthand.Proofs.Markup.Resolution.Step

/-!
# What resolving keeps of an abbreviation

The children of an element go below the deepest node of its snippet, which is the last one in
preorder. So the elements of an answer are, one after the other, what the elements of the
abbreviation become by themselves, and an element without a snippet stays as it is. Only a
snippet without nodes has no place for children: what stands below such an element is lost. The
main statement is `elementsAll_resolveSnippets`.
-/

namespace Shorthand.Markup

/-- The elements that an element without children becomes. -/
def expansion (config : Config) (element : Element) : List Element :=
  Node.elementsAll (resolveSnippets config [.node element []])

/-- Whether no snippet is for an element: it has no name, or none that is a key. -/
def isOwn (config : Config) (element : Element) : Bool :=
  (element.name.bind config.snippets.get?).isNone

mutual

/-- The elements of a tree that are not below an element without nodes of its own, in
preorder. -/
def reached (config : Config) : Node → List Element
  | .node element children =>
    element :: if (expansion config element).isEmpty then [] else reachedAll config children

/-- The elements of some trees that are not below an element without nodes of its own. -/
def reachedAll (config : Config) : List Node → List Element
  | [] => []
  | first :: rest => reached config first ++ reachedAll config rest

end

/-- An element with nodes of its own has no snippet. -/
theorem snippet?_own {config : Config} {element : Element} (own : isOwn config element)
    (pending : List String) : snippet? config pending element = none := by
  rw [isOwn, Option.isNone_iff_eq_none] at own
  refine Option.eq_none_iff_forall_ne_some.mpr fun found isFound => ?_
  have known := (snippet?_eq_some.mp isFound).1
  rw [own] at known
  cases known

/-- An element without a snippet stays as it is. -/
theorem expansion_own {config : Config} {element : Element} (own : isOwn config element) :
    expansion config element = [element] := by
  rw [expansion, resolveSnippets, resolveNodes_stays (snippet?_own own [])]
  simp [resolveNodes]

/-- What is put below the deepest of some nodes stands behind all of them. -/
theorem elementsAll_appendDeepest {nodes : List Node} (filled : nodes ≠ []) (added : List Node) :
    Node.elementsAll (appendDeepest added nodes) =
      Node.elementsAll nodes ++ Node.elementsAll added := by
  obtain ⟨before, last, same, -, replaced⟩ := Node.elementsAll_deepest filled
  rw [appendDeepest, replaced, same]
  simp [Node.elements]

/-- Resolving an element gives what it becomes by itself, then what its children become unless
there is no place for them. -/
theorem elementsAll_resolve_cons (config : Config) (element : Element)
    (children rest : List Node) :
    Node.elementsAll (resolveSnippets config (.node element children :: rest)) =
      expansion config element ++
        ((if (expansion config element).isEmpty then []
          else Node.elementsAll (resolveSnippets config children)) ++
        Node.elementsAll (resolveSnippets config rest)) := by
  simp only [expansion, resolveSnippets]
  cases found : snippet? config [] element with
  | none => simp [resolveNodes_stays found, resolveNodes]
  | some snippet =>
    obtain ⟨text, written⟩ := snippet
    simp only [resolveNodes_expands found]
    generalize List.map _ _ = expanded
    cases expanded with
    | nil => simp [appendDeepest, Node.mapLastDeepest, resolveNodes]
    | cons first others =>
      simp [elementsAll_appendDeepest (List.cons_ne_nil first others), resolveNodes]

/-- The elements of an answer are, in preorder, what the elements of the abbreviation become by
themselves: an element without a snippet becomes itself alone, so it occurs once, unchanged and
in its place. Elements are lost exactly below an element that becomes nothing, and none is if
there is no such element. -/
theorem elementsAll_resolveSnippets (config : Config) (nodes : List Node) :
    Node.elementsAll (resolveSnippets config nodes) =
        (reachedAll config nodes).flatMap (expansion config) ∧
      (∀ element, isOwn config element → expansion config element = [element]) ∧
      ((∀ element ∈ Node.elementsAll nodes, expansion config element ≠ []) →
        reachedAll config nodes = Node.elementsAll nodes) := by
  refine ⟨?_, fun _ => expansion_own, ?_⟩
  · induction nodes using Node.forest_induction with
    | nil => simp [resolveSnippets, resolveNodes, reachedAll]
    | cons element children rest below behind =>
      rw [elementsAll_resolve_cons, below, behind, reachedAll, reached]
      split <;> simp
  · intro filled
    induction nodes using Node.forest_induction with
    | nil => rfl
    | cons element children rest below behind =>
      simp only [Node.elementsAll_cons, List.forall_mem_cons, List.forall_mem_append] at filled
      simp [reachedAll, reached, filled.1, below filled.2.1, behind filled.2.2]

/-- The abbreviation of nothing stands for no nodes. -/
theorem nodes_nothing (options : ReadOptions) : nodes options "" = .ok [] := by
  have lexed : tokens "" = .ok [] := by
    rw [tokens, show "".toList = [] from rfl, tokensFrom]
    rfl
  have nothing : statements options.jsx "" = .ok [] := by
    rw [statements_eq lexed, mapError_within_eq_ok_iff]
    simp [statementsOfTokens, readStatements, Place.close, Place.top]
  cases text : options.text <;>
    simp [nodes, nothing, nodesOfStatements, unrollAll, text, Node.mapLastDeepest, bind,
      Except.bind, pure, Except.pure]

/-- With a snippet `x` without nodes, `x>p` loses the element `p`, which has no snippet. -/
theorem own_lost_below_nothing :
    ∃ config element, isOwn config element ∧
      element ∈ Node.elementsAll [.node (.named "x") [.node element []]] ∧
      Node.elementsAll (resolveSnippets config [.node (.named "x") [.node element []]]) = [] := by
  let config : Config := { Config.ofSettings .blank with snippets := .ofList [("x", "")] }
  have gone : expansion config (.named "x") = [] := by
    have found : snippet? config [] (.named "x") = some ("", []) :=
      snippet?_eq_some.mpr ⟨by decide, by simp, nodes_nothing _⟩
    simp [expansion, resolveSnippets, resolveNodes_expands found, resolveNodes, appendDeepest,
      Node.mapLastDeepest]
  refine ⟨config, .named "p", by decide, by simp, ?_⟩
  rw [(elementsAll_resolveSnippets config _).1]
  simp [reachedAll, reached, gone]

end Shorthand.Markup
