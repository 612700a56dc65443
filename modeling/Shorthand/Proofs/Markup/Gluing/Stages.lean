import Shorthand.Proofs.Markup.Gluing.Reading
import Shorthand.Proofs.Markup.Resolution.OwnElements

/-!
# Glued values in every stage

Reading makes glued values, resolving puts elements that have been read into the place of others,
and transforming changes one element after the other. So the values are glued wherever writers find
them. The main statement is `values_glued`.
-/

namespace Shorthand.Markup

/-- The values of all elements of some trees are glued. -/
def Node.AllGlued (nodes : List Node) : Prop := ∀ element ∈ elementsAll nodes, element.IsGlued

namespace Node.AllGlued

theorem nil : AllGlued [] := List.forall_mem_nil _

/-- Nodes are glued if the first element, its children and the others are. -/
theorem cons_iff {element : Element} {children rest : List Node} :
    AllGlued (node element children :: rest) ↔
      element.IsGlued ∧ AllGlued children ∧ AllGlued rest := by
  simp only [AllGlued, elementsAll_cons, List.forall_mem_cons, List.forall_mem_append]

/-- Glued nodes in a row are glued. -/
theorem append {left right : List Node} (gluedLeft : AllGlued left) (gluedRight : AllGlued right) :
    AllGlued (left ++ right) := by
  rw [AllGlued, elementsAll_append]
  exact List.forall_mem_append.mpr ⟨gluedLeft, gluedRight⟩

/-- A change of the outermost elements that keeps texts apart does so of all. -/
theorem mapRoots {nodes : List Node} (glued : AllGlued nodes) {change : Element → Element}
    (keeps : ∀ element, element.IsGlued → (change element).IsGlued) :
    AllGlued (nodes.map (mapElement change)) := by
  induction nodes with
  | nil => exact nil
  | cons first rest ih =>
    obtain ⟨element, children⟩ := first
    obtain ⟨root, below, behind⟩ := cons_iff.mp glued
    exact cons_iff.mpr ⟨keeps element root, below, ih behind⟩

/-- Nodes put below the deepest one are as they were. -/
theorem appendDeepest {added nodes : List Node} (gluedAdded : AllGlued added)
    (glued : AllGlued nodes) : AllGlued (appendDeepest added nodes) := by
  cases nodes with
  | nil => exact nil
  | cons first rest =>
    rw [AllGlued, elementsAll_appendDeepest (List.cons_ne_nil first rest)]
    exact List.forall_mem_append.mpr ⟨glued, gluedAdded⟩

end Node.AllGlued

open Node (AllGlued)

/-- The nodes of snippets have been read, and they get their values from elements that have been
read. -/
theorem resolveNodes_glued (config : Config) (pending : List String) (nodes : List Node) :
    AllGlued nodes → AllGlued (resolveNodes config pending nodes) := by
  induction pending, nodes using resolve_induction config with
  | nil pending =>
    intro _
    rw [resolveNodes]
    exact .nil
  | stays pending element children rest stays below behind =>
    intro glued
    obtain ⟨root, gluedChildren, gluedRest⟩ := Node.AllGlued.cons_iff.mp glued
    rw [resolveNodes_stays stays]
    exact Node.AllGlued.cons_iff.mpr ⟨root, below gluedChildren, behind gluedRest⟩
  | expands pending element children rest text written found inner below behind =>
    intro glued
    obtain ⟨root, gluedChildren, gluedRest⟩ := Node.AllGlued.cons_iff.mp glued
    have read := (snippet?_eq_some.mp found).2.2
    have expanded : AllGlued ((resolveNodes config (text :: pending) written).map
        (Node.mapElement (inherit config.options.output.reverseAttributes element))) :=
      (inner (nodes_tidy read).glued).mapRoots fun own gluedOwn => root.inherit gluedOwn _
    rw [resolveNodes_expands found]
    exact ((below gluedChildren).appendDeepest expanded).append (behind gluedRest)

/-- Transforming nodes keeps texts apart. -/
theorem transformNodes_glued {State : Type} (draws : Draws State) (config : Config)
    (ancestors : List Ancestor) {nodes : List Node} (glued : AllGlued nodes) (state : State) :
    AllGlued (transformNodes draws config ancestors nodes state).1 := by
  induction nodes using Node.forest_induction generalizing ancestors state with
  | nil =>
    rw [transformNodes]
    exact .nil
  | cons element children rest below behind =>
    obtain ⟨root, gluedChildren, gluedRest⟩ := Node.AllGlued.cons_iff.mp glued
    rw [transformNodes_cons]
    exact Node.AllGlued.cons_iff.mpr
      ⟨root.transformElement draws config ancestors _ state, below _ gluedChildren _,
        behind _ gluedRest _⟩

/-- In no value of an element or of an attribute does a text stand behind another one, neither
after reading nor after resolving snippets nor after transforming. After reading, an element that
is only a text has no children. -/
theorem values_glued {State : Type} (draws : Draws State) (options : ReadOptions)
    (config : Config) (state : State) {source : String} {written : List Node}
    (read : nodes options source = .ok written) :
    (∀ node ∈ Node.withinAll written,
      node.element.IsGlued ∧ (node.element.isPlainText → node.children = [])) ∧
    (∀ element ∈ Node.elementsAll (resolveSnippets config written), element.IsGlued) ∧
    ∀ element ∈ Node.elementsAll
      (transform draws config (resolveSnippets config written) state).1, element.IsGlued := by
  have tidy := nodes_tidy read
  have resolved := resolveNodes_glued config [] written tidy.glued
  refine ⟨fun node within => ⟨(tidy node within).glued, (tidy node within).childless⟩, resolved, ?_⟩
  exact transformNodes_glued draws config [] resolved state

/-- Of `p{a$b${1}c$}>{x}>a`, a number and the texts around it are one text, and the link that is
written below the text `x` stands behind it. -/
theorem values_glued_behind_text :
    ∃ written, nodes ⟨false, false, none, .empty, none⟩
        "p\x7ba$b$\x7b1\x7dc$\x7d>\x7bx\x7d>a" = .ok written ∧
      (Node.elementsAll written).map Element.value =
        [[.text "a1b", .field 1 "", .text "c1"], [.text "x"], []] ∧
      (written.flatMap Node.children).map (fun node => node.children.length) = [0, 0] ∧
      (∀ node ∈ Node.withinAll written,
        node.element.IsGlued ∧ (node.element.isPlainText → node.children = [])) ∧
      (∀ element ∈ Node.elementsAll (resolveSnippets (.ofSettings .blank) written),
        element.IsGlued) ∧
      ∀ element ∈ Node.elementsAll (transform .congruential (.ofSettings .blank)
        (resolveSnippets (.ofSettings .blank) written) 0).1, element.IsGlued := by
  have checked : (match nodes ⟨false, false, none, .empty, none⟩
        "p\x7ba$b$\x7b1\x7dc$\x7d>\x7bx\x7d>a" with
      | .ok written => decide ((Node.elementsAll written).map Element.value =
            [[.text "a1b", .field 1 "", .text "c1"], [.text "x"], []] ∧
          (written.flatMap Node.children).map (fun node => node.children.length) = [0, 0])
      | .error _ => false) = true := by
    decide +kernel
  cases read : nodes ⟨false, false, none, .empty, none⟩ "p\x7ba$b$\x7b1\x7dc$\x7d>\x7bx\x7d>a" with
  | error fault =>
    rw [read] at checked
    cases checked
  | ok written =>
    rw [read] at checked
    obtain ⟨values, childless⟩ := of_decide_eq_true checked
    exact ⟨written, rfl, values, childless,
      values_glued .congruential _ (.ofSettings .blank) 0 read⟩

end Shorthand.Markup
