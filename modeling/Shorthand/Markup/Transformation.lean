import Shorthand.Markup.Attributes
import Shorthand.Markup.Filler
import Shorthand.Markup.Resolution

/-!
# Transforming resolved nodes

Every element, from the outside in, gets an implicit name, merged attributes, filler text,
the attribute names of the dialect and full block names.
-/

namespace Shorthand.Markup

section

variable {State : Type} (draws : Draws State) (config : Config)

/-- Write out the block names of an element, if they are in use. -/
def nameBlocks (ancestors : List Ancestor) (element : Element) : BlockNames × Element :=
  if config.options.block.enabled then
    BlockNames.apply config (ancestors.map Ancestor.names) element
  else
    (.empty, element)

/-- Transform one element inside ancestors, nearest first. The answer holds what the elements
inside of it have to know. -/
def transformElement (ancestors : List Ancestor) (hasChildren : Bool) (element : Element)
    (state : State) : Element × Ancestor × State :=
  let tagged :=
    if element.name.isNone && !element.attributes.isEmpty then
      giveTag config ancestors element
    else
      element
  let (filled, state) :=
    Filler.apply draws config ancestors (mergeAttributes config tagged) state
  let selected :=
    if config.dialect = .xsl then dropSelection hasChildren filled else filled
  let (names, named) := nameBlocks config ancestors (renameAttributes config selected)
  (named, ⟨named.name, named.iteration, names⟩, state)

mutual

/-- Transform a node and what is inside of it. -/
def transformNode (ancestors : List Ancestor) : Node → State → Node × State
  | .node element children, state =>
    let (changed, ancestor, state) :=
      transformElement draws config ancestors (!children.isEmpty) element state
    let (inner, state) := transformNodes (ancestor :: ancestors) children state
    (.node changed inner, state)

/-- Transform nodes from first to last. -/
def transformNodes (ancestors : List Ancestor) : List Node → State → List Node × State
  | [], state => ([], state)
  | first :: rest, state =>
    let (changed, state) := transformNode ancestors first state
    let (others, state) := transformNodes ancestors rest state
    (changed :: others, state)

end

/-- Transform the nodes of an abbreviation. -/
def transform (nodes : List Node) (state : State) : List Node × State :=
  transformNodes draws config [] nodes state

end

end Shorthand.Markup
