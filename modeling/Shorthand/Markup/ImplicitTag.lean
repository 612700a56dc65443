import Shorthand.Config
import Shorthand.Markup.BlockNames

/-!
# Implicit tags

An element with attributes but without a name gets the name that its parent calls for.
-/

namespace Shorthand.Markup

/-- What has to be known about an element to expand those inside of it. -/
structure Ancestor where
  name : Option String
  iteration : Option Iteration
  names : BlockNames
  deriving DecidableEq, Repr

/-- Whether a name is that of an inline element, in any case. -/
def isInlineName (config : Config) (name : String) : Bool :=
  config.options.inlineElements.contains (LetterCase.lower name)

/-- The name of an element inside a parent. -/
def tagInside (config : Config) (parent : String) : String :=
  match LetterCase.lower parent with
  | "p" => "span"
  | "ul" | "ol" => "li"
  | "table" | "tbody" | "thead" | "tfoot" => "tr"
  | "tr" => "td"
  | "colgroup" => "col"
  | "select" | "optgroup" => "option"
  | "audio" | "video" => "source"
  | "object" => "param"
  | "map" => "area"
  | _ => if !parent.isEmpty && isInlineName config parent then "span" else "div"

/-- The name of an element inside ancestors, nearest first; the surroundings come last. -/
def implicitTag (config : Config) (ancestors : List Ancestor) : String :=
  let parent :=
    ancestors.findSome? Ancestor.name <|> config.surroundings.map Surroundings.name
  tagInside config (parent.getD "")

/-- Give an element the name that its ancestors call for. -/
def giveTag (config : Config) (ancestors : List Ancestor) (element : Element) : Element :=
  { element with name := some (implicitTag config ancestors) }

end Shorthand.Markup
