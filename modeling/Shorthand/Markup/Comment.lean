import Shorthand.Markup.Node
import Shorthand.Text.Lines

/-!
# Comments around elements

The text of a comment comes from a template. Names in capitals stand for the values of
attributes. A part in square brackets is kept only if all attributes in it are present.
-/

namespace Shorthand.Markup.Comment

/-- A capital that begins the name of an attribute. -/
def isCapital (c : Char) : Bool := 'A' ≤ c && c ≤ 'Z'

/-- A character inside the name of an attribute. -/
def isReferenceChar (c : Char) : Bool := isCapital c || c == '_' || c == '-'

/-- A piece of a template. -/
inductive Piece where
  | character (c : Char)
  | reference (name : List Char)
  | bracketed (text : List Char)
  deriving DecidableEq, Repr

/-- The text of a section that begins behind an opening bracket, and what follows it. -/
def section? (text : List Char) : Option (List Char × List Char) :=
  match text.dropWhile (· != ']') with
  | _ :: rest => some (text.takeWhile (· != ']'), rest)
  | [] => none

/-- A section takes some character. -/
theorem section?_length {text inner behind : List Char}
    (found : section? text = some (inner, behind)) : behind.length < text.length := by
  unfold section? at found
  have step := (text.dropWhile_suffix (· != ']')).length_le
  split at found
  · next ending =>
    simp only [Option.some.injEq, Prod.mk.injEq] at found
    simp only [ending, List.length_cons, found.2] at step
    omega
  · cases found

/-- The pieces of a template. Sections are told apart only if `hasSections` is set; a bracket
that is not closed is a character. -/
def pieces (hasSections : Bool) (text : List Char) : List Piece :=
  match text with
  | [] => []
  | first :: rest =>
    match _found : if hasSections && first == '[' then section? rest else none with
    | some (inner, behind) => .bracketed inner :: pieces hasSections behind
    | none =>
      if isCapital first then
        .reference (first :: rest.takeWhile isReferenceChar) ::
          pieces hasSections (rest.dropWhile isReferenceChar)
      else
        .character first :: pieces hasSections rest
termination_by text.length
decreasing_by
  · simp only [List.length_cons]
    split at _found
    · have := section?_length _found
      omega
    · cases _found
  · have := (List.dropWhile_sublist isReferenceChar (l := rest)).length_le
    simp only [List.length_cons]
    omega
  · simp

/-- The value of the attribute that a name in capitals stands for; class names are joined by
points. -/
def attributeText? (element : Element) (reference : List Char) : Option String := do
  let name := LetterCase.lower (String.ofList reference)
  let found ← element.attribute? name
  let text := Value.plain (← found.value)
  return if name = "class" then Text.join "." (Text.words text) else text

/-- Whether a piece refers to no attribute that is missing. -/
def isComplete (element : Element) : Piece → Bool
  | .reference name => (attributeText? element name).isSome
  | _ => true

/-- The text of a piece outside of sections. -/
def pieceText (element : Element) : Piece → String
  | .character c => c.toString
  | .reference name => (attributeText? element name).getD (String.ofList name)
  | .bracketed text => String.ofList text

/-- The text of a section. -/
def sectionText (element : Element) (text : List Char) : String :=
  let inner := pieces false text
  if inner.all (isComplete element) then String.join (inner.map (pieceText element)) else ""

/-- The text of a template for an element. -/
def render (template : String) (element : Element) : String :=
  String.join ((pieces true template.toList).map fun piece =>
    match piece with
    | .bracketed text => sectionText element text
    | piece => pieceText element piece)

end Shorthand.Markup.Comment
