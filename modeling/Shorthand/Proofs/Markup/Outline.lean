import Shorthand.Markup.Unrolling

/-!
# Outlines and how they are written

An outline is a statement by its meaning: an element with plain names and arbitrary texts, or
a group, either of them with a count of copies. It is written with a backslash before every
character of a text, so that no text is taken for a mark, and with round brackets around
every element among others, so that no operator reaches further than its element.
`Outline.print` gives the abbreviation and `Outline.nodes` the nodes it stands for.
-/

namespace Shorthand.Markup

/-- The number of copies of a statement. It is positive and fits into a machine word. -/
structure CopyCount where
  value : Nat
  positive : 0 < value
  bounded : value < Digits.wordLimit

/-- A character of a plain element name: an ASCII letter, a digit, an underscore, a dash or a
colon. -/
def isPlainNameChar (c : Char) : Bool := CharClass.wordOrDigit c || c == '-' || c == ':'

/-- An attribute with a name of letters and a value of any characters. -/
structure OutlineAttribute where
  name : String
  value : String
  named : name.toList ≠ []
  letters : ∀ c ∈ name.toList, CharClass.letter c

/-- An element without the statements below it. Its text is missing or holds something. -/
structure OutlineHead where
  name : String
  attributes : List OutlineAttribute
  text : Option String
  count : Option CopyCount
  named : name.toList ≠ []
  plain : ∀ c ∈ name.toList, isPlainNameChar c
  filled : ∀ written ∈ text, written.toList ≠ []

/-- An element with the statements below it, or a group of statements. -/
inductive Outline where
  | element (head : OutlineHead) (children : List Outline)
  | group (members : List Outline) (count : Option CopyCount)

/-! ### The written form -/

/-- A text with a backslash before every character. -/
def escaped (text : List Char) : List Char := text.flatMap fun c => ['\\', c]

/-- A count of copies, as it is written behind an element or a group. -/
def printCount : Option CopyCount → List Char
  | none => []
  | some count => '*' :: Nat.toDigits 10 count.value

/-- A text in braces. -/
def printText : Option String → List Char
  | none => []
  | some text => '{' :: (escaped text.toList ++ ['}'])

/-- An attribute with its quoted value. -/
def OutlineAttribute.print (written : OutlineAttribute) : List Char :=
  written.name.toList ++ '=' :: '"' :: (escaped written.value.toList ++ ['"'])

/-- Further attributes, each behind a blank. -/
def printMoreAttributes (attributes : List OutlineAttribute) : List Char :=
  attributes.flatMap fun written => ' ' :: written.print

/-- Attributes in square brackets, with blanks between them. -/
def printAttributes : List OutlineAttribute → List Char
  | [] => []
  | first :: rest => '[' :: (first.print ++ printMoreAttributes rest ++ [']'])

/-- An element without the statements below it. -/
def OutlineHead.print (head : OutlineHead) : List Char :=
  head.name.toList ++ printAttributes head.attributes ++ printText head.text ++
    printCount head.count

/-- Put round brackets around an element; a group has its own. -/
def Outline.enclose (outline : Outline) (printed : List Char) : List Char :=
  match outline with
  | .element _ _ => '(' :: (printed ++ [')'])
  | .group _ _ => printed

mutual

/-- An outline as it is written. -/
def Outline.print : Outline → List Char
  | .element head children => head.print ++ printJoined ['>'] children
  | .group members count => '(' :: (printJoined [] members ++ ')' :: printCount count)

/-- Outlines joined by plus signs, with `lead` in front of the first one and round brackets
around elements. -/
def printJoined (lead : List Char) : List Outline → List Char
  | [] => []
  | first :: rest => lead ++ first.enclose first.print ++ printJoined ['+'] rest

end

/-- The abbreviation that outlines are written as. -/
def printAll (outlines : List Outline) : String := String.ofList (printJoined [] outlines)

/-! ### The meaning -/

/-- The copies of a statement. Without a count there is one, which is no copy. -/
def copied (count : Option CopyCount) (copy : Option Iteration → List Node) : List Node :=
  match count with
  | none => copy none
  | some count =>
    (List.range count.value).flatMap fun index => copy (some ⟨count.value, index, false⟩)

/-- Note the copy of a group on a node that is no copy itself. -/
def noteCopy (iteration : Option Iteration) : Node → Node
  | .node element children =>
    match element.iteration with
    | none => .node { element with iteration } children
    | some _ => .node element children

/-- The parts of a text; an empty one has none. -/
def textValue (text : String) : Value := if text.toList = [] then [] else [.text text]

/-- The attribute that is meant. -/
def OutlineAttribute.meant (written : OutlineAttribute) : Attribute :=
  { Attribute.named written.name (some (textValue written.value)) with kind := .doubleQuoted }

/-- The element that is meant, as one of its copies. -/
def OutlineHead.meant (head : OutlineHead) (iteration : Option Iteration) : Element :=
  { Element.named head.name with
    value := textValue (head.text.getD "")
    attributes := head.attributes.map OutlineAttribute.meant
    iteration }

mutual

/-- The nodes that an outline stands for. -/
def Outline.nodes : Outline → List Node
  | .element head children =>
    copied head.count fun iteration => [.node (head.meant iteration) (forest children)]
  | .group members count =>
    copied count fun iteration => (forest members).map (noteCopy iteration)

/-- The nodes that outlines stand for, from first to last. -/
def forest : List Outline → List Node
  | [] => []
  | first :: rest => first.nodes ++ forest rest

end

end Shorthand.Markup
