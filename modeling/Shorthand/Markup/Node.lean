import Shorthand.Text.LetterCase

/-!
# Nodes of an expanded abbreviation

A node is an element with its children: name, text and attributes are final texts and
fields, and every copy of a repeated statement is a node of its own.
-/

namespace Shorthand.Markup

/-- A piece of a text or of an attribute value. -/
inductive Part where
  | text (text : String)
  /-- An editor field with its number and placeholder. -/
  | field (index : Nat) (name : String)
  deriving DecidableEq, Repr

namespace Part

/-- Whether a part is a field. -/
def isField : Part → Bool
  | .text _ => false
  | .field _ _ => true

/-- What a part shows: its text, or the placeholder of a field. -/
def shown : Part → String
  | .text written => written
  | .field _ name => name

end Part

/-- The parts of a text or of an attribute value. -/
abbrev Value := List Part

namespace Value

/-- Add a part at the end. A text behind a text becomes one with it. -/
def push (added : Part) : Value → Value
  | [] => [added]
  | [.text last] =>
    match added with
    | .text text => [.text (last ++ text)]
    | .field _ _ => [.text last, added]
  | part :: rest => part :: push added rest

/-- Add a text at the end. -/
def pushText (text : String) (value : Value) : Value := value.push (.text text)

/-- What a value shows as plain text. -/
def plain (value : Value) : String := String.join (value.map Part.shown)

/-- Whether a value holds a field. -/
def hasField (value : Value) : Bool := value.any Part.isField

end Value

/-- How the value of an attribute was written. -/
inductive ValueKind where
  | raw
  | singleQuoted
  | doubleQuoted
  | expression
  deriving DecidableEq, Repr

/-- An attribute of an element. -/
structure Attribute where
  name : Option String
  value : Option Value
  /-- Written without a value. -/
  isBoolean : Bool
  /-- Written only when it has a value. -/
  isImplied : Bool
  kind : ValueKind
  /-- Given by several operators in a row. -/
  isMultiple : Bool
  deriving DecidableEq, Repr

namespace Attribute

/-- A plain attribute with a name. -/
def named (name : String) (value : Option Value) : Attribute :=
  ⟨some name, value, false, false, .raw, false⟩

/-- Whether an attribute has a name, in any ASCII case. -/
def isNamed (name : String) (candidate : Attribute) : Bool :=
  candidate.name.any (LetterCase.sameIgnoringAsciiCase name)

end Attribute

/-- Which copy of a repeated statement something is. -/
structure Iteration where
  count : Nat
  /-- The number of the copy, from zero. -/
  index : Nat
  isImplicit : Bool
  deriving DecidableEq, Repr

/-- A node without its children. -/
structure Element where
  name : Option String
  /-- The text; empty when there is none. -/
  value : Value
  attributes : List Attribute
  iteration : Option Iteration
  isSelfClosing : Bool
  deriving DecidableEq, Repr

namespace Element

/-- An element that says nothing. -/
def empty : Element := ⟨none, [], [], none, false⟩

/-- An element of which only the name is known. -/
def named (name : String) : Element := { empty with name := some name }

/-- An element without name and attributes, which is only text. -/
def isBare (element : Element) : Bool := element.name.isNone && element.attributes.isEmpty

/-- The first attribute of a name, in any ASCII case. -/
def attribute? (element : Element) (name : String) : Option Attribute :=
  element.attributes.find? (Attribute.isNamed name)

/-- Change the first attribute of a name. -/
def updateAttribute (element : Element) (name : String) (change : Attribute → Attribute) :
    Element :=
  let rec update : List Attribute → List Attribute
    | [] => []
    | first :: rest =>
      if first.isNamed name then change first :: rest else first :: update rest
  { element with attributes := update element.attributes }

/-- Add text behind the text of an element. -/
def pushText (element : Element) (text : String) : Element :=
  { element with value := element.value.pushText text }

end Element

/-- An element and its children. -/
inductive Node where
  | node (element : Element) (children : List Node)
  deriving Repr

namespace Node

/-- The element of a node. -/
def element : Node → Element
  | node element _ => element

/-- The children of a node. -/
def children : Node → List Node
  | node _ children => children

/-- Change the element of a node. -/
def mapElement (change : Element → Element) : Node → Node
  | node element children => node (change element) children

mutual

/-- Replace the last node of the chain of last children; it has no children itself. -/
def mapDeepest (change : Element → Node) : Node → Node
  | node element [] => change element
  | node element (first :: rest) => node element (mapLastDeepest change (first :: rest))

/-- Replace the deepest node of the last one in a list. -/
def mapLastDeepest (change : Element → Node) : List Node → List Node
  | [] => []
  | [last] => [mapDeepest change last]
  | first :: second :: rest => first :: mapLastDeepest change (second :: rest)

end

end Node

end Shorthand.Markup
