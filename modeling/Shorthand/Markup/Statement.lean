import Shorthand.Markup.Token

/-!
# Statements of a markup abbreviation

A statement is an element with the statements below it, or a group of statements. Names,
values and attributes are still token lists, and repeats are only noted.
-/

namespace Shorthand.Markup

/-- A repeat as it is written: a count, or none for the implicit one. -/
structure Repeat where
  count : Nat
  isImplicit : Bool
  deriving DecidableEq, Repr

/-- An attribute as it is written. -/
structure AttributeTokens where
  name : Option (List Token)
  value : Option (List Token)
  isExpression : Bool
  isMultiple : Bool
  deriving DecidableEq, Repr

/-- The tokens of an attribute. -/
def AttributeTokens.tokens (written : AttributeTokens) : List Token :=
  written.name.getD [] ++ written.value.getD []

/-- An element as it is written, without the statements below it. -/
structure Head where
  name : Option (List Token)
  attributes : Option (List AttributeTokens)
  value : Option (List Token)
  repetition : Option Repeat
  isSelfClosing : Bool
  deriving DecidableEq, Repr

namespace Head

/-- A head of which nothing has been read. -/
def empty : Head := ⟨none, none, none, none, false⟩

/-- A head without name, attributes and text carries nothing. -/
def isEmpty (head : Head) : Bool :=
  head.name.isNone && head.value.isNone && head.attributes.isNone

/-- Add attributes behind those already read. -/
def addAttributes (head : Head) (added : List AttributeTokens) : Head :=
  { head with attributes := some (head.attributes.getD [] ++ added) }

/-- The tokens of an element. -/
def tokens (head : Head) : List Token :=
  head.name.getD [] ++ head.value.getD [] ++
    (head.attributes.getD []).flatMap AttributeTokens.tokens

end Head

/-- An element or a group. -/
inductive Statement where
  | element (head : Head) (children : List Statement)
  | group (members : List Statement) (repetition : Option Repeat)
  deriving Repr

namespace Statement

/-- The statements directly below an element or inside a group. -/
def inner : Statement → List Statement
  | element _ children => children
  | group members _ => members

/-- The same element or group over other statements. -/
def withInner (statements : List Statement) : Statement → Statement
  | element head _ => element head statements
  | group _ repetition => group statements repetition

/-- The repeat of an element or a group. -/
def repetition : Statement → Option Repeat
  | element head _ => head.repetition
  | group _ repetition => repetition

end Statement

mutual

/-- The elements of a statement in preorder. -/
def Statement.heads : Statement → List Head
  | .element head children => head :: headsAll children
  | .group members _ => headsAll members

/-- The elements of several statements in preorder. -/
def headsAll : List Statement → List Head
  | [] => []
  | first :: rest => first.heads ++ headsAll rest

end

end Shorthand.Markup
