import Shorthand.Span

/-!
# Tokens of a markup abbreviation

A token is a kind with its value and the span of characters it covers.
-/

namespace Shorthand.Markup

/-- The three pairs of brackets by what they enclose. -/
inductive Enclosure where
  /-- Round brackets around statements. -/
  | group
  /-- Square brackets around attributes. -/
  | attributes
  /-- Braces around text. -/
  | expression
  deriving DecidableEq, Repr

/-- The enclosure a bracket character belongs to. -/
def Enclosure.ofChar? : Char → Option Enclosure
  | '(' | ')' => some .group
  | '[' | ']' => some .attributes
  | '{' | '}' => some .expression
  | _ => none

/-- The opening or closing bracket of an enclosure. -/
def Enclosure.char (enclosure : Enclosure) (isOpen : Bool) : Char :=
  match enclosure, isOpen with
  | .group, true => '('
  | .group, false => ')'
  | .attributes, true => '['
  | .attributes, false => ']'
  | .expression, true => '{'
  | .expression, false => '}'

/-- The operators between and inside elements. -/
inductive Operator where
  /-- The next statement is a child. -/
  | child
  /-- The next statement is a sibling. -/
  | sibling
  /-- The next statement is a sibling of the parent. -/
  | climb
  /-- A class name follows. -/
  | className
  /-- An id follows. -/
  | identifier
  /-- The element closes itself. -/
  | close
  /-- An attribute value follows. -/
  | equal
  deriving DecidableEq, Repr

/-- The operator that a character writes. -/
def Operator.ofChar? : Char → Option Operator
  | '>' => some .child
  | '+' => some .sibling
  | '^' => some .climb
  | '.' => some .className
  | '#' => some .identifier
  | '/' => some .close
  | '=' => some .equal
  | _ => none

/-- The character of an operator. -/
def Operator.char : Operator → Char
  | .child => '>'
  | .sibling => '+'
  | .climb => '^'
  | .className => '.'
  | .identifier => '#'
  | .close => '/'
  | .equal => '='

/-- What a token is. -/
inductive Token.Kind where
  /-- Plain text, with escapes resolved. -/
  | literal (value : String)
  /-- Blanks between tokens. -/
  | whiteSpace (value : String)
  | quote (isSingle : Bool)
  | bracket (isOpen : Bool) (enclosure : Enclosure)
  | operator (operator : Operator)
  /-- A repeat count; without digits it is implicit. -/
  | repeater (count : Nat) (isImplicit : Bool)
  /-- The number of the current copy: its width in digits, whether it counts down, the
  number of the first copy, and how many enclosing repeaters to look up. -/
  | repeaterNumber (size : Nat) (isReverse : Bool) (base : Nat) (parent : Nat)
  /-- The place of the wrapped text. -/
  | repeaterPlaceholder
  /-- A numbered field or the name of a variable. -/
  | field (index : Option Nat) (name : String)
  deriving DecidableEq, Repr

/-- The name of a kind of token, as faults show it. -/
def Token.Kind.label : Token.Kind → String
  | .literal _ => "Literal"
  | .whiteSpace _ => "WhiteSpace"
  | .quote _ => "Quote"
  | .bracket _ _ => "Bracket"
  | .operator _ => "Operator"
  | .repeater _ _ => "Repeater"
  | .repeaterNumber _ _ _ _ => "RepeaterNumber"
  | .repeaterPlaceholder => "RepeaterPlaceholder"
  | .field _ _ => "Field"

/-- A kind of token at a place of the abbreviation. -/
structure Token where
  kind : Token.Kind
  span : Span
  deriving DecidableEq, Repr

end Shorthand.Markup
