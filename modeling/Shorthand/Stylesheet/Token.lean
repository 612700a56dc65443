import Shorthand.Span
import Shorthand.Stylesheet.Color

/-!
# Tokens of a stylesheet abbreviation
-/

namespace Shorthand.Stylesheet

/-- The marks between declarations and values. -/
inductive Operator where
  /-- The next declaration follows. -/
  | sibling
  /-- The declaration is important. -/
  | important
  /-- The next fragment or argument follows. -/
  | comma
  /-- A value follows. -/
  | colon
  /-- A value follows, or the next value token. -/
  | dash
  deriving DecidableEq, Repr

/-- The operator that a character writes. -/
def Operator.ofChar? : Char → Option Operator
  | '+' => some .sibling
  | '!' => some .important
  | ',' => some .comma
  | ':' => some .colon
  | '-' => some .dash
  | _ => none

/-- The character of an operator. -/
def Operator.char : Operator → Char
  | .sibling => '+'
  | .important => '!'
  | .comma => ','
  | .colon => ':'
  | .dash => '-'

/-- What a token is. -/
inductive Token.Kind where
  | literal (value : String)
  /-- A name that begins with two dashes. -/
  | customProperty (value : String)
  /-- A number with its written form and its unit. -/
  | number (value : Float) (raw unit : String)
  | color (color : Color)
  | quoted (value : String) (isSingle : Bool)
  | bracket (isOpen : Bool)
  | operator (operator : Operator)
  | whiteSpace
  /-- A numbered field or the name of a variable. -/
  | field (index : Option Nat) (name : String)
  deriving Repr

/-- A kind of token at a place of the abbreviation. -/
structure Token where
  kind : Token.Kind
  span : Span
  deriving Repr

namespace Token

/-- Whether a token is the given operator. -/
def isOperator (operator : Operator) (token : Token) : Bool :=
  match token.kind with
  | .operator found => found == operator
  | _ => false

/-- Whether a token is an opening, or a closing, bracket. -/
def isBracket (isOpen : Bool) (token : Token) : Bool :=
  match token.kind with
  | .bracket found => found == isOpen
  | _ => false

/-- Whether a token is white space. -/
def isWhiteSpace (token : Token) : Bool :=
  match token.kind with
  | .whiteSpace => true
  | _ => false

/-- Whether a token separates a name from values or values from each other. -/
def isDelimiter (token : Token) : Bool := token.isOperator .colon || token.isOperator .dash

end Token

end Shorthand.Stylesheet
