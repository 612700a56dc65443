import Shorthand.Stylesheet.Color

/-!
# Declarations

A declaration is a property name with value fragments. The tokens of a fragment stand beside
each other; fragments, like the arguments of a call, are separated by commas.
-/

namespace Shorthand.Stylesheet

/-- A token of a value. -/
inductive ValueToken where
  | literal (value : String)
  /-- A name that begins with two dashes. -/
  | customProperty (value : String)
  /-- A number with its written form and its unit. -/
  | number (value : Float) (raw unit : String)
  | color (color : Color)
  | quoted (value : String) (isSingle : Bool)
  /-- A field, glued when nothing separates it from the token before it. -/
  | field (index : Option Nat) (name : String) (isGlued : Bool)
  /-- A function call. -/
  | call (name : String) (arguments : List (List ValueToken))
  deriving Repr

/-- Value tokens that stand beside each other. -/
abbrev Fragment := List ValueToken

/-- A property with its value. -/
structure Declaration where
  name : Option String
  fragments : List Fragment
  isImportant : Bool
  deriving Repr

/-- A declaration that says something. -/
def Declaration.isFilled (declaration : Declaration) : Bool :=
  declaration.name.isSome || !declaration.fragments.isEmpty || declaration.isImportant

/-- A declaration behind the look-up of snippets. -/
structure Resolved where
  declaration : Declaration
  /-- Its tokens come from a raw snippet and are written without separators. -/
  isRaw : Bool
  /-- A snippet was found for it. -/
  isMatched : Bool
  deriving Repr

end Shorthand.Stylesheet
