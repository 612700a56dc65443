import Shorthand.Proofs.Text.Pairing
import Shorthand.Proofs.Text.Run
import Shorthand.Stylesheet.Declaration.Reader

/-!
# Plain declarations and how they are written

A plain declaration is a declaration by its meaning: a name of letters and value fragments of
keywords, numbers, colors, quoted strings, fields and calls. It is written in one way, with a
colon or a blank between the tokens of a fragment, commas between fragments and plus signs
between declarations. `printDeclarations` gives the abbreviation and
`PlainDeclaration.meant` the declaration it stands for.
-/

namespace Shorthand.Stylesheet

/-- What a number counts: nothing, percents, or a unit of letters. -/
inductive PlainUnit where
  | none
  | percent
  | letters (name : Run CharClass.letter)

/-- A number by its digits, with its places behind a point. -/
structure PlainNumber where
  isNegative : Bool
  whole : Run CharClass.digit
  places : Option (Run CharClass.digit)
  unit : PlainUnit

/-- A color by its digits, with its opacity behind a point. -/
structure PlainColor where
  digits : Run CharClass.hexDigit
  opacity : Option (Run CharClass.digit)

/-- The mark around a quoted string. -/
def quoteMark (isSingle : Bool) : Char := if isSingle then '\'' else '"'

/-- A quoted string without the mark that is around it. -/
structure PlainQuote where
  isSingle : Bool
  text : List Char
  free : quoteMark isSingle ∉ text

/-- A numbered field. Its number fits into a machine word, and the braces of its placeholder
are paired. -/
structure PlainField where
  index : Nat
  name : List Char
  bounded : index < Digits.wordLimit
  balanced : Pairing.Balanced name

/-- A value token that is no call. -/
inductive PlainAtom where
  | keyword (name : Run CharClass.letter)
  | number (number : PlainNumber)
  | color (color : PlainColor)
  | quoted (quote : PlainQuote)
  | field (field : PlainField)

mutual

/-- A value token. -/
inductive PlainToken where
  | atom (atom : PlainAtom)
  | call (name : Run CharClass.letter) (arguments : List PlainFragment)

/-- One or more value tokens that stand beside each other. -/
inductive PlainFragment where
  | mk (first : PlainToken) (others : List PlainToken)

end

/-- A property with its value. -/
structure PlainDeclaration where
  name : Run CharClass.letter
  fragments : List PlainFragment
  isImportant : Bool

/-! ### The written form -/

/-- The unit behind a number. -/
def PlainUnit.print : PlainUnit → List Char
  | .none => []
  | .percent => ['%']
  | .letters name => name.text

/-- Digits behind a point, if there are any. -/
def printPlaces : Option (Run CharClass.digit) → List Char
  | none => []
  | some digits => '.' :: digits.text

/-- A number without its unit. -/
def PlainNumber.raw (number : PlainNumber) : List Char :=
  (if number.isNegative then ['-'] else []) ++ (number.whole.text ++ printPlaces number.places)

/-- A color without its hash. -/
def PlainColor.raw (color : PlainColor) : List Char :=
  color.digits.text ++ printPlaces color.opacity

/-- The placeholder of a field behind a colon, unless it is empty. -/
def PlainField.printName (field : PlainField) : List Char :=
  if field.name = [] then [] else ':' :: field.name

/-- A value token that is no call. -/
def PlainAtom.print : PlainAtom → List Char
  | .keyword name => name.text
  | .number written => written.raw ++ written.unit.print
  | .color written => '#' :: written.raw
  | .quoted written =>
    quoteMark written.isSingle :: (written.text ++ [quoteMark written.isSingle])
  | .field written => '$' :: '{' :: (Nat.toDigits 10 written.index ++ written.printName ++ ['}'])

/-- What stands between the tokens of a fragment: a colon at the top and a blank in a call. -/
def separatorChar (isTop : Bool) : Char := if isTop then ':' else ' '

mutual

/-- A value token. -/
def PlainToken.print : PlainToken → List Char
  | .atom atom => atom.print
  | .call name arguments => name.text ++ '(' :: (printFragments false [] arguments ++ [')'])

/-- The tokens of a fragment. -/
def PlainFragment.print (isTop : Bool) : PlainFragment → List Char
  | .mk first others => first.print ++ printOthers isTop others

/-- Further tokens of a fragment, each behind a separator. -/
def printOthers (isTop : Bool) : List PlainToken → List Char
  | [] => []
  | token :: rest => separatorChar isTop :: (token.print ++ printOthers isTop rest)

/-- Fragments joined by commas, with `lead` in front of the first one. -/
def printFragments (isTop : Bool) (lead : List Char) : List PlainFragment → List Char
  | [] => []
  | first :: rest => lead ++ (first.print isTop ++ printFragments isTop [','] rest)

end

/-- The mark of an important declaration. -/
def printImportant (isImportant : Bool) : List Char := if isImportant then ['!'] else []

/-- A declaration: its name, its fragments behind a colon, and the mark of an important one. -/
def PlainDeclaration.print (declaration : PlainDeclaration) : List Char :=
  declaration.name.text ++
    (printFragments true [':'] declaration.fragments ++ printImportant declaration.isImportant)

/-- Declarations joined by plus signs, with `lead` in front of the first one. -/
def printJoined (lead : List Char) : List PlainDeclaration → List Char
  | [] => []
  | first :: rest => lead ++ (first.print ++ printJoined ['+'] rest)

/-- The abbreviation that declarations are written as. -/
def printDeclarations (written : List PlainDeclaration) : String :=
  String.ofList (printJoined [] written)

/-! ### The meaning -/

/-- The places of a number, if there are any. -/
def PlainNumber.placeDigits (number : PlainNumber) : List Char :=
  match number.places with
  | none => []
  | some digits => digits.text

/-- The number that the digits write. -/
def PlainNumber.decimal (number : PlainNumber) : Decimal :=
  ⟨number.isNegative, Digits.natOf (number.whole.text ++ number.placeDigits),
    -(number.placeDigits.length : Int)⟩

/-- The color that the digits write, with the opacity behind the point. -/
def PlainColor.meant (color : PlainColor) : Color :=
  Color.ofText (String.ofList color.digits.text) (String.ofList (printPlaces color.opacity))
    (String.ofList color.raw)

/-- The value token that an atom stands for. -/
def PlainAtom.meant : PlainAtom → ValueToken
  | .keyword name => .literal (String.ofList name.text)
  | .number written =>
    .number written.decimal.toFloat (String.ofList written.raw)
      (String.ofList written.unit.print)
  | .color written => .color written.meant
  | .quoted written => .quoted (String.ofList written.text) written.isSingle
  | .field written => .field (some written.index) (String.ofList written.name) false

mutual

/-- The value token that is meant. -/
def PlainToken.meant : PlainToken → ValueToken
  | .atom atom => atom.meant
  | .call name arguments => .call (String.ofList name.text) (meantFragments arguments)

/-- The fragment that is meant. -/
def PlainFragment.meant : PlainFragment → Fragment
  | .mk first others => first.meant :: meantTokens others

/-- The value tokens that are meant. -/
def meantTokens : List PlainToken → Fragment
  | [] => []
  | token :: rest => token.meant :: meantTokens rest

/-- The fragments that are meant. -/
def meantFragments : List PlainFragment → List Fragment
  | [] => []
  | first :: rest => first.meant :: meantFragments rest

end

/-- The declaration that is meant. -/
def PlainDeclaration.meant (declaration : PlainDeclaration) : Declaration :=
  ⟨some (String.ofList declaration.name.text), meantFragments declaration.fragments,
    declaration.isImportant⟩

end Shorthand.Stylesheet
