import Shorthand.Text.Numeral

/-!
# Colors

A color is written as a hash, up to six hexadecimal digits and an opacity behind a point.
Fewer digits are repeated: one digit gives a grey, two give a grey of that byte, three give
one doubled digit each.
-/

namespace Shorthand.Stylesheet

/-- A color with its opacity and the text it was written as. -/
structure Color where
  red : Nat
  green : Nat
  blue : Nat
  alpha : Numeral
  /-- The text behind the hash. -/
  raw : String
  deriving DecidableEq, Repr

namespace Color

/-- The value of two characters in base sixteen; a plus sign may come first, and anything
else counts as zero. -/
def channel : List Char → Nat
  | ['+', low] => (Digits.hexValue? low).getD 0
  | [high, low] =>
    match Digits.hexValue? high, Digits.hexValue? low with
    | some high, some low => high * 16 + low
    | _, _ => 0
  | _ => 0

/-- The characters of the three channels. -/
def channels : List Char → List Char × List Char × List Char
  | [] => (['0', '0'], ['0', '0'], ['0', '0'])
  | [grey] => ([grey, grey], [grey, grey], [grey, grey])
  | [high, low] => ([high, low], [high, low], [high, low])
  | [red, green, blue] => ([red, red], [green, green], [blue, blue])
  | digits =>
    let doubled := digits ++ digits
    (doubled.take 2, (doubled.drop 2).take 2, (doubled.drop 4).take 2)

/-- The color of some digits and an opacity. The letter `t` stands for full transparency,
and an opacity that is missing or unreadable is full. -/
def ofText (digits alpha raw : String) : Color :=
  let opacity := if alpha.isEmpty then .one else (Numeral.ofText? alpha).getD .one
  if digits = "t" then
    ⟨0, 0, 0, .zero, raw⟩
  else
    let (red, green, blue) := channels digits.toList
    ⟨channel red, channel green, channel blue, opacity, raw⟩

end Color

end Shorthand.Stylesheet
