import Shorthand.Text.Decimal

/-!
# Numerals

The text of a double is a decimal, or a word for infinity or for no number, behind an
optional sign. The sign belongs to the words as well: it is part of the bits of a double,
also where the double is no number.
-/

namespace Shorthand

/-- What the text of a double stands for. -/
inductive Numeral where
  | decimal (value : Decimal)
  | infinite (isNegative : Bool)
  | notANumber (isNegative : Bool)
  deriving DecidableEq, Repr

namespace Numeral

/-- Nothing at all. -/
def zero : Numeral := .decimal ⟨false, 0, 0⟩

/-- A whole. -/
def one : Numeral := .decimal ⟨false, 1, 0⟩

/-- Read a decimal, or one of the words `inf`, `infinity` and `nan` in any case, behind an
optional sign. -/
def ofText? (text : String) : Option Numeral :=
  let (isNegative, rest) := Decimal.splitSign text.toList
  let word := String.ofList (rest.map Char.toLower)
  if word = "inf" || word = "infinity" then some (.infinite isNegative)
  else if word = "nan" then some (.notANumber isNegative)
  else (Decimal.ofText? text).map .decimal

/-- The double nearest to a numeral. -/
def toFloat : Numeral → Float
  | .decimal value => value.toFloat
  | .infinite isNegative => if isNegative then -Decimal.infinity else Decimal.infinity
  | .notANumber _ => 0.0 / 0.0

/-- The bits of the double: those of no number are the quiet ones without a payload, and keep
the sign that was written. -/
def toBits : Numeral → UInt64
  | .notANumber isNegative => if isNegative then 0xfff8000000000000 else 0x7ff8000000000000
  | numeral => numeral.toFloat.toBits

end Numeral

end Shorthand
