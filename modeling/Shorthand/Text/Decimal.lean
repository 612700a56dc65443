import Shorthand.Text.Digits

/-!
# Decimal text and binary fractions

A decimal is read as the nearest double, ties going to the even neighbour. A double is
written with a fixed number of places from its exact value, again with ties to even.
-/

namespace Shorthand

/-- The number `digits * 10 ^ exponent`, possibly negated. -/
structure Decimal where
  isNegative : Bool
  digits : Nat
  exponent : Int
  deriving DecidableEq, Repr

namespace Decimal

/-- The infinite double. -/
def infinity : Float := 1.0 / 0.0

/-- The double nearest to a decimal without sign. Powers of ten beyond the range of doubles
are not computed. -/
def magnitude (digits : Nat) (exponent : Int) : Float :=
  let order : Int := (Nat.toDigits 10 digits).length + exponent
  if digits = 0 || order < -400 then 0.0
  else if 400 < order then infinity
  else Float.ofScientific digits (exponent < 0) exponent.natAbs

/-- The double nearest to a decimal. -/
def toFloat (decimal : Decimal) : Float :=
  let value := magnitude decimal.digits decimal.exponent
  if decimal.isNegative then -value else value

/-- Read an optional sign. -/
def splitSign : List Char → Bool × List Char
  | '-' :: rest => (true, rest)
  | '+' :: rest => (false, rest)
  | text => (false, text)

/-- Read an optional exponent that ends the text. -/
def exponent? : List Char → Option Int
  | [] => some 0
  | mark :: rest =>
    if mark = 'e' || mark = 'E' then
      let (isNegative, digits) := splitSign rest
      if digits.isEmpty || !digits.all CharClass.digit then
        none
      else
        let value : Int := Digits.natOf digits
        some (if isNegative then -value else value)
    else
      none

/-- Read digits with an optional point among, before or behind them, and an optional
exponent. -/
def unsigned? (isNegative : Bool) (text : List Char) : Option Decimal :=
  let whole := text.takeWhile CharClass.digit
  let rest := text.dropWhile CharClass.digit
  let (places, rest) :=
    match rest with
    | '.' :: rest => (rest.takeWhile CharClass.digit, rest.dropWhile CharClass.digit)
    | _ => ([], rest)
  if whole.isEmpty && places.isEmpty then
    none
  else
    (exponent? rest).map fun exponent =>
      ⟨isNegative, Digits.natOf (whole ++ places), exponent - places.length⟩

/-- Read a decimal behind an optional sign. -/
def ofText? (text : String) : Option Decimal :=
  let (isNegative, rest) := splitSign text.toList
  unsigned? isNegative rest

/-- Divide and round to the nearest integer, a half going to the even neighbour. -/
def divideToEven (dividend divisor : Nat) : Nat :=
  let quotient := dividend / divisor
  let twice := 2 * (dividend % divisor)
  if twice < divisor then quotient
  else if divisor < twice then quotient + 1
  else if quotient % 2 = 0 then quotient
  else quotient + 1

/-- A count of units of `10 ^ -places`, written with a point before the last `places`
digits. -/
def pointed (places : Nat) (units : Nat) : String :=
  let digits := Nat.toDigits 10 units
  let padded := List.replicate (places + 1 - digits.length) '0' ++ digits
  let whole := padded.take (padded.length - places)
  String.ofList (whole ++ '.' :: padded.drop (padded.length - places))

/-- Write a double with a fixed number of places. -/
def fixed (places : Nat) (value : Float) : String :=
  let bits := value.toBits.toNat
  let exponent := (bits >>> 52) % 2048
  let fraction := bits % (1 <<< 52)
  if exponent = 2047 && fraction ≠ 0 then
    "NaN"
  else
    let sign := if bits >>> 63 = 1 then "-" else ""
    if exponent = 2047 then
      sign ++ "inf"
    else
      let mantissa := if exponent = 0 then fraction else fraction + (1 <<< 52)
      let power : Int := if exponent = 0 then -1074 else (exponent : Int) - 1075
      let scaled := mantissa * Nat.pow 10 places
      let units :=
        if power < 0 then divideToEven scaled (1 <<< power.natAbs) else scaled <<< power.natAbs
      sign ++ pointed places units

end Decimal

end Shorthand
