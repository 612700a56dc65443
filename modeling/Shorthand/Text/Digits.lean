import Shorthand.Text.CharClass

/-!
# Numbers written in decimal digits

Counts and offsets are machine words: a number that does not fit into 64 bits is not read.
-/

namespace Shorthand.Digits

/-- The first value beyond a machine word. -/
def wordLimit : Nat := 18446744073709551616

/-- The largest machine word. -/
def wordMax : Nat := wordLimit - 1

/-- Addition that stays at the largest machine word. -/
def addSaturating (left right : Nat) : Nat := min (left + right) wordMax

/-- Multiplication that stays at the largest machine word. -/
def mulSaturating (left right : Nat) : Nat := min (left * right) wordMax

/-- The value of a digit in base ten. -/
def digitValue (c : Char) : Nat := c.toNat - '0'.toNat

/-- The number that a list of decimal digits writes. -/
def natOf (digits : List Char) : Nat :=
  digits.foldl (fun value c => value * 10 + digitValue c) 0

/-- Read a non-empty list of decimal digits as a machine word. -/
def word? (digits : List Char) : Option Nat :=
  if digits.isEmpty || !digits.all CharClass.digit then
    none
  else
    let value := natOf digits
    if value < wordLimit then some value else none

/-- The decimal digits of the library are those of this project. -/
theorem digit_of_isDigit {c : Char} (isDigit : c.isDigit) : CharClass.digit c := by
  simp only [Char.isDigit, ge_iff_le, Bool.and_eq_true, decide_eq_true_eq] at isDigit
  simp only [CharClass.digit, Bool.and_eq_true, decide_eq_true_eq]
  exact isDigit

/-- The digits of a number are decimal digits. -/
theorem digit_of_mem_toDigits {number : Nat} {c : Char} (member : c ∈ Nat.toDigits 10 number) :
    CharClass.digit c :=
  digit_of_isDigit (Nat.isDigit_of_mem_toDigits (by decide) (by decide) member)

/-- A number is read back from its digits. -/
theorem natOf_toDigits (number : Nat) : natOf (Nat.toDigits 10 number) = number := by
  have read := Nat.ofDigitChars_ten_toDigits (n := number)
  rw [Nat.ofDigitChars_eq_foldl] at read
  simpa only [natOf, digitValue, Nat.mul_comm] using read

/-- A word is read back from its digits. -/
theorem word?_toDigits {number : Nat} (bounded : number < wordLimit) :
    word? (Nat.toDigits 10 number) = some number := by
  have nonempty : (Nat.toDigits 10 number).isEmpty = false := by
    simp [Nat.toDigits_ne_nil]
  have digits : (Nat.toDigits 10 number).all CharClass.digit = true := by
    rw [List.all_eq_true]
    exact fun c member => digit_of_mem_toDigits member
  simp [word?, nonempty, digits, natOf_toDigits, bounded]

/-- The value of a hexadecimal digit. -/
def hexValue? (c : Char) : Option Nat :=
  if CharClass.digit c then some (c.toNat - '0'.toNat)
  else if 'a' ≤ c && c ≤ 'f' then some (c.toNat - 'a'.toNat + 10)
  else if 'A' ≤ c && c ≤ 'F' then some (c.toNat - 'A'.toNat + 10)
  else none

/-- One hexadecimal digit in lower case. -/
def hexDigit (value : Nat) : Char := Nat.digitChar (value % 16)

/-- A byte as two hexadecimal digits. -/
def hexByte (value : Nat) : String := String.ofList [hexDigit (value / 16), hexDigit value]

end Shorthand.Digits
