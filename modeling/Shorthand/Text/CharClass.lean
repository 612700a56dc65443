import Shorthand.Text.CharTable

/-!
# Character classes

The classes that the tokenizers ask about are decided here: the ASCII classes of the
abbreviation language, the accented Latin letters it admits in names, and the classes of the
Unicode standard that text rules need.
-/

namespace Shorthand.CharClass

/-- The decimal digits `0` to `9`. -/
def digit (c : Char) : Bool := '0' ≤ c && c ≤ '9'

/-- The ASCII letters. -/
def letter (c : Char) : Bool := ('a' ≤ c && c ≤ 'z') || ('A' ≤ c && c ≤ 'Z')

/-- A digit lies in the range of digits. -/
theorem digit_iff (c : Char) : digit c ↔ '0'.toNat ≤ c.toNat ∧ c.toNat ≤ '9'.toNat := by
  simp only [digit, Bool.and_eq_true, decide_eq_true_eq, Char.le_def, UInt32.le_iff_toNat_le,
    Char.toNat]

/-- A letter lies in one of the two ranges of letters. -/
theorem letter_iff (c : Char) :
    letter c ↔ ('a'.toNat ≤ c.toNat ∧ c.toNat ≤ 'z'.toNat) ∨
      ('A'.toNat ≤ c.toNat ∧ c.toNat ≤ 'Z'.toNat) := by
  simp only [letter, Bool.or_eq_true, Bool.and_eq_true, decide_eq_true_eq, Char.le_def,
    UInt32.le_iff_toNat_le, Char.toNat]

/-- No letter is a digit. -/
theorem digit_of_letter {c : Char} (isLetter : letter c) : digit c = false := by
  rw [Bool.eq_false_iff]
  intro isDigit
  rw [letter_iff] at isLetter
  rw [digit_iff] at isDigit
  have values : '0'.toNat = 48 ∧ '9'.toNat = 57 ∧ 'A'.toNat = 65 ∧ 'a'.toNat = 97 := by decide
  omega

/-- An ASCII letter or an underscore. -/
def wordLetter (c : Char) : Bool := c == '_' || letter c

/-- An ASCII letter, an underscore or a digit. -/
def wordOrDigit (c : Char) : Bool := digit c || wordLetter c

/-- The Latin letters from `À` to `ɏ`, without the signs for times and division. -/
def accented (c : Char) : Bool :=
  0xC0 ≤ c.toNat && c.toNat ≤ 0x24F && c != '×' && c != '÷'

/-- A blank, a tab or a no-break space. -/
def space (c : Char) : Bool := c == ' ' || c == '\t' || c == '\u00a0'

/-- A double or single quote. -/
def quote (c : Char) : Bool := c == '"' || c == '\''

/-- A hexadecimal digit in either case. -/
def hexDigit (c : Char) : Bool :=
  digit c || ('a' ≤ c && c ≤ 'f') || ('A' ≤ c && c ≤ 'F')

/-- The white space of the Unicode standard. -/
def blank (c : Char) : Bool :=
  let value := c.toNat
  (9 ≤ value && value ≤ 13) || value == 32 || value == 0x85 || value == 0xA0 ||
    value == 0x1680 || (0x2000 ≤ value && value ≤ 0x200A) || value == 0x2028 ||
    value == 0x2029 || value == 0x202F || value == 0x205F || value == 0x3000

/-- A character of a word in any script. -/
def word (c : Char) : Bool :=
  wordOrDigit c || (128 ≤ c.toNat && CharTable.covers CharTable.wordChars c.toNat)

/-- A decimal digit of any script. -/
def anyDigit (c : Char) : Bool :=
  digit c || (128 ≤ c.toNat && CharTable.covers CharTable.decimalDigits c.toNat)

/-- An upper-case character of any script. -/
def capital (c : Char) : Bool :=
  ('A' ≤ c && c ≤ 'Z') || (128 ≤ c.toNat && CharTable.covers CharTable.upperCase c.toNat)

/-- The letters that match `a` to `z` when case is ignored: the ASCII letters, the long s
and the Kelvin sign, which fold to `s` and `k`. -/
def foldedLetter (c : Char) : Bool := letter c || c == '\u017f' || c == '\u212a'

end Shorthand.CharClass
