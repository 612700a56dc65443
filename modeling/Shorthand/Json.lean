import Shorthand.Text.Decimal

/-!
# JSON values

The data format of option files: values and a reader. A number keeps its decimal text value
and whether it was written as an integer.
-/

namespace Shorthand

/-- A JSON value. The members of an object stay in their written order. -/
inductive Json where
  | null
  | bool (value : Bool)
  | number (value : Decimal) (isInteger : Bool)
  | string (value : String)
  | array (items : List Json)
  | object (members : List (String × Json))

namespace Json

/-- The member of an object with a name. Of several, the last one counts. -/
def member? (name : String) : Json → Option Json
  | object members => members.reverse.lookup name
  | _ => none

/-- Drop the white space of the format. -/
def skipBlanks (input : List Char) : List Char :=
  input.dropWhile fun c => c == ' ' || c == '\n' || c == '\r' || c == '\t'

/-- Four hexadecimal digits at the front of the input. -/
def unit? : List Char → Option (Nat × List Char)
  | a :: b :: c :: d :: rest => do
    let a ← Digits.hexValue? a
    let b ← Digits.hexValue? b
    let c ← Digits.hexValue? c
    let d ← Digits.hexValue? d
    return (((a * 16 + b) * 16 + c) * 16 + d, rest)
  | _ => none

/-- The character that a backslash and a letter stand for. -/
def shortEscape? : Char → Option Char
  | '"' => some '"'
  | '\\' => some '\\'
  | '/' => some '/'
  | 'b' => some '\x08'
  | 'f' => some '\x0c'
  | 'n' => some '\n'
  | 'r' => some '\r'
  | 't' => some '\t'
  | _ => none

/-- A character given by its UTF-16 units, of which a high surrogate needs a low one. -/
def escapedChar? (input : List Char) : Option (Char × List Char) := do
  let (high, rest) ← unit? input
  if 0xD800 ≤ high ∧ high < 0xDC00 then
    match rest with
    | '\\' :: 'u' :: rest =>
      let (low, rest) ← unit? rest
      if 0xDC00 ≤ low ∧ low < 0xE000 then
        return (Char.ofNat (0x10000 + (high - 0xD800) * 0x400 + (low - 0xDC00)), rest)
      else
        none
    | _ => none
  else if 0xDC00 ≤ high ∧ high < 0xE000 then
    none
  else
    return (Char.ofNat high, rest)

/-- The characters of a string up to its closing quote, and what follows. -/
def stringBody? : Nat → List Char → Option (List Char × List Char)
  | 0, _ => none
  | _ + 1, [] => none
  | _ + 1, '"' :: rest => some ([], rest)
  | fuel + 1, '\\' :: 'u' :: rest => do
    let (c, rest) ← escapedChar? rest
    let (text, rest) ← stringBody? fuel rest
    return (c :: text, rest)
  | fuel + 1, '\\' :: mark :: rest => do
    let c ← shortEscape? mark
    let (text, rest) ← stringBody? fuel rest
    return (c :: text, rest)
  | fuel + 1, c :: rest =>
    if c.toNat < 32 || c == '\\' then
      none
    else do
      let (text, rest) ← stringBody? fuel rest
      return (c :: text, rest)

/-- A character that a number can hold. -/
def isNumberChar (c : Char) : Bool :=
  CharClass.digit c || c == '-' || c == '+' || c == '.' || c == 'e' || c == 'E'

/-- Whether a number without its sign has a digit in front, no superfluous zero before
others, and a digit behind the point. -/
def isPlainNumber : List Char → Bool
  | [] => false
  | first :: rest =>
    let point := rest.dropWhile CharClass.digit
    CharClass.digit first && (first != '0' || !rest.head?.any CharClass.digit) &&
      (point.head? != some '.' || (point.drop 1).head?.any CharClass.digit)

/-- A number at the front of the input. -/
def number? (input : List Char) : Option (Json × List Char) := do
  let text := input.takeWhile isNumberChar
  let rest := input.dropWhile isNumberChar
  let isNegative := text.head? == some '-'
  let digits := if isNegative then text.drop 1 else text
  if isPlainNumber digits then
    let value ← Decimal.unsigned? isNegative digits
    return (.number value (digits.all CharClass.digit), rest)
  else
    none

mutual

/-- A value at the front of the input, with what follows. -/
def value? : Nat → List Char → Option (Json × List Char)
  | 0, _ => none
  | fuel + 1, input =>
    match skipBlanks input with
    | 'n' :: 'u' :: 'l' :: 'l' :: rest => some (.null, rest)
    | 't' :: 'r' :: 'u' :: 'e' :: rest => some (.bool true, rest)
    | 'f' :: 'a' :: 'l' :: 's' :: 'e' :: rest => some (.bool false, rest)
    | '"' :: rest => do
      let (text, rest) ← stringBody? (rest.length + 1) rest
      return (.string (String.ofList text), rest)
    | '[' :: rest =>
      match skipBlanks rest with
      | ']' :: rest => some (.array [], rest)
      | rest => do
        let (items, rest) ← items? fuel rest
        return (.array items, rest)
    | '{' :: rest =>
      match skipBlanks rest with
      | '}' :: rest => some (.object [], rest)
      | rest => do
        let (members, rest) ← members? fuel rest
        return (.object members, rest)
    | rest => number? rest

/-- The remaining items of an array and its closing bracket. -/
def items? : Nat → List Char → Option (List Json × List Char)
  | 0, _ => none
  | fuel + 1, input => do
    let (item, rest) ← value? fuel input
    match skipBlanks rest with
    | ',' :: rest =>
      let (items, rest) ← items? fuel rest
      return (item :: items, rest)
    | ']' :: rest => return ([item], rest)
    | _ => none

/-- The remaining members of an object and its closing brace. -/
def members? : Nat → List Char → Option (List (String × Json) × List Char)
  | 0, _ => none
  | fuel + 1, input => do
    match skipBlanks input with
    | '"' :: rest =>
      let (name, rest) ← stringBody? (rest.length + 1) rest
      match skipBlanks rest with
      | ':' :: rest =>
        let (value, rest) ← value? fuel rest
        let member := (String.ofList name, value)
        match skipBlanks rest with
        | ',' :: rest =>
          let (members, rest) ← members? fuel rest
          return (member :: members, rest)
        | '}' :: rest => return ([member], rest)
        | _ => none
      | _ => none
    | _ => none

end

/-- Read a text that holds one JSON value. Every step of the reader takes a character, so
twice the number of characters bounds its depth. -/
def parse? (text : String) : Option Json := do
  let (value, rest) ← value? (2 * text.length + 2) text.toList
  if (skipBlanks rest).isEmpty then some value else none

end Json

end Shorthand
