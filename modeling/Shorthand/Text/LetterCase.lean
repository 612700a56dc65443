import Shorthand.Text.CharClass

/-!
# Letter case

Full case mappings of the Unicode standard: one character may become several, and a capital
sigma that ends a word becomes the final small sigma.
-/

namespace Shorthand.LetterCase

/-- Apply the first shift that covers a character, if any does. -/
def shifted (table : List CharTable.Shift) (c : Char) : Char :=
  match table.findSome? fun entry => entry.apply? c.toNat with
  | some value => Char.ofNat value
  | none => c

/-- The lower-case image of a character without regard to its surroundings. -/
def lowerChar (c : Char) : List Char :=
  if c.toNat < 128 then
    [c.toLower]
  else if c == '\u0130' then
    ['i', '\u0307']
  else
    [shifted CharTable.lowerShifts c]

/-- The upper-case image of a character. -/
def upperChar (c : Char) : List Char :=
  if c.toNat < 128 then
    [c.toUpper]
  else
    match CharTable.upperSequences.lookup c.toNat with
    | some image => image.map Char.ofNat
    | none => [shifted CharTable.upperShifts c]

/-- Whether the first character that is not transparent for case has a case. -/
def facesCased (cs : List Char) : Bool :=
  match cs.dropWhile fun c => CharTable.covers CharTable.caseTransparent c.toNat with
  | [] => false
  | c :: _ => CharTable.covers CharTable.cased c.toNat

/-- Lower-case the rest of a text; `before` holds what precedes it, nearest first. -/
def lowerFrom (before : List Char) : List Char → List Char
  | [] => []
  | c :: rest =>
    let image :=
      if c == 'Σ' then
        if facesCased before && !facesCased rest then ['ς'] else ['σ']
      else
        lowerChar c
    image ++ lowerFrom (c :: before) rest

/-- The lower-case form of a text. -/
def lower (text : String) : String := String.ofList (lowerFrom [] text.toList)

/-- The upper-case form of a text. -/
def upper (text : String) : String := String.ofList (text.toList.flatMap upperChar)

/-- The ASCII lower-case form of a text; other characters stay. -/
def lowerAscii (text : String) : String := text.map Char.toLower

/-- Whether two texts are equal when the case of ASCII letters is ignored. -/
def sameIgnoringAsciiCase (left right : String) : Bool := lowerAscii left == lowerAscii right

end Shorthand.LetterCase
