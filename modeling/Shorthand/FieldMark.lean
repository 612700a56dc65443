import Shorthand.Text.Digits

/-!
# Field marks

A field is written as a dollar sign and a pair of braces that hold a number, a number with a
placeholder after a colon, or the name of a variable. A placeholder may hold braces as long
as they are paired. Both kinds of abbreviation use these marks.
-/

namespace Shorthand

/-- What a field mark says: its number, when one is written and fits into a machine word,
and its placeholder or variable name. -/
structure FieldMark where
  index : Option Nat
  name : String
  deriving DecidableEq, Repr

namespace FieldMark

/-- Scan a placeholder from `offset`. The answer is the offset of the brace that closes the
field, or of the end of input; `pending` lists the offsets after the braces still open,
innermost first, and an open brace at the end of input is reported there. -/
def placeholderFrom (offset : Nat) (pending : List Nat) : List Char → Except Nat Nat
  | [] =>
    match pending with
    | [] => .ok offset
    | innermost :: _ => .error innermost
  | c :: rest =>
    if c = '{' then
      placeholderFrom (offset + 1) ((offset + 1) :: pending) rest
    else if c = '}' then
      match pending with
      | [] => .ok offset
      | _ :: outer => placeholderFrom (offset + 1) outer rest
    else
      placeholderFrom (offset + 1) pending rest

/-- The width of the placeholder at the front of the input, or the offset of a fault. -/
def placeholder (input : List Char) : Except Nat Nat := placeholderFrom 0 [] input

/-- A mark that ends with a brace after `width` characters, or the offset of a fault. -/
def closed (mark : FieldMark) (width : Nat) : List Char → Except Nat (FieldMark × Nat)
  | '}' :: _ => .ok (mark, width + 1)
  | _ => .error width

/-- A mark whose name is the placeholder that follows after `width` characters. -/
def named (index : Option Nat) (width : Nat) (input : List Char) :
    Except Nat (FieldMark × Nat) :=
  match placeholder input with
  | .error offset => .error (width + offset)
  | .ok size =>
    closed ⟨index, String.ofList (input.take size)⟩ (width + size) (input.drop size)

/-- Scan what follows a dollar sign and an opening brace, which are two characters wide. -/
def body (input : List Char) : Except Nat (FieldMark × Nat) :=
  let digits := input.takeWhile CharClass.digit
  if digits.isEmpty then
    match input with
    | c :: _ => if CharClass.letter c then named none 2 input else closed ⟨none, ""⟩ 2 input
    | [] => closed ⟨none, ""⟩ 2 input
  else
    let index := Digits.word? digits
    let width := 2 + digits.length
    match input.drop digits.length with
    | ':' :: rest => named index (width + 1) rest
    | rest => closed ⟨index, ""⟩ width rest

/-- Scan a field mark at the front of the input. The answer is the mark with its width, or
nothing when no mark begins here, or the offset of a fault. -/
def scan : List Char → Except Nat (Option (FieldMark × Nat))
  | '$' :: '{' :: rest => (body rest).map some
  | _ => .ok none

end FieldMark

end Shorthand
