import Shorthand.Output.Stream
import Shorthand.Text.Digits

/-!
# Writing numbered fields

Fields are numbered anew while they are written, so that those of different values do not
collide. The fields written together form a group: within a group equal numbers stay equal,
and every group starts above the numbers of the one before it.
-/

namespace Shorthand

/-- A field of a group: its own number and the number it was written with. -/
structure WrittenField where
  own : Nat
  written : Nat
  deriving DecidableEq, Repr

/-- An output stream with the numbering of fields. -/
structure Writer where
  stream : Stream
  /-- What is added to the numbers of the current group. -/
  base : Nat
  /-- The fields of the current group. -/
  current : List WrittenField
  /-- The complete groups, the latest first. -/
  groups : List (List WrittenField)
  deriving DecidableEq, Repr

namespace Writer

/-- Nothing is written; fields are numbered from `base`. -/
def empty (base : Nat) : Writer := ⟨.empty 0, base, [], []⟩

/-- Change the stream alone. -/
def onStream (change : Stream → Stream) (writer : Writer) : Writer :=
  { writer with stream := change writer.stream }

/-- Change the level of indentation. -/
def shift (change : Int) (writer : Writer) : Writer :=
  writer.onStream fun stream => stream.shift change

/-- Write a field as a part of the current group. Numbers are machine words. -/
def pushField (options : OutputOptions) (index : Nat) (placeholder : String)
    (writer : Writer) : Writer :=
  let number := (writer.base + index) % Digits.wordLimit
  { writer with
    stream := Stream.pushField options number placeholder writer.stream
    current := writer.current ++ [⟨index, number⟩] }

/-- Complete the current group: the next one starts above its largest number. -/
def closeGroup (writer : Writer) : Writer :=
  match (writer.current.map WrittenField.own).max? with
  | none => writer
  | some largest =>
    { writer with
      base := (writer.base + (largest + 1)) % Digits.wordLimit
      current := []
      groups := writer.current :: writer.groups }

end Writer

end Shorthand
