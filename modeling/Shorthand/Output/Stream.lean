import Shorthand.Config.Options
import Shorthand.Text.Lines

/-!
# The output stream

Text is only ever added at the end. The stream knows how many characters and line breaks it
holds, how many characters stand in the last line, and how far lines are indented.
-/

namespace Shorthand

/-- Written text with its counters. -/
structure Stream where
  value : String
  /-- The number of characters. -/
  offset : Nat
  /-- The number of line breaks. -/
  line : Nat
  /-- The number of characters behind the last line break. -/
  column : Nat
  /-- The indentation of new lines, which may be negative. -/
  level : Int
  deriving DecidableEq, Repr

namespace Stream

/-- Nothing is written. -/
def empty (level : Int) : Stream := ⟨"", 0, 0, 0, level⟩

/-- Add a text as it is. -/
def append (stream : Stream) (text : String) : Stream :=
  { stream with
    value := stream.value ++ text
    offset := stream.offset + text.length
    column := stream.column + text.length }

/-- Change the level of indentation. -/
def shift (stream : Stream) (change : Int) : Stream :=
  { stream with level := stream.level + change }

section

variable (options : OutputOptions)

/-- Write a text through the hook for texts. -/
def push (text : String) (stream : Stream) : Stream := stream.append (options.text text)

/-- Write indentation; a negative level has none. -/
def pushIndent (level : Int) (stream : Stream) : Stream :=
  stream.append (Text.repeated options.indent level.toNat)

/-- Begin a line without indentation. -/
def breakLine (stream : Stream) : Stream :=
  let broken := (stream.append options.newline).append options.baseIndent
  { broken with line := stream.line + 1, column := options.baseIndent.length }

/-- Begin a line with the indentation of the current level. -/
def pushLine (stream : Stream) : Stream :=
  pushIndent options stream.level (breakLine options stream)

/-- Write further lines of a text, each on a line of its own. -/
def pushLines : List String → Stream → Stream
  | [], stream => stream
  | line :: rest, stream => pushLines rest (push options line (pushLine options stream))

/-- Write a text of several lines with indentation. -/
def pushText (text : String) (stream : Stream) : Stream :=
  match Text.splitLines text with
  | [] => stream
  | first :: rest => pushLines options rest (push options first stream)

/-- Write a field through the hook for fields. -/
def pushField (index : Nat) (placeholder : String) (stream : Stream) : Stream :=
  stream.append (options.field index placeholder)

end

end Stream

end Shorthand
