import Shorthand.Output.Stream

/-!
# What the stream holds

Every step adds a text behind what has been written. A new line begins with `lineStart`, which
depends on the options and on the level alone.
-/

namespace Shorthand.Stream

/-- What a line begins with at a level of indentation, the line break included. -/
def lineStart (options : OutputOptions) (level : Int) : List Char :=
  options.newline.toList ++ options.baseIndent.toList ++
    (Text.repeated options.indent level.toNat).toList

/-- Further lines of a text, each with what it begins with. -/
def linesText (options : OutputOptions) (level : Int) (lines : List String) : List Char :=
  lines.flatMap fun line => lineStart options level ++ (options.text line).toList

variable (options : OutputOptions)

/-- A text is put behind what has been written. -/
@[simp] theorem toList_append (stream : Stream) (text : String) :
    (stream.append text).value.toList = stream.value.toList ++ text.toList :=
  String.toList_append

/-- A text is written through its hook. -/
@[simp] theorem toList_push (text : String) (stream : Stream) :
    (push options text stream).value.toList = stream.value.toList ++ (options.text text).toList :=
  toList_append stream _

/-- A text leaves the depth as it is. -/
@[simp] theorem level_push (text : String) (stream : Stream) :
    (push options text stream).level = stream.level := rfl

/-- A line break is written with the base indentation behind it. -/
@[simp] theorem toList_breakLine (stream : Stream) :
    (breakLine options stream).value.toList =
      stream.value.toList ++ (options.newline.toList ++ options.baseIndent.toList) := by
  rw [← List.append_assoc, ← toList_append, ← toList_append]
  rfl

/-- Indentation is written as often as the depth says. -/
@[simp] theorem toList_pushIndent (level : Int) (stream : Stream) :
    (pushIndent options level stream).value.toList =
      stream.value.toList ++ (Text.repeated options.indent level.toNat).toList :=
  toList_append stream _

/-- A new line begins with all of its indentation. -/
@[simp] theorem toList_pushLine (stream : Stream) :
    (pushLine options stream).value.toList =
      stream.value.toList ++ lineStart options stream.level := by
  rw [pushLine, toList_pushIndent, toList_breakLine, List.append_assoc]
  rfl

/-- A new line leaves the depth as it is. -/
@[simp] theorem level_pushLine (stream : Stream) :
    (pushLine options stream).level = stream.level := rfl

/-- A field is written through its hook. -/
@[simp] theorem toList_pushField (index : Nat) (placeholder : String) (stream : Stream) :
    (pushField options index placeholder stream).value.toList =
      stream.value.toList ++ (options.field index placeholder).toList :=
  toList_append stream _

/-- Further lines are added with what they begin with. -/
theorem toList_pushLines (lines : List String) (stream : Stream) :
    (pushLines options lines stream).value.toList =
      stream.value.toList ++ linesText options stream.level lines := by
  induction lines generalizing stream with
  | nil => simp [pushLines, linesText]
  | cons line rest ih => simp [pushLines, ih, linesText]

/-- The first line of a text is added at the current place and the others on lines of their
own. -/
theorem toList_pushText (text : String) (stream : Stream) :
    ∃ first rest, Text.splitLines text = first :: rest ∧
      (pushText options text stream).value.toList =
        stream.value.toList ++
          ((options.text first).toList ++ linesText options stream.level rest) := by
  cases lines : Text.splitLines text with
  | nil => exact absurd (List.map_eq_nil_iff.mp lines) (Text.linesOf_ne_nil text.toList)
  | cons first rest =>
    refine ⟨first, rest, rfl, ?_⟩
    simp [pushText, lines, toList_pushLines]

/-- Further lines leave the depth as it is. -/
@[simp] theorem level_pushLines (lines : List String) (stream : Stream) :
    (pushLines options lines stream).level = stream.level := by
  induction lines generalizing stream with
  | nil => rfl
  | cons line rest ih => rw [pushLines, ih, level_push, level_pushLine]

/-- A text of several lines leaves the depth as it is. -/
@[simp] theorem level_pushText (text : String) (stream : Stream) :
    (pushText options text stream).level = stream.level := by
  rw [pushText]
  split
  · rfl
  · rw [level_pushLines, level_push]

end Shorthand.Stream
