import Mathlib.Data.List.DropRight
import Shorthand.Proofs.Output.Stream
import Shorthand.Proofs.Text.Lines

/-!
# The counters of the stream

What is written is recorded as pieces: texts, and the newline strings with which lines begin. The
counters agree with the record after every step. They say how many characters it has, how many
newline strings are in it, and how many characters stand behind the last of them. The main
statement is `counters_of_run`.
-/

namespace Shorthand.Stream

/-! ### Steps and their record -/

/-- A step of writing. -/
inductive Step where
  | push (text : String)
  | pushText (text : String)
  /-- Begin a line, with indentation or without. -/
  | beginLine (isIndented : Bool)
  | pushIndent (level : Int)
  | pushField (index : Nat) (placeholder : String)
  | shift (change : Int)
  deriving DecidableEq, Repr

/-- A piece of what has been written. -/
inductive Piece where
  | text (written : String)
  /-- The newline string at the beginning of a line. -/
  | newline
  deriving DecidableEq, Repr

section

variable (options : OutputOptions)

/-- What a step does to the stream. -/
def Step.apply (stream : Stream) : Step → Stream
  | .push text => Stream.push options text stream
  | .pushText text => Stream.pushText options text stream
  | .beginLine true => pushLine options stream
  | .beginLine false => breakLine options stream
  | .pushIndent level => Stream.pushIndent options level stream
  | .pushField index placeholder => Stream.pushField options index placeholder stream
  | .shift change => Stream.shift stream change

/-- Take steps from first to last. -/
def run (steps : List Step) (stream : Stream) : Stream := steps.foldl (Step.apply options) stream

/-- The characters of a piece. -/
def Piece.written : Piece → List Char
  | .text written => written.toList
  | .newline => options.newline.toList

/-- The pieces with which an indented line begins. -/
def linePieces (level : Int) : List Piece :=
  [.newline, .text options.baseIndent, .text (Text.repeated options.indent level.toNat)]

/-- The pieces of further lines of a text. -/
def furtherPieces (level : Int) (lines : List String) : List Piece :=
  lines.flatMap fun line => linePieces options level ++ [.text (options.text line)]

/-- What a step writes at a level of indentation. -/
def Step.pieces (level : Int) : Step → List Piece
  | .push text => [.text (options.text text)]
  | .pushText text =>
    match Text.splitLines text with
    | [] => []
    | first :: rest => .text (options.text first) :: furtherPieces options level rest
  | .beginLine true => linePieces options level
  | .beginLine false => [.newline, .text options.baseIndent]
  | .pushIndent level => [.text (Text.repeated options.indent level.toNat)]
  | .pushField index placeholder => [.text (options.field index placeholder)]
  | .shift _ => []

/-- The level of indentation behind a step. -/
def Step.levelBehind (level : Int) : Step → Int
  | .shift change => level + change
  | _ => level

/-- What steps write from a level of indentation on. -/
def piecesOf (level : Int) : List Step → List Piece
  | [] => []
  | step :: rest => step.pieces options level ++ piecesOf (step.levelBehind level) rest

/-- The characters behind the last newline string. -/
def currentLine (pieces : List Piece) : List Char :=
  (pieces.rtakeWhile (· ≠ .newline)).flatMap (Piece.written options)

/-! ### The record of a stream -/

/-- The stream holds the pieces, and its counters say so. -/
structure Records (pieces : List Piece) (stream : Stream) : Prop where
  value : stream.value.toList = pieces.flatMap (Piece.written options)
  offset : stream.offset = stream.value.length
  line : stream.line = pieces.count .newline
  column : stream.column = (currentLine options pieces).length

end

namespace Records

variable {options : OutputOptions} {pieces : List Piece} {stream : Stream}

/-- An empty stream is recorded by no pieces. -/
theorem empty (level : Int) : Records options [] (.empty level) := ⟨rfl, rfl, rfl, rfl⟩

/-- A text that is added is a piece more. -/
theorem append (records : Records options pieces stream) (text : String) :
    Records options (pieces ++ [.text text]) (stream.append text) where
  value := by simp [records.value, Piece.written]
  offset := by rw [Stream.append, records.offset, String.length_append]
  line := by simp [Stream.append, records.line]
  column := by
    rw [currentLine, List.rtakeWhile_concat_pos _ _ _ (by simp), List.flatMap_append,
      List.length_append]
    simp [Stream.append, records.column, currentLine, Piece.written, String.length_toList]

/-- The newline string ends the line, and the base of indentation begins the next one. -/
theorem breakLine (records : Records options pieces stream) :
    Records options (pieces ++ [.newline, .text options.baseIndent])
      (Stream.breakLine options stream) where
  value := by simp [records.value, Piece.written]
  offset := by simp [Stream.breakLine, Stream.append, records.offset, Nat.add_assoc]
  line := by simp [Stream.breakLine, records.line]
  column := by
    have split : pieces ++ [.newline, .text options.baseIndent] =
        (pieces ++ [.newline]) ++ [.text options.baseIndent] := by simp
    rw [currentLine, split, List.rtakeWhile_concat_pos _ _ _ (by simp),
      List.rtakeWhile_concat_neg _ _ _ (by simp)]
    simp [Stream.breakLine, Piece.written, String.length_toList]

/-- A new line is recorded by its pieces. -/
theorem pushLine (records : Records options pieces stream) :
    Records options (pieces ++ linePieces options stream.level)
      (Stream.pushLine options stream) := by
  have indented := records.breakLine.append (Text.repeated options.indent stream.level.toNat)
  rwa [List.append_assoc] at indented

/-- Further lines are recorded by theirs. -/
theorem pushLines (records : Records options pieces stream) (lines : List String) :
    Records options (pieces ++ furtherPieces options stream.level lines)
      (Stream.pushLines options lines stream) := by
  induction lines generalizing pieces stream with
  | nil =>
    rw [furtherPieces, List.flatMap_nil, List.append_nil]
    exact records
  | cons line rest ih =>
    have others := ih (records.pushLine.append (options.text line))
    rw [List.append_assoc, List.append_assoc] at others
    rw [furtherPieces, List.flatMap_cons, List.append_assoc]
    exact others

/-- A text of several lines is recorded by the pieces of its lines. -/
theorem pushText (records : Records options pieces stream) (text : String) :
    Records options (pieces ++ (Step.pushText text).pieces options stream.level)
      (Stream.pushText options text stream) := by
  rw [Step.pieces, Stream.pushText]
  cases Text.splitLines text with
  | nil =>
    rw [List.append_nil]
    exact records
  | cons first rest =>
    have others := (records.append (options.text first)).pushLines rest
    rw [List.append_assoc] at others
    exact others

/-- Every step keeps the record. -/
theorem step (records : Records options pieces stream) (step : Step) :
    Records options (pieces ++ step.pieces options stream.level) (step.apply options stream) ∧
      (step.apply options stream).level = step.levelBehind stream.level := by
  cases step with
  | push text => exact ⟨records.append _, rfl⟩
  | pushText text => exact ⟨records.pushText text, level_pushText options text stream⟩
  | beginLine isIndented =>
    cases isIndented with
    | false => exact ⟨records.breakLine, rfl⟩
    | true => exact ⟨records.pushLine, rfl⟩
  | pushIndent level => exact ⟨records.append _, rfl⟩
  | pushField index placeholder => exact ⟨records.append _, rfl⟩
  | shift change =>
    refine ⟨?_, rfl⟩
    rw [Step.pieces, List.append_nil]
    exact ⟨records.value, records.offset, records.line, records.column⟩

/-- Steps that are run one after the other are recorded by all of their pieces. -/
theorem run (records : Records options pieces stream) (steps : List Step) :
    Records options (pieces ++ piecesOf options stream.level steps)
      (Stream.run options steps stream) := by
  induction steps generalizing pieces stream with
  | nil =>
    rw [piecesOf, List.append_nil]
    exact records
  | cons step rest ih =>
    obtain ⟨recorded, level⟩ := records.step step
    have others := ih recorded
    rw [level, List.append_assoc] at others
    exact others

end Records

/-! ### Counters -/

/-- A new line ends one line. -/
theorem count_linePieces (options : OutputOptions) (level : Int) :
    (linePieces options level).count .newline = 1 := by
  simp [linePieces]

/-- Further lines end as many lines as there are. -/
theorem count_furtherPieces (options : OutputOptions) (level : Int) (lines : List String) :
    (furtherPieces options level lines).count .newline = lines.length := by
  induction lines with
  | nil => rfl
  | cons line rest ih =>
    rw [furtherPieces] at ih ⊢
    rw [List.flatMap_cons, List.count_append, List.count_append, count_linePieces, ih,
      List.length_cons]
    simp [Nat.add_comm]

/-- A text begins a line behind each of its line terminators. -/
theorem count_pieces_pushText (options : OutputOptions) (level : Int) (text : String) :
    ((Step.pushText text).pieces options level).count .newline = Text.terminators text.toList := by
  have length := Text.length_linesOf text.toList
  rw [Step.pieces, Text.splitLines]
  cases lines : Text.linesOf text.toList with
  | nil => exact absurd lines (Text.linesOf_ne_nil _)
  | cons first rest =>
    rw [lines, List.length_cons, Nat.add_right_cancel_iff] at length
    simp [count_furtherPieces, length]

/-- Whatever is written, the offset is the number of characters, the line is the number of newline
strings that began a line, and the column is the number of characters behind the last of them. A
text begins a line for each of its line terminators, and what has been written stays. -/
theorem counters_of_run (options : OutputOptions) (level : Int) (steps : List Step) :
    let stream := run options steps (.empty level)
    let pieces := piecesOf options level steps
    stream.value.toList = pieces.flatMap (Piece.written options) ∧
      stream.offset = stream.value.length ∧
      stream.line = pieces.count .newline ∧
      stream.column = (currentLine options pieces).length ∧
      (∀ text, (pushText options text stream).line =
        stream.line + Text.terminators text.toList) ∧
      ∀ later, stream.value.toList <+:
        (run options (steps ++ later) (.empty level)).value.toList := by
  intro stream pieces
  have records : Records options pieces stream := (Records.empty level).run steps
  refine ⟨records.value, records.offset, records.line, records.column, fun text => ?_,
    fun later => ?_⟩
  · rw [(records.pushText text).line, List.count_append, count_pieces_pushText, records.line]
  · have further := (records.run later).value
    have same : run options later stream = run options (steps ++ later) (.empty level) :=
      (List.foldl_append ..).symm
    rw [← same, further, List.flatMap_append, ← records.value]
    exact List.prefix_append _ _

end Shorthand.Stream
