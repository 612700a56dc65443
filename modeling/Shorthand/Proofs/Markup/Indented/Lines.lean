import Mathlib.Data.List.Forall2
import Shorthand.Markup.Indented
import Shorthand.Proofs.Markup.Preorder
import Shorthand.Proofs.Output.BegunLines
import Shorthand.Proofs.Output.Stream

/-!
# Writing by indentation shows the tree by its lines

What every line begins with can be read off the nodes: a node has a line for itself, and lines
for its text if that has several. A step of writing goes on in the current line and then begins
the lines of what it writes, so that no line is begun twice and none is missing.
-/

namespace Shorthand.Markup.Indented

open Output
open Text (IsUnbroken isUnbroken_append)

/-! ### Nodes, options and lines -/

/-- A value that does not end a line. -/
def IsUnbrokenValue (value : Value) : Prop := ∀ part ∈ value, IsUnbroken part.shown.toList

/-- An attribute that does not end a line. -/
structure IsUnbrokenAttribute (written : Attribute) : Prop where
  name : ∀ name ∈ written.name, IsUnbroken name.toList
  value : ∀ value ∈ written.value, IsUnbrokenValue value

/-- A named element that has line ends nowhere but in its text. -/
structure IsLineElement (element : Element) : Prop where
  named : element.name.isSome
  name : ∀ name ∈ element.name, IsUnbroken name.toList
  attributes : ∀ written ∈ element.attributes, IsUnbrokenAttribute written
  fieldNames : ∀ index name, .field index name ∈ element.value → IsUnbroken name.toList

/-- Texts and fields are written as they are, and lines are broken by line feeds alone. -/
structure WritesLines (config : Config) : Prop where
  text : config.options.output.text = id
  field : config.options.output.field = defaultField
  newline : config.options.output.newline = "\n"
  baseIndent : config.options.output.baseIndent = ""
  indent : IsUnbroken config.options.output.indent.toList

/-- Delimiters that do not end a line. -/
structure Delimiters.IsUnbroken (delimiters : Delimiters) : Prop where
  beforeName : Text.IsUnbroken delimiters.beforeName.toList
  beforeAttributes : Text.IsUnbroken delimiters.beforeAttributes.toList
  afterAttributes : Text.IsUnbroken delimiters.afterAttributes.toList
  betweenAttributes : Text.IsUnbroken delimiters.betweenAttributes.toList
  beforeTextLine : Text.IsUnbroken delimiters.beforeTextLine.toList
  afterTextLine : Text.IsUnbroken delimiters.afterTextLine.toList
  booleanValue : Text.IsUnbroken delimiters.booleanValue.toList
  closingMark : Text.IsUnbroken delimiters.closingMark.toList

/-- The dialects that show nesting by indentation. -/
def Delimiters.dialects (config : Config) : List Delimiters :=
  [haml, slim, pug config.options.output.closingStyle]

section

variable (config : Config) (delimiters : Delimiters)

/-- The indentation of a line, so many steps deep. -/
def indentation (depth : Nat) : List Char :=
  (Text.repeated config.options.output.indent depth).toList

/-- What the header of an element begins with: its name, which a `div` with selectors lacks. -/
def headerStart (element : Element) : List Char :=
  match element.name with
  | some name =>
    if name != "div" || (element.attributes.filter isSelector).isEmpty then
      (delimiters.beforeName ++ name).toList
    else
      []
  | none => []

/-- The text of a line in front of its first field. -/
def leadingText : Value → List Char
  | .text text :: rest => text.toList ++ leadingText rest
  | _ => []

/-- What a line of text begins with. -/
def textStart (depth : Nat) (line : Value) : List Char :=
  indentation config depth ++ (delimiters.beforeTextLine.toList ++ leadingText line)

/-- What the lines of a text begin with, if there are several of them. -/
def textStarts (depth : Nat) (value : Value) : List (List Char) :=
  if 2 ≤ (linesOf value).length then
    (linesOf value).map (textStart config delimiters depth)
  else
    []

mutual

/-- What the lines of a node begin with: its header, the lines of its text one step deeper, and
the lines of its children. -/
def nodeStarts (depth : Nat) : Node → List (List Char)
  | .node element children =>
    (indentation config depth ++ headerStart delimiters element) ::
      (textStarts config delimiters (depth + 1) element.value ++
        forestStarts (depth + 1) children)

/-- What the lines of nodes begin with, from the first to the last. -/
def forestStarts (depth : Nat) : List Node → List (List Char)
  | [] => []
  | first :: rest => nodeStarts depth first ++ forestStarts depth rest

end

end

/-! ### Lines of a value -/

/-- The last line of a text goes on in the first of the lines behind it. -/
theorem joinLines_append (before : List String) (last : String) (first : Value)
    (others : List Value) :
    linesOf.joinLines (before ++ [last]) (first :: others) =
      before.map linesOf.textPart ++ (linesOf.textPart last ++ first) :: others := by
  induction before with
  | nil => rfl
  | cons line rest ih =>
    cases rest with
    | nil => rfl
    | cons next rest => exact congrArg (linesOf.textPart line :: ·) ih

/-- There is a last line. -/
theorem exists_splitLines (text : String) :
    ∃ before last, Text.splitLines text = before ++ [last] := by
  have filled : Text.splitLines text ≠ [] :=
    fun empty => Text.linesOf_ne_nil _ (List.map_eq_nil_iff.mp empty)
  exact ⟨_, _, (List.dropLast_append_getLast filled).symm⟩

/-- A value has at least one line. -/
theorem linesOf_ne_nil (value : Value) : linesOf value ≠ [] := by
  induction value with
  | nil => exact List.cons_ne_nil _ _
  | cons part rest ih =>
    obtain ⟨first, others, behind⟩ := List.exists_cons_of_ne_nil ih
    cases part with
    | field index name => simp [linesOf, behind]
    | text text =>
      obtain ⟨before, last, lines⟩ := exists_splitLines text
      rw [linesOf, behind, lines, joinLines_append]
      simp

/-- A line of a text is unbroken. -/
theorem isUnbrokenValue_textPart (text : String) {line : String}
    (member : line ∈ Text.splitLines text) :
    IsUnbrokenValue (linesOf.textPart line) := by
  obtain ⟨chars, among, rfl⟩ := List.mem_map.mp member
  rw [linesOf.textPart]
  split
  · exact List.forall_mem_nil _
  · have unbroken := Text.isUnbroken_of_mem_linesOf among
    simpa [IsUnbrokenValue, Part.shown] using unbroken

/-- A part of a value begins the lines that its text has and goes on in the last of them. -/
theorem linesOf_cons {part : Part} (rest : Value)
    (fieldName : part.isField → IsUnbroken part.shown.toList) :
    ∃ before last first others, linesOf rest = first :: others ∧
      linesOf (part :: rest) = before ++ (last ++ first) :: others ∧
      (∀ line ∈ before, IsUnbrokenValue line) ∧ IsUnbrokenValue last ∧
      (before = [] → IsUnbroken part.shown.toList) := by
  obtain ⟨first, others, behind⟩ := List.exists_cons_of_ne_nil (linesOf_ne_nil rest)
  cases part with
  | field index name =>
    refine ⟨[], [.field index name], first, others, behind, ?_, List.forall_mem_nil _, ?_, ?_⟩
    · simp [linesOf, behind]
    · exact List.forall_mem_singleton.mpr (fieldName rfl)
    · exact fun _ => fieldName rfl
  | text text =>
    obtain ⟨before, last, lines⟩ := exists_splitLines text
    refine ⟨before.map linesOf.textPart, linesOf.textPart last, first, others, behind, ?_, ?_, ?_,
      ?_⟩
    · rw [linesOf, behind, lines, joinLines_append]
    · refine List.forall_mem_map.mpr fun line member => isUnbrokenValue_textPart text ?_
      exact lines ▸ List.mem_append_left _ member
    · exact isUnbrokenValue_textPart text (by simp [lines])
    · intro single
      rw [List.map_eq_nil_iff.mp single, List.nil_append, Text.splitLines,
        List.map_eq_singleton_iff] at lines
      obtain ⟨line, isLine, -⟩ := lines
      exact Text.isUnbroken_of_linesOf isLine

/-- The lines of a value do not end a line, if its field names do not. -/
theorem isUnbrokenValue_of_mem_linesOf {value : Value}
    (fieldNames : ∀ part ∈ value, part.isField → IsUnbroken part.shown.toList) :
    ∀ line ∈ linesOf value, IsUnbrokenValue line := by
  induction value with
  | nil => exact List.forall_mem_singleton.mpr (List.forall_mem_nil _)
  | cons part rest ih =>
    obtain ⟨fieldName, others⟩ := List.forall_mem_cons.mp fieldNames
    obtain ⟨before, last, first, behind, lines, joined, complete, goesOn, -⟩ :=
      linesOf_cons rest fieldName
    have unbroken := ih others
    rw [lines, List.forall_mem_cons] at unbroken
    rw [joined, List.forall_mem_append, List.forall_mem_cons]
    exact ⟨complete, List.forall_mem_append.mpr ⟨goesOn, unbroken.1⟩, unbroken.2⟩

/-- A value of one line does not end it. -/
theorem isUnbrokenValue_of_linesOf {value line : Value}
    (fieldNames : ∀ part ∈ value, part.isField → IsUnbroken part.shown.toList)
    (single : linesOf value = [line]) : IsUnbrokenValue value := by
  induction value generalizing line with
  | nil => exact List.forall_mem_nil _
  | cons part rest ih =>
    obtain ⟨fieldName, others⟩ := List.forall_mem_cons.mp fieldNames
    obtain ⟨before, last, first, behind, lines, joined, -, -, alone⟩ := linesOf_cons rest fieldName
    have few := congrArg List.length (joined.symm.trans single)
    simp only [List.length_append, List.length_cons, List.length_nil] at few
    have noneBefore : before = [] := List.eq_nil_of_length_eq_zero (by omega)
    have noneBehind : behind = [] := List.eq_nil_of_length_eq_zero (by omega)
    rw [noneBehind] at lines
    exact List.forall_mem_cons.mpr ⟨alone noneBefore, ih others lines⟩

section

variable {config : Config} (writes : WritesLines config) {level : Int}
include writes

/-- A text is written as it is. -/
theorem adds_push (text : String) : Adds level (· = text.toList) (push config text) := by
  intro writer isLevel
  refine ⟨isLevel, text.toList, ?_, rfl⟩
  rw [push, Writer.onStream, Stream.toList_push, writes.text]
  rfl

/-- An unbroken text adds to the line. -/
theorem adds_unbroken {text : String} (unbroken : IsUnbroken text.toList) :
    Adds level IsUnbroken (push config text) :=
  (adds_push writes text).mono fun added same => by rw [same]; exact unbroken

/-- Indentation is part of one line. -/
theorem isUnbroken_indentation (depth : Nat) : IsUnbroken (indentation config depth) :=
  Text.isUnbroken_repeated writes.indent depth

/-- A line break begins the next line with its indentation. -/
theorem adds_pushLine (depth : Nat) :
    Adds depth (· = '\n' :: indentation config depth)
      (Writer.onStream (Stream.pushLine config.options.output)) := by
  intro writer isLevel
  refine ⟨isLevel, _, Stream.toList_pushLine config.options.output writer.stream, ?_⟩
  simp [Stream.lineStart, writes.newline, writes.baseIndent, isLevel, indentation]

omit writes in
/-- The number of a field does not end a line. -/
theorem isUnbroken_number (number : Nat) : IsUnbroken (toString number).toList := by
  intro c member
  have digit : CharClass.digit c := Digits.digit_of_mem_toDigits (by simpa using member)
  rw [Text.isLineEnd, Bool.or_eq_false_iff, beq_eq_false_iff_ne, beq_eq_false_iff_ne]
  constructor <;> (rintro rfl; exact absurd digit (by decide))

/-- A field with an unbroken placeholder adds to the line. -/
theorem adds_pushField (index : Nat) {name : String} (unbroken : IsUnbroken name.toList) :
    Adds level IsUnbroken fun writer => writer.pushField config.options.output index name := by
  intro writer isLevel
  refine ⟨isLevel, _, Stream.toList_pushField config.options.output _ name writer.stream, ?_⟩
  have opening : IsUnbroken "$\x7b".toList := by decide
  have closing : IsUnbroken "\x7d".toList := by decide
  have colon : IsUnbroken ":".toList := by decide
  have number := isUnbroken_number ((writer.base + index) % Digits.wordLimit)
  rw [writes.field, defaultField]
  split <;> simp only [String.toList_append, isUnbroken_append] <;> tauto

omit writes in
/-- The text in front of an unbroken value is unbroken. -/
theorem isUnbroken_leadingText {value : Value} (unbroken : IsUnbrokenValue value) :
    IsUnbroken (leadingText value) := by
  induction value with
  | nil => exact Text.isUnbroken_nil
  | cons part rest ih =>
    obtain ⟨unbrokenPart, others⟩ := List.forall_mem_cons.mp unbroken
    cases part with
    | text text => exact isUnbroken_append.mpr ⟨unbrokenPart, ih others⟩
    | field index name => exact Text.isUnbroken_nil

/-- A value is written with its leading text in front. -/
theorem adds_pushValue {value : Value} (unbroken : IsUnbrokenValue value) :
    Adds level (Opens (leadingText value)) (pushValue config value) := by
  have parts : Adds level (Opens (leadingText value))
      (pushParts config (Stream.push config.options.output) value) := by
    induction value with
    | nil => exact .nothing (.nothing Text.isUnbroken_nil)
    | cons part rest ih =>
      obtain ⟨unbrokenPart, others⟩ := List.forall_mem_cons.mp unbroken
      have further := ih others
      cases part with
      | text text =>
        refine further.comp (adds_push writes text) ?_
        rintro _ _ rfl ⟨more, goesOn, rfl⟩
        exact ⟨more, goesOn, (List.append_assoc _ _ _).symm⟩
      | field index name =>
        refine further.comp (adds_pushField writes index unbrokenPart) fun _ _ written opens => ?_
        have behind := opens.unbroken (isUnbroken_leadingText others)
        exact .nothing (isUnbroken_append.mpr ⟨written, behind⟩)
  exact adds_closeGroup.comp parts fun _ _ opens nothing => by simpa [nothing] using opens

/-- An unbroken value adds to the line. -/
theorem adds_pushValue_unbroken {value : Value} (unbroken : IsUnbrokenValue value) :
    Adds level IsUnbroken (pushValue config value) :=
  (adds_pushValue writes unbroken).mono fun _ opens =>
    opens.unbroken (isUnbroken_leadingText unbroken)

/-! ### Headers -/

omit writes in
/-- Words with points between them do not end a line. -/
theorem isUnbrokenValue_dotted {value : Value} (unbroken : IsUnbrokenValue value) :
    IsUnbrokenValue (value.map dotted) := by
  intro part member
  obtain ⟨original, among, rfl⟩ := List.mem_map.mp member
  cases original with
  | text text => exact Text.isUnbroken_join (by decide) fun _ => Text.isUnbroken_of_mem_words
  | field index name => exact unbroken _ among

omit writes in
/-- Quotes are unbroken. -/
theorem isUnbroken_quotesOf (config : Config) (written : Attribute) :
    IsUnbroken (quotesOf config written).1.toList ∧
      IsUnbroken (quotesOf config written).2.toList := by
  rw [quotesOf]
  split
  · decide
  · cases config.options.output.attributeQuotes <;> decide

/-- A class or an id adds to the line. -/
theorem adds_pushSelector {written : Attribute} (unbroken : IsUnbrokenAttribute written) :
    Adds level IsUnbroken (pushSelector config written) := by
  obtain ⟨name, value, isBoolean, isImplied, kind, isMultiple⟩ := written
  cases value with
  | none => exact .nothing Text.isUnbroken_nil
  | some value =>
    have unbrokenValue := unbroken.value value rfl
    exact .ite
      (fun _ => (adds_pushValue_unbroken writes (isUnbrokenValue_dotted unbrokenValue)).unbroken
        (adds_unbroken writes (by decide)))
      fun _ => (adds_pushValue_unbroken writes unbrokenValue).unbroken
        (adds_unbroken writes (by decide))

variable {delimiters : Delimiters} (plain : delimiters.IsUnbroken)
include plain

/-- An attribute adds to the line. -/
theorem adds_pushAttribute {written : Attribute} (unbroken : IsUnbrokenAttribute written) :
    Adds level IsUnbroken (pushAttribute config delimiters written) := by
  have equals : IsUnbroken "=".toList := by decide
  obtain ⟨opening, closing⟩ := isUnbroken_quotesOf config written
  have opened : IsUnbroken ("=" ++ (quotesOf config written).1).toList := by
    rw [String.toList_append, isUnbroken_append]
    exact ⟨equals, opening⟩
  have named : Adds level IsUnbroken
      (push config (attributeName config (written.name.getD ""))) := by
    refine adds_unbroken writes (Text.isUnbroken_casing _ ?_)
    cases isNamed : written.name with
    | none => decide
    | some name => exact unbroken.name name isNamed
  have assigned (value : Value) (unbrokenValue : IsUnbrokenValue value) :=
    (adds_unbroken writes closing).unbroken <|
      (adds_pushValue_unbroken writes unbrokenValue).unbroken <|
        (adds_unbroken writes opened).unbroken named
  rw [funext (pushAttribute.eq_def config delimiters written)]
  cases isValue : written.value with
  | some value => exact assigned value (unbroken.value value isValue)
  | none =>
    have unbrokenCaret : IsUnbrokenValue caret := by simp [IsUnbrokenValue, caret, Part.shown]
    have valued : IsUnbroken ("=" ++ delimiters.booleanValue).toList := by
      rw [String.toList_append, isUnbroken_append]
      exact ⟨equals, plain.booleanValue⟩
    exact .ite (fun _ => assigned caret unbrokenCaret) fun _ =>
      .ite (fun _ => (adds_unbroken writes valued).unbroken named) fun _ => named

/-- Attributes with their separators add to the line. -/
theorem adds_pushSeparated {attributes : List Attribute}
    (unbroken : ∀ written ∈ attributes, IsUnbrokenAttribute written) :
    Adds level IsUnbroken (pushSeparated config delimiters attributes) := by
  match attributes with
  | [] => exact .nothing Text.isUnbroken_nil
  | [last] => exact adds_pushAttribute writes plain (List.forall_mem_singleton.mp unbroken)
  | first :: second :: rest =>
    obtain ⟨unbrokenFirst, others⟩ := List.forall_mem_cons.mp unbroken
    exact (adds_pushSeparated others).unbroken
      ((adds_unbroken writes plain.betweenAttributes).unbroken
        (adds_pushAttribute writes plain unbrokenFirst))

/-- Attributes with the delimiters around them add to the line. -/
theorem adds_pushAttributes {attributes : List Attribute}
    (unbroken : ∀ written ∈ attributes, IsUnbrokenAttribute written) :
    Adds level IsUnbroken (pushAttributes config delimiters attributes) :=
  .ite (fun _ => .nothing Text.isUnbroken_nil) fun _ =>
    (adds_unbroken writes plain.afterAttributes).unbroken <|
      (adds_pushSeparated writes plain unbroken).unbroken
        (adds_unbroken writes plain.beforeAttributes)

omit writes in
/-- What a header begins with is unbroken. -/
theorem isUnbroken_headerStart {element : Element} (isLine : IsLineElement element) :
    IsUnbroken (headerStart delimiters element) := by
  rw [headerStart]
  split
  case h_1 name isName =>
    split
    · rw [String.toList_append, isUnbroken_append]
      exact ⟨plain.beforeName, isLine.name name isName⟩
    · exact Text.isUnbroken_nil
  case h_2 => exact Text.isUnbroken_nil

/-- A header begins with the name. -/
theorem adds_pushHeader {element : Element} (isLine : IsLineElement element) :
    Adds level (Opens (headerStart delimiters element))
      (pushHeader config delimiters element) := by
  obtain ⟨name, value, attributes, iteration, isSelfClosing⟩ := element
  have selected : Adds level IsUnbroken fun writer =>
      (attributes.filter isSelector).foldl
        (fun writer written => pushSelector config written writer) writer :=
    .foldl_unbroken fun written member =>
      adds_pushSelector writes (isLine.attributes written (List.mem_filter.mp member).1)
  have others : Adds level IsUnbroken (pushAttributes config delimiters <|
      attributes.filter fun written =>
        !isSelector written && (!written.isImplied || written.value.isSome)) :=
    adds_pushAttributes writes plain fun written member =>
      isLine.attributes written (List.mem_filter.mp member).1
  have opens {text : String} (start : List Char) (same : text.toList = start) :
      Adds level (Opens start) (push config text) :=
    (adds_push writes text).mono fun added isText =>
      ⟨[], Text.isUnbroken_nil, by rw [isText, same, List.append_nil]⟩
  cases name with
  | none => exact others.opens (selected.opens (.nothing (.nothing Text.isUnbroken_nil)))
  | some name =>
    refine others.opens (selected.opens (.ite (fun isWritten => ?_) fun unwritten => ?_))
    · exact opens _ (by simp only [headerStart, if_pos isWritten])
    · refine .nothing ?_
      simp only [headerStart, if_neg unwritten]
      exact .nothing Text.isUnbroken_nil

/-! ### Texts -/

/-- A line of a text begins with the indentation and the mark of the dialect. -/
theorem adds_pushTextLine {depth : Nat} (width : Nat) {line : Value}
    (unbroken : IsUnbrokenValue line) :
    Adds depth (BeginsLines [textStart config delimiters depth line])
      (pushTextLine config delimiters width line) := by
  have opened : Adds depth (Opens (delimiters.beforeTextLine.toList ++ leadingText line))
      (pushValue config line ∘ push config delimiters.beforeTextLine) := by
    refine (adds_pushValue writes unbroken).comp (adds_push writes delimiters.beforeTextLine) ?_
    rintro _ _ rfl ⟨more, goesOn, rfl⟩
    exact ⟨more, goesOn, (List.append_assoc _ _ _).symm⟩
  have begun : Adds depth (BeginsLines [textStart config delimiters depth line])
      ((pushValue config line ∘ push config delimiters.beforeTextLine) ∘
        Writer.onStream (Stream.pushLine config.options.output)) := by
    refine opened.comp (adds_pushLine writes depth) ?_
    rintro _ _ rfl opens
    exact opens.beginsLine (isUnbroken_indentation writes depth)
      (isUnbroken_append.mpr ⟨plain.beforeTextLine, isUnbroken_leadingText unbroken⟩)
  have blanks : IsUnbroken (Text.repeated " " (width - lineWidth line)).toList :=
    Text.isUnbroken_repeated (by decide) _
  exact .ite (fun _ => begun) fun _ =>
    (adds_unbroken writes plain.afterTextLine).goesOn ((adds_unbroken writes blanks).goesOn begun)

/-- The lines of a text are written one step deeper. -/
theorem adds_pushTextLines {depth : Nat} (width : Nat) {lines : List Value}
    (unbroken : ∀ line ∈ lines, IsUnbrokenValue line) :
    Adds depth (BeginsLines (lines.map (textStart config delimiters (depth + 1)))) fun writer =>
      (lines.foldl (fun writer line => pushTextLine config delimiters width line writer)
        (writer.shift 1)).shift (-1) := by
  have each : ∀ line ∈ lines,
      Adds (depth + 1 : Nat) (BeginsLines [textStart config delimiters (depth + 1) line])
        (pushTextLine config delimiters width line) :=
    fun line member => adds_pushTextLine writes plain width (unbroken line member)
  rw [List.map_eq_flatMap]
  exact .shifted (.foldl_beginsLines each)

/-- A text of one line goes on in the line of its element, and a text of several lines begins all
of them one step deeper. -/
theorem adds_pushText {element : Element} {depth : Nat} (hasChildren : Bool)
    (isLine : IsLineElement element) :
    Adds depth (BeginsLines (textStarts config delimiters (depth + 1) element.value))
      (pushText config delimiters element hasChildren) := by
  have short {value : Value} {line : Value} (single : linesOf value = [line]) :
      textStarts config delimiters (depth + 1) value = [] := by simp [textStarts, single]
  refine .ite (fun isEmpty => ?_) fun _ => ?_
  · have empty : element.value = [] := by simpa using (Bool.and_eq_true_iff.mp isEmpty).1
    rw [empty, short rfl]
    exact .nothing (.none Text.isUnbroken_nil)
  -- Where the text is empty the caret is written, which is one line too.
  obtain ⟨value, written, same, fieldNames⟩ : ∃ value,
      (if element.value.isEmpty then caret else element.value) = value ∧
      textStarts config delimiters (depth + 1) element.value =
        textStarts config delimiters (depth + 1) value ∧
      ∀ part ∈ value, part.isField → IsUnbroken part.shown.toList := by
    refine ⟨_, rfl, ?_⟩
    split
    case isTrue isEmpty =>
      rw [List.isEmpty_iff.mp isEmpty]
      exact ⟨rfl, by simp [caret, Part.shown]⟩
    case isFalse =>
      refine ⟨rfl, fun part member isField => ?_⟩
      cases part with
      | text text => cases isField
      | field index name => exact isLine.fieldNames index name member
  have unbroken := isUnbrokenValue_of_mem_linesOf fieldNames
  dsimp only
  rw [same, written]
  match lines : linesOf value with
  | [] => exact absurd lines (linesOf_ne_nil value)
  | [line] =>
    have blank : Adds depth IsUnbroken fun writer =>
        if element.isBare then id writer else push config " " writer :=
      .ite (fun _ => .nothing Text.isUnbroken_nil) fun _ => adds_unbroken writes (by decide)
    rw [short lines]
    exact ((adds_pushValue_unbroken writes (isUnbrokenValue_of_linesOf fieldNames lines)).unbroken
      blank).mono fun _ => BeginsLines.none
  | first :: second :: rest =>
    rw [textStarts, lines, if_pos (by simp)]
    exact adds_pushTextLines writes plain _ (lines ▸ unbroken)

/-! ### Nodes -/

/-- Write an element and what is inside of it, from where its line has begun. -/
def pushBody (config : Config) (delimiters : Delimiters) (element : Element)
    (children : List Node) (writer : Writer) : Writer :=
  let headed := pushHeader config delimiters element writer
  if element.isSelfClosing && element.value.isEmpty && children.isEmpty then
    push config delimiters.closingMark headed
  else
    pushNodes config delimiters true true children
      (pushText config delimiters element (!children.isEmpty) headed)

/-- The children of an element stand below it, behind its text. -/
theorem adds_pushBody {element : Element} {children : List Node} {depth : Nat}
    (isLine : IsLineElement element)
    (below : Adds depth (BeginsLines (forestStarts config delimiters (depth + 1) children))
      (pushNodes config delimiters true true children)) :
    Adds depth
      (Heads (headerStart delimiters element)
        (textStarts config delimiters (depth + 1) element.value ++
          forestStarts config delimiters (depth + 1) children))
      (pushBody config delimiters element children) := by
  have inside : Adds depth
      (BeginsLines (textStarts config delimiters (depth + 1) element.value ++
        forestStarts config delimiters (depth + 1) children)) fun writer =>
      if element.isSelfClosing && element.value.isEmpty && children.isEmpty then
        push config delimiters.closingMark writer
      else
        (pushNodes config delimiters true true children ∘
          pushText config delimiters element (!children.isEmpty)) writer := by
    refine .ite (fun isClosed => ?_) fun _ => ?_
    · simp only [Bool.and_eq_true, List.isEmpty_iff] at isClosed
      rw [isClosed.1.2, isClosed.2]
      exact (adds_unbroken writes plain.closingMark).mono fun _ => BeginsLines.none
    · exact below.comp (adds_pushText writes plain _ isLine) fun _ _ => BeginsLines.append
  exact inside.comp (adds_pushHeader writes plain isLine) fun head more opens begins =>
    ⟨head, more, opens, begins, rfl⟩

omit writes plain in
/-- An element with a name is not bare. -/
theorem isBare_of_named {element : Element} (named : element.name.isSome) :
    element.isBare = false := by
  rw [Element.isBare, Option.isNone_eq_false_iff.mpr named, Bool.false_and]

omit writes plain in
/-- A named element begins a line, unless it is the first of all, and its body follows. -/
theorem pushNode_eq (config : Config) (delimiters : Delimiters) (isInside isFirst : Bool)
    {element : Element} (named : element.name.isSome) (children : List Node) :
    pushNode config delimiters isInside isFirst (.node element children) =
      Writer.shift (-(if isInside then 1 else 0)) ∘
        (pushBody config delimiters element children ∘ fun writer =>
          if isInside || !isFirst then
            writer.onStream (Stream.pushLine config.options.output)
          else
            writer) ∘
        Writer.shift (if isInside then 1 else 0) := by
  funext writer
  rw [pushNode, isBare_of_named named]
  simp only [Bool.not_false, Bool.and_true]
  rfl

/-- Nodes that are not the first begin a line each. -/
theorem adds_pushNodes {nodes : List Node} (isLine : ∀ element ∈ Node.elementsAll nodes,
    IsLineElement element) {isInside isFirst : Bool} (later : isInside || !isFirst) {level : Int}
    {depth : Nat} (isDepth : level + (if isInside then 1 else 0) = depth) :
    Adds level (BeginsLines (forestStarts config delimiters depth nodes))
      (pushNodes config delimiters isInside isFirst nodes) := by
  induction nodes using Node.forest_induction generalizing isInside isFirst level depth with
  | nil =>
    intro writer
    rw [pushNodes]
    exact Adds.nothing (.none Text.isUnbroken_nil) writer
  | cons element children rest below behind =>
    rw [Node.elementsAll_cons, List.forall_mem_cons, List.forall_mem_append] at isLine
    obtain ⟨isLineElement, childLines, restLines⟩ := isLine
    have inside : Adds depth (BeginsLines (forestStarts config delimiters (depth + 1) children))
        (pushNodes config delimiters true true children) := below childLines rfl rfl
    have others : Adds level (BeginsLines (forestStarts config delimiters depth rest))
        (pushNodes config delimiters isInside false rest) :=
      behind restLines (Bool.or_true _) isDepth
    have own : Adds level
        (BeginsLines (nodeStarts config delimiters depth (.node element children)))
        (pushNode config delimiters isInside isFirst (.node element children)) := by
      rw [pushNode_eq config delimiters isInside isFirst isLineElement.named]
      refine .shifted ?_
      rw [isDepth]
      simp only [if_pos later]
      refine (adds_pushBody writes plain isLineElement inside).comp (adds_pushLine writes depth) ?_
      rintro _ _ rfl ⟨head, more, opens, begins, rfl⟩
      have whole := (opens.beginsLine (isUnbroken_indentation writes depth)
        (isUnbroken_headerStart plain isLineElement)).append begins
      simpa [nodeStarts] using whole
    intro writer
    rw [pushNodes, forestStarts]
    exact others.comp own (fun _ _ => BeginsLines.append) writer

end

/-- The delimiters of the three dialects are unbroken. -/
theorem isUnbroken_of_mem_dialects {config : Config} {delimiters : Delimiters}
    (dialect : delimiters ∈ Delimiters.dialects config) : delimiters.IsUnbroken := by
  simp only [Delimiters.dialects, List.mem_cons, List.not_mem_nil, or_false] at dialect
  rcases dialect with rfl | rfl | rfl
  · constructor <;> decide
  · constructor <;> decide
  · cases config.options.output.closingStyle <;> constructor <;> decide

/-- The lines of named nodes are one header for each of them, in preorder and indented by its
depth, with the lines of its text behind it, if there are several, one step deeper and behind the
mark of the dialect. There are no others. -/
theorem lines_render {config : Config} (writes : WritesLines config) {delimiters : Delimiters}
    (dialect : delimiters ∈ Delimiters.dialects config) {nodes : List Node}
    (isLine : ∀ element ∈ Node.elementsAll nodes, IsLineElement element) :
    (nodes = [] → render config delimiters nodes = "") ∧
      (nodes ≠ [] → List.Forall₂ (fun start line => start <+: line.toList)
        (forestStarts config delimiters 0 nodes)
        (Text.splitLines (render config delimiters nodes))) := by
  have plain := isUnbroken_of_mem_dialects dialect
  refine ⟨fun empty => by rw [empty]; rfl, fun filled => ?_⟩
  match nodes, filled with
  | .node element children :: rest, _ =>
    rw [Node.elementsAll_cons, List.forall_mem_cons, List.forall_mem_append] at isLine
    obtain ⟨isLineElement, childLines, restLines⟩ := isLine
    have inside : Adds (0 : Nat) (BeginsLines (forestStarts config delimiters 1 children))
        (pushNodes config delimiters true true children) :=
      adds_pushNodes writes plain childLines rfl rfl
    have others : Adds (0 : Nat) (BeginsLines (forestStarts config delimiters 0 rest))
        (pushNodes config delimiters false false rest) :=
      adds_pushNodes writes plain restLines rfl rfl
    have first : Adds (0 : Nat)
        (Heads (headerStart delimiters element)
          (textStarts config delimiters 1 element.value ++
            forestStarts config delimiters 1 children))
        (pushNode config delimiters false true (.node element children)) := by
      rw [pushNode_eq config delimiters false true isLineElement.named]
      exact .shifted (adds_pushBody writes plain isLineElement inside)
    obtain ⟨-, text, isText, heads⟩ := others.comp first (fun _ _ => Heads.append) (.empty 1) rfl
    have rendered : (render config delimiters (.node element children :: rest)).toList = text := by
      rw [render, write, pushNodes]
      exact isText
    rw [Text.splitLines, rendered, List.forall₂_map_right_iff]
    simpa [forestStarts, nodeStarts, indentation, Text.repeated] using
      heads.linesOf (isUnbroken_headerStart plain isLineElement)

/-- A text of two lines with a field, and a child with selectors in front of a sibling. -/
theorem lines_render_slim :
    let config := Config.ofSettings { Settings.blank with dialect := some "slim" }
    let titled : Element := { Element.named "h1" with
      value := [.text "one\r\ntwo", .field 1 "more"] }
    let boxed : Element := { Element.named "div" with
      attributes := [Attribute.named "class" (some [.text "a b"])] }
    let nodes : List Node :=
      [.node (.named "main") [.node titled [.node boxed []], .node boxed []]]
    config.dialect = .slim ∧
      forestStarts config Delimiters.slim 0 nodes =
        ["main", "\th1", "\t\t| one", "\t\t| two", "\t\t", "\t"].map String.toList ∧
      List.Forall₂ (fun start line => start <+: line.toList)
        (forestStarts config Delimiters.slim 0 nodes)
        (Text.splitLines (render config Delimiters.slim nodes)) := by
  refine ⟨by decide +kernel, by decide +kernel, (lines_render ?_ ?_ ?_).2 (List.cons_ne_nil _ _)⟩
  · exact ⟨rfl, rfl, rfl, rfl, by decide +kernel⟩
  · exact List.mem_cons_of_mem _ List.mem_cons_self
  · have unbroken {text : String} (isUnbroken : IsUnbroken text.toList) :
        ∀ name ∈ some text, IsUnbroken name.toList :=
      fun _ same => Option.some.inj same ▸ isUnbroken
    have classes : IsUnbrokenAttribute (Attribute.named "class" (some [.text "a b"])) :=
      ⟨unbroken (by decide), by simp only [IsUnbrokenValue]; decide⟩
    have boxed : IsLineElement { Element.named "div" with
        attributes := [Attribute.named "class" (some [.text "a b"])] } :=
      ⟨rfl, unbroken (by decide), List.forall_mem_singleton.mpr classes, by simp [Element.named,
        Element.empty]⟩
    simp only [Node.elementsAll_cons, Node.elementsAll_nil, List.forall_mem_cons, List.append_nil,
      List.cons_append, List.nil_append]
    refine ⟨⟨rfl, unbroken (by decide), List.forall_mem_nil _, ?_⟩,
      ⟨rfl, unbroken (by decide), List.forall_mem_nil _, ?_⟩, boxed, boxed, List.forall_mem_nil _⟩
    · simp [Element.named, Element.empty]
    · simp
      decide

end Shorthand.Markup.Indented
