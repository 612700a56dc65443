import Shorthand.Markup.Layout

/-!
# Writing markup by indentation

Three dialects show nesting by indentation alone: every element but the first begins a line.
Ids and class names are written in the form of selectors, other attributes between the
delimiters of the dialect.
-/

namespace Shorthand.Markup.Indented

/-- The delimiters of a dialect. -/
structure Delimiters where
  beforeName : String
  beforeAttributes : String
  afterAttributes : String
  betweenAttributes : String
  beforeTextLine : String
  afterTextLine : String
  /-- The value of boolean attributes that are not compact. -/
  booleanValue : String
  /-- The mark of an element that closes itself. -/
  closingMark : String
  deriving DecidableEq, Repr

namespace Delimiters

/-- The delimiters of HAML. -/
def haml : Delimiters where
  beforeName := "%"
  beforeAttributes := "("
  afterAttributes := ")"
  betweenAttributes := " "
  beforeTextLine := ""
  afterTextLine := " |"
  booleanValue := "true"
  closingMark := "/"

/-- The delimiters of SLIM. -/
def slim : Delimiters where
  beforeName := ""
  beforeAttributes := " "
  afterAttributes := ""
  betweenAttributes := " "
  beforeTextLine := "| "
  afterTextLine := ""
  booleanValue := ""
  closingMark := "/"

/-- The delimiters of PUG, where only XML needs a closing mark. -/
def pug (style : ClosingStyle) : Delimiters where
  beforeName := ""
  beforeAttributes := "("
  afterAttributes := ")"
  betweenAttributes := ", "
  beforeTextLine := "| "
  afterTextLine := ""
  booleanValue := ""
  closingMark := if style = .xml then "/" else ""

/-- The delimiters of a dialect, if it shows nesting by indentation. -/
def ofConfig? (config : Config) : Option Delimiters :=
  match config.dialect with
  | .haml => some haml
  | .slim => some slim
  | .pug => some (pug config.options.output.closingStyle)
  | _ => none

end Delimiters

/-! ### Lines of a value -/

/-- The lines of a value; fields stay in the line where they stand. -/
def linesOf : Value → List Value
  | [] => [[]]
  | .field index name :: rest =>
    match linesOf rest with
    | [] => [[.field index name]]
    | first :: others => (.field index name :: first) :: others
  | .text text :: rest => joinLines (Text.splitLines text) (linesOf rest)
where
  /-- Put the lines of a text in front of other lines; its last one goes on in the first. -/
  joinLines : List String → List Value → List Value
    | [], lines => lines
    | [last], lines =>
      match lines with
      | [] => [textPart last]
      | first :: others => (textPart last ++ first) :: others
    | line :: next :: rest, lines => textPart line :: joinLines (next :: rest) lines
  /-- The part of a line that a text makes; an empty text makes none. -/
  textPart (text : String) : Value := if text.isEmpty then [] else [.text text]

/-- The number of characters that a line shows. -/
def lineWidth (line : Value) : Nat := line.foldr (fun part width => part.shown.length + width) 0

section

variable (config : Config) (delimiters : Delimiters)

/-- Write a text. -/
def push (text : String) (writer : Writer) : Writer :=
  writer.onStream (Stream.push config.options.output text)

/-- Write a value without breaking its texts into lines. -/
def pushValue (value : Value) (writer : Writer) : Writer :=
  Markup.pushValue config (Stream.push config.options.output) value writer

/-! ### Attributes -/

/-- Whether an attribute is written as a selector. -/
def isSelector (written : Attribute) : Bool := written.isNamed "class" || written.isNamed "id"

/-- A part of a class value with points between the class names. -/
def dotted : Part → Part
  | .text text => .text (Text.join "." (Text.words text))
  | part => part

/-- Write a class or an id as a selector. -/
def pushSelector (written : Attribute) (writer : Writer) : Writer :=
  match written.value with
  | none => writer
  | some value =>
    if written.isNamed "class" then
      pushValue config (value.map dotted) (push config "." writer)
    else
      pushValue config value (push config "#" writer)

/-- Write an attribute between the delimiters. -/
def pushAttribute (written : Attribute) (writer : Writer) : Writer :=
  let named := push config (attributeName config (written.name.getD "")) writer
  let (openMark, closeMark) := quotesOf config written
  let assigned (value : Value) :=
    push config closeMark (pushValue config value (push config ("=" ++ openMark) named))
  match written.value with
  | some value => assigned value
  | none =>
    if !isBooleanAttribute config written then
      assigned caret
    else if !config.options.output.compactBoolean && !delimiters.booleanValue.isEmpty then
      push config ("=" ++ delimiters.booleanValue) named
    else
      named

/-- Write several attributes with what stands between them. -/
def pushSeparated : List Attribute → Writer → Writer
  | [], writer => writer
  | [last], writer => pushAttribute config delimiters last writer
  | first :: second :: rest, writer =>
    pushSeparated (second :: rest)
      (push config delimiters.betweenAttributes (pushAttribute config delimiters first writer))

/-- Write attributes between the delimiters, if there are any. -/
def pushAttributes (attributes : List Attribute) (writer : Writer) : Writer :=
  if attributes.isEmpty then
    writer
  else
    push config delimiters.afterAttributes
      (pushSeparated config delimiters attributes
        (push config delimiters.beforeAttributes writer))

/-! ### Text -/

/-- Write one of several lines of a text. Where lines have an end mark, the marks of all
lines stand below each other. -/
def pushTextLine (width : Nat) (line : Value) (writer : Writer) : Writer :=
  let begun :=
    push config delimiters.beforeTextLine
      (writer.onStream (Stream.pushLine config.options.output))
  let written := pushValue config line begun
  if delimiters.afterTextLine.isEmpty then
    written
  else
    push config delimiters.afterTextLine
      (push config (Text.repeated " " (width - lineWidth line)) written)

/-- Write the text of an element, or a field for the cursor where there is nothing. A text
of several lines goes below the element. -/
def pushText (element : Element) (hasChildren : Bool) (writer : Writer) : Writer :=
  if element.value.isEmpty && hasChildren then
    writer
  else
    let value := if element.value.isEmpty then caret else element.value
    match linesOf value with
    | [] | [_] =>
      let begun := if element.isBare then writer else push config " " writer
      pushValue config value begun
    | lines =>
      let width := (lines.map lineWidth).max?.getD 0
      (lines.foldl (fun writer line => pushTextLine config delimiters width line writer)
        (writer.shift 1)).shift (-1)

/-! ### Elements -/

/-- Write the name of an element, its selectors and its other attributes. A `div` with
selectors needs no name. -/
def pushHeader (element : Element) (writer : Writer) : Writer :=
  let selectors := element.attributes.filter isSelector
  let others := element.attributes.filter fun written =>
    !isSelector written && (!written.isImplied || written.value.isSome)
  let named :=
    match element.name with
    | some name =>
      if name != "div" || selectors.isEmpty then push config (delimiters.beforeName ++ name) writer
      else writer
    | none => writer
  pushAttributes config delimiters others
    (selectors.foldl (fun writer written => pushSelector config written writer) named)

mutual

/-- Write a node. Inside of others it is indented; all but text and the very first node begin
a line. -/
def pushNode (isInside isFirst : Bool) : Node → Writer → Writer
  | .node element children, writer =>
    let step : Int := if isInside then 1 else 0
    let shifted := writer.shift step
    let placed :=
      if (isInside || !isFirst) && !element.isBare then
        shifted.onStream (Stream.pushLine config.options.output)
      else
        shifted
    let headed := pushHeader config delimiters element placed
    let written :=
      if element.isSelfClosing && element.value.isEmpty && children.isEmpty then
        push config delimiters.closingMark headed
      else
        pushNodes true true children
          (pushText config delimiters element (!children.isEmpty) headed)
    written.shift (-step)

/-- Write sibling nodes from first to last. -/
def pushNodes (isInside isFirst : Bool) : List Node → Writer → Writer
  | [], writer => writer
  | first :: rest, writer => pushNodes isInside false rest (pushNode isInside isFirst first writer)

end

/-- The writer after all nodes of an abbreviation. -/
def write (nodes : List Node) : Writer :=
  pushNodes config delimiters false true nodes (.empty 1)

/-- The text of the nodes of an abbreviation. -/
def render (nodes : List Node) : String := (write config delimiters nodes).stream.value

end

end Shorthand.Markup.Indented
