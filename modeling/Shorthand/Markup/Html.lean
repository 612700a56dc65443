import Shorthand.Markup.Comment
import Shorthand.Markup.Layout

/-!
# Writing markup with tags

Elements are written as tags with indentation. Whether an element gets a line of its own
depends on its siblings, its parent and what is inside of it.
-/

namespace Shorthand.Markup.Html

section

variable (config : Config)

/-! ### Where lines are broken -/

/-- The named inline elements at the front of a list. -/
def inlineRun (elements : List Element) : Nat :=
  (elements.takeWhile fun element => element.name.any (isInlineName config)).length

/-- Whether an element is one of at least `limit` named inline elements in a row. No more than
`limit` siblings on each side decide it. -/
def inLongRun (limit : Nat) (before : List Element) (after : List Node) : Bool :=
  let nextOnes := (after.take limit).map Node.element
  limit ≤ 1 + inlineRun config (before.take limit) + inlineRun config nextOnes

/-- Whether an element with the given siblings gets a line of its own for its own sake.
`before` is nearest first. -/
def breaksAmong (before : List Element) (after : List Node) (hasChildren : Bool)
    (element : Element) : Bool :=
  let isText := element.isBare &&
    (before.head?.any Element.isBare || after.head?.any (·.element.isBare) ||
      element.value.any Part.hasBreak || (element.value.hasField && hasChildren))
  let besideBlock :=
    match before with
    | [] => after.any fun sibling => !isInline config sibling.element
    | previous :: _ => !isInline config previous
  let limit := config.options.output.inlineBreak
  isText || !isInline config element || besideBlock ||
    (0 < limit && inLongRun config limit before after)

/-- Whether elements at this place may get lines of their own. -/
def mayBreak (parent : Option Element) (before : List Element) (after : List Node) : Bool :=
  config.options.output.format && !(before.isEmpty && parent.isNone) &&
    !(parent.any Element.isBare && before.isEmpty && after.isEmpty)

mutual

/-- Whether a node gets a line of its own. -/
def breaks (parent : Option Element) (before : List Element) (after : List Node) :
    Node → Bool
  | .node element children =>
    mayBreak config parent before after &&
      (breaksAmong config before after (!children.isEmpty) element ||
        anyBreaks (some element) [] children)

/-- Whether some of several sibling nodes gets a line of its own. -/
def anyBreaks (parent : Option Element) (before : List Element) : List Node → Bool
  | [] => false
  | first :: rest =>
    breaks parent before rest first ||
      anyBreaks parent (first.element :: before) rest

end

/-- How much further a node is indented than its parent. -/
def indentInside (parent : Option Element) : Int :=
  match parent with
  | none => 0
  | some parent =>
    if parent.isBare || parent.name.any config.options.output.formatSkip.contains then 0 else 1

/-! ### Pieces of a tag -/

/-- Write a piece of a tag. -/
def push (text : String) (writer : Writer) : Writer :=
  writer.onStream (Stream.push config.options.output text)

/-- Begin a line with indentation. -/
def pushLine (writer : Writer) : Writer :=
  writer.onStream (Stream.pushLine config.options.output)

/-- Write a value, whose texts may have several lines. -/
def pushValue (value : Value) (writer : Writer) : Writer :=
  Markup.pushValue config (Stream.pushText config.options.output) value writer

/-- What stands in front of the end of a tag that closes itself. -/
def closingMark : String :=
  match config.options.output.closingStyle with
  | .html => ""
  | .xhtml => " /"
  | .xml => "/"

/-- Whether an attribute is written; an implied one needs a value. -/
def isWritten (written : Attribute) : Bool :=
  !written.isImplied || written.value.any fun value => !value.isEmpty

/-- Write an attribute with a value. -/
def pushAssignment (name : String) (quotes : String × String) (value : Value)
    (writer : Writer) : Writer :=
  push config quotes.2 <|
    pushValue config value <|
    push config ("=" ++ quotes.1) <|
    push config (" " ++ name) writer

/-- Write an attribute. A boolean one without value repeats its name or, if it is compact,
stands alone as far as the dialect allows; any other one leaves a field. -/
def pushAttribute (written : Attribute) (writer : Writer) : Writer :=
  match written.name with
  | none => writer
  | some raw =>
    let name := attributeName config raw
    let quotes := quotesOf config written
    match written.value with
    | some value => pushAssignment config name quotes value writer
    | none =>
      if !isBooleanAttribute config written then
        pushAssignment config name quotes caret writer
      else if !config.options.output.compactBoolean then
        pushAssignment config name quotes [.text name] writer
      else
        let named := push config (" " ++ name) writer
        if config.options.output.closingStyle = .html then named
        else push config ("=" ++ quotes.1 ++ name ++ quotes.2) named

/-- Write attributes from first to last. -/
def pushAttributes (attributes : List Attribute) (writer : Writer) : Writer :=
  (attributes.filter isWritten).foldl (fun writer written => pushAttribute config written writer)
    writer

/-- Write the comment of an element, if it has one of the attributes that ask for it. -/
def pushComment (template : String) (element : Element) (writer : Writer) : Writer :=
  let options := config.options.comment
  let isAsked := options.trigger.any fun name => (element.attribute? name).isSome
  if options.enabled && !template.isEmpty && isAsked then
    writer.onStream (Stream.pushText config.options.output (Comment.render template element))
  else
    writer

/-! ### What is inside a tag -/

/-- Whether a text begins with a tag that is no inline element. -/
def beginsWithBlock (value : Value) : Bool :=
  match value with
  | .text text :: _ =>
    match text.toList with
    | '<' :: rest =>
      let isName (c : Char) := CharClass.word c || c == '-' || c == ':'
      let name := rest.takeWhile isName
      !name.isEmpty &&
        (rest.dropWhile isName).head?.any (fun c => CharClass.blank c || c == '>') &&
        !isInlineName config (String.ofList name)
    | _ => false
  | _ => false

/-- Write a value, on lines of its own if it is a block. -/
def pushBlock (isBlock : Bool) (value : Value) (writer : Writer) : Writer :=
  if isBlock then
    pushLine config ((pushValue config value (pushLine config (writer.shift 1))).shift (-1))
  else
    pushValue config value writer

/-- Write the children in place of the first field of a text. If they broke lines, blanks
behind them are dropped. -/
def pushAround (value : Value) (inner : Writer → Writer) (writer : Writer) : Writer :=
  let before := value.takeWhile fun part => !part.isField
  let after := value.drop (before.length + 1)
  let opened := pushValue config before writer
  let filled := inner opened
  if filled.stream.line ≠ opened.stream.line then
    match after with
    | .text text :: rest =>
      pushValue config rest
        (filled.onStream (Stream.pushText config.options.output (Text.trimStart text)))
    | after => pushValue config after filled
  else
    pushValue config after filled

/-- Write what is inside the tags of an element: text, then children, or a field for the
cursor where there is neither. -/
def pushContent (name : String) (element : Element) (hasChildren : Bool)
    (inner : Writer → Writer) (writer : Writer) : Writer :=
  let isBlock := element.value.any Part.hasBreak || beginsWithBlock config element.value
  let filled :=
    inner (if element.value.isEmpty then writer
      else pushBlock config isBlock element.value writer)
  if element.value.isEmpty && !hasChildren then
    let options := config.options.output
    pushBlock config (options.formatLeafNode || options.formatForce.contains name) caret filled
  else
    filled

/-- Write an element at the current place, without line breaks around it. -/
def pushElement (element : Element) (hasChildren : Bool) (inner : Writer → Writer)
    (writer : Writer) : Writer :=
  let fillsField := element.value.hasField && hasChildren
  match element.name with
  | none =>
    if fillsField then pushAround config element.value inner writer
    else inner (pushValue config element.value writer)
  | some raw =>
    let name := tagName config raw
    let opened :=
      pushAttributes config element.attributes <|
        push config ("<" ++ name) <|
        pushComment config config.options.comment.before element writer
    if element.isSelfClosing && !hasChildren && element.value.isEmpty then
      push config (closingMark config ++ ">") opened
    else
      let tagged := push config ">" opened
      let filled :=
        if fillsField then pushAround config element.value inner tagged
        else pushContent config raw element hasChildren inner tagged
      pushComment config config.options.comment.after element
        (push config ("</" ++ name ++ ">") filled)

/-- Break the line behind the last of the nodes inside a parent. -/
def pushEnd (parent : Element) (writer : Writer) : Writer :=
  let level := writer.stream.level - if parent.isBare then 0 else 1
  writer.onStream fun stream =>
    Stream.pushIndent config.options.output level (Stream.breakLine config.options.output stream)

/-- Write an element with the line breaks around it. -/
def pushPlaced (parent : Option Element) (isBroken isLast : Bool) (element : Element)
    (hasChildren : Bool) (inner : Writer → Writer) (writer : Writer) : Writer :=
  let indent := indentInside config parent
  let shifted := writer.shift indent
  let placed := if isBroken then pushLine config shifted else shifted
  let written := pushElement config element hasChildren inner placed
  let ended :=
    match parent with
    | some parent => if isBroken && isLast then pushEnd config parent written else written
    | none => written
  ended.shift (-indent)

mutual

/-- Write a node inside a parent, between its siblings. -/
def pushNode (parent : Option Element) (before : List Element) (after : List Node) :
    Node → Writer → Writer
  | .node element children, writer =>
    pushPlaced config parent (breaks config parent before after (.node element children))
      after.isEmpty element (!children.isEmpty) (pushNodes (some element) [] children) writer

/-- Write sibling nodes from first to last; `before` holds those that are written, nearest
first. -/
def pushNodes (parent : Option Element) (before : List Element) : List Node → Writer → Writer
  | [], writer => writer
  | first :: rest, writer =>
    pushNodes parent (first.element :: before) rest
      (pushNode parent before rest first writer)

end

/-- The writer after all nodes of an abbreviation. -/
def write (nodes : List Node) : Writer := pushNodes config none [] nodes (.empty 1)

/-- The text of the nodes of an abbreviation. -/
def render (nodes : List Node) : String := (write config nodes).stream.value

end

end Shorthand.Markup.Html
