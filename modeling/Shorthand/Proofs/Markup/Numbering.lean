import Shorthand.Markup.Html
import Shorthand.Markup.Indented
import Shorthand.Proofs.Output.Numbering

/-!
# Fields of markup do not collide

The values that are written, in the order in which they are written, can be read off the nodes.
Both writers of markup number the fields of each of them as one group, and write no field outside
of a value. So the groups take their numbers one after the other.
-/

namespace Shorthand.Markup

open Writer (Appends Completes groupOf reach)

/-! ### The values of nodes -/

/-- The own number of a field. -/
def Part.index? : Part → Option Nat
  | .text _ => none
  | .field index _ => some index

/-- The own numbers of the fields of a value. -/
def Value.numbers (value : Value) : List Nat := value.filterMap Part.index?

/-- The groups of fields of some values. -/
def groupsOf (values : List Value) : List (List Nat) :=
  values.flatMap fun value => groupOf value.numbers

namespace Html

section

variable (config : Config)

/-- The value that an attribute is written with, if there is one. -/
def attributeValue (written : Attribute) : List Value :=
  match written.name with
  | none => []
  | some raw =>
    match written.value with
    | some value => [value]
    | none =>
      if !isBooleanAttribute config written then [caret]
      else if !config.options.output.compactBoolean then [[.text (attributeName config raw)]]
      else []

/-- The values around the children that stand in place of the first field, and those of the
children. -/
def aroundValues (value : Value) (inner : List Value) : List Value :=
  let before := value.takeWhile fun part => !part.isField
  before :: inner ++ [value.drop (before.length + 1)]

/-- The values inside the tags of an element. -/
def contentValues (element : Element) (hasChildren : Bool) (inner : List Value) : List Value :=
  (if element.value.isEmpty then [] else [element.value]) ++ inner ++
    if element.value.isEmpty && !hasChildren then [caret] else []

/-- The values of an element and of its children. -/
def elementValues (element : Element) (hasChildren : Bool) (inner : List Value) : List Value :=
  let fillsField := element.value.hasField && hasChildren
  match element.name with
  | none => if fillsField then aroundValues element.value inner else element.value :: inner
  | some _ =>
    (element.attributes.filter isWritten).flatMap (attributeValue config) ++
      if element.isSelfClosing && !hasChildren && element.value.isEmpty then []
      else if fillsField then aroundValues element.value inner
      else contentValues element hasChildren inner

mutual

/-- The values of a node in the order in which they are written. -/
def nodeValues : Node → List Value
  | .node element children =>
    elementValues config element (!children.isEmpty) (forestValues children)

/-- The values of several nodes. -/
def forestValues : List Node → List Value
  | [] => []
  | first :: rest => nodeValues first ++ forestValues rest

end

end

end Html

namespace Indented

section

variable (config : Config)

/-- The value that an attribute between the delimiters is written with, if there is one. -/
def attributeValue (written : Attribute) : List Value :=
  match written.value with
  | some value => [value]
  | none => if !isBooleanAttribute config written then [caret] else []

/-- The values of the text of an element: its lines, if there are several. -/
def textValues (element : Element) (hasChildren : Bool) : List Value :=
  if element.value.isEmpty && hasChildren then
    []
  else
    let value := if element.value.isEmpty then caret else element.value
    match linesOf value with
    | [] | [_] => [value]
    | lines => lines

/-- The values of the attributes of an element: selectors come first. -/
def headerValues (element : Element) : List Value :=
  let others := element.attributes.filter fun written =>
    !isSelector written && (!written.isImplied || written.value.isSome)
  (element.attributes.filter isSelector).flatMap (fun written => written.value.toList) ++
    others.flatMap (attributeValue config)

mutual

/-- The values of a node in the order in which they are written. -/
def nodeValues : Node → List Value
  | .node element children =>
    headerValues config element ++
      if element.isSelfClosing && element.value.isEmpty && children.isEmpty then []
      else textValues element (!children.isEmpty) ++ forestValues children

/-- The values of several nodes. -/
def forestValues : List Node → List Value
  | [] => []
  | first :: rest => nodeValues first ++ forestValues rest

end

end

end Indented

/-! ### Steps of writing -/

/-- A step outside of groups writes texts and the given values, each of them as a group. -/
def Numbers (config : Config) (values : List Value) (change : Writer → Writer) : Prop :=
  ∀ writer, writer.current = [] → ∃ pieces,
    Completes config.options.output.field pieces (groupsOf values) writer (change writer)

section

variable {config : Config} {values others : List Value} {change next : Writer → Writer}

/-- The groups of values in a row are those of each of them. -/
theorem groupsOf_append (first second : List Value) :
    groupsOf (first ++ second) = groupsOf first ++ groupsOf second :=
  List.flatMap_append

/-- The reaches of values are those of their groups. -/
theorem sum_reach_groupsOf (values : List Value) :
    ((groupsOf values).map reach).sum = (values.map fun value => reach value.numbers).sum := by
  induction values with
  | nil => rfl
  | cons value rest ih =>
    have single : ((groupOf value.numbers).map reach).sum = reach value.numbers := by
      rw [groupOf]
      split
      · next empty => rw [List.isEmpty_iff.mp empty]; rfl
      · simp
    rw [groupsOf, List.flatMap_cons, List.map_append, List.sum_append, single, ← groupsOf, ih,
      List.map_cons, List.sum_cons]

/-- What two changes write comes one behind the other. -/
theorem Numbers.comp (second : Numbers config others next) (first : Numbers config values change) :
    Numbers config (values ++ others) (next ∘ change) := by
  intro writer outside
  obtain ⟨pieces, written⟩ := first writer outside
  obtain ⟨more, continued⟩ := second (change writer) written.current
  rw [groupsOf_append]
  exact ⟨_, written.trans continued⟩

/-- Values with the same groups are numbered alike. -/
theorem Numbers.of_groups (numbers : Numbers config values change)
    (same : groupsOf values = groupsOf others) : Numbers config others change :=
  fun writer outside => same ▸ numbers writer outside

/-- A step behind which no value is written. -/
theorem Numbers.before_text (second : Numbers config [] next)
    (first : Numbers config values change) : Numbers config values (next ∘ change) :=
  (second.comp first).of_groups (by rw [List.append_nil])

/-- A change that does nothing writes no value. -/
theorem Numbers.nothing : Numbers config [] id := fun _ outside => ⟨[], .refl _ outside⟩

/-- A change of the depth writes no value. -/
theorem Numbers.shift (config : Config) (step : Int) : Numbers config [] (Writer.shift step) := by
  intro writer outside
  exact ⟨[], by simp [Writer.shift, Writer.onStream, Stream.shift], rfl, rfl, rfl, outside⟩

/-- Of two changes that are chosen between, the one that is made writes its values. -/
theorem Numbers.ite (condition : Prop) [Decidable condition]
    (yes : Numbers config values change) (no : Numbers config others next) :
    Numbers config (if condition then values else others)
      fun writer => if condition then change writer else next writer := by
  intro writer outside
  by_cases holds : condition
  · simpa only [if_pos holds] using yes writer outside
  · simpa only [if_neg holds] using no writer outside

/-- Where both branches write the same values, the condition does not matter. -/
theorem Numbers.either (condition : Prop) [Decidable condition]
    (yes : Numbers config values change) (no : Numbers config values next) :
    Numbers config values fun writer => if condition then change writer else next writer :=
  (Numbers.ite condition yes no).of_groups (by rw [ite_self])

/-- A step for every item writes the values of all items in their order. -/
theorem Numbers.foldl {α : Type} {step : Writer → α → Writer} {valuesOf : α → List Value}
    (items : List α)
    (each : ∀ item, Numbers config (valuesOf item) fun writer => step writer item) :
    Numbers config (items.flatMap valuesOf) fun writer => items.foldl step writer := by
  induction items with
  | nil => exact .nothing
  | cons item rest ih => exact ih.comp (each item)

/-- A step of the stream that adds a text writes no values. -/
theorem Numbers.of_stream {step : Stream → Stream}
    (added : ∀ stream, ∃ text, (step stream).value.toList = stream.value.toList ++ text) :
    Numbers config [] (Writer.onStream step) := by
  intro writer outside
  obtain ⟨text, same⟩ := added writer.stream
  exact ⟨_, .of_text same outside⟩

variable {pushText : String → Stream → Stream}
  (added : ∀ text stream, ∃ chars,
    (pushText text stream).value.toList = stream.value.toList ++ chars)
  (level : ∀ text stream, (pushText text stream).level = stream.level)
include added level

/-- The parts of a value are pieces, and its fields have its numbers. -/
theorem pushParts_appends (value : Value) (writer : Writer) :
    ∃ pieces, Appends config.options.output.field pieces writer
        (pushParts config pushText value writer) ∧
      (pieces.filterMap WrittenPiece.field?).map WrittenField.own = value.numbers := by
  induction value generalizing writer with
  | nil => exact ⟨[], .refl _ writer, rfl⟩
  | cons part rest ih =>
    cases part with
    | text text =>
      obtain ⟨chars, same⟩ := added text writer.stream
      obtain ⟨pieces, behind, own⟩ := ih (writer.onStream (pushText text))
      exact ⟨_, (Appends.text_added same (level text writer.stream)).trans behind, own⟩
    | field index name =>
      obtain ⟨pieces, behind, own⟩ := ih (writer.pushField config.options.output index name)
      exact ⟨_, (Writer.pushField_appends _ index name writer).trans behind,
        congrArg (index :: ·) own⟩

/-- A value is written as one group. -/
theorem pushValue_numbers (value : Value) :
    Numbers config [value] (pushValue config pushText value) := by
  intro writer outside
  obtain ⟨pieces, appended, own⟩ := pushParts_appends added level value writer
  rw [groupsOf, List.flatMap_singleton, ← own]
  exact ⟨pieces, appended.closeGroup outside⟩

end

/-! ### Writing with tags -/

namespace Html

section

variable (config : Config)

/-- Text outside of values is no group. -/
theorem push_numbers (text : String) : Numbers config [] (push config text) :=
  .of_stream fun stream => ⟨_, Stream.toList_push _ text stream⟩

/-- Line breaks are no group. -/
theorem pushLine_numbers : Numbers config [] (pushLine config) :=
  .of_stream fun stream => ⟨_, Stream.toList_pushLine _ stream⟩

/-- A text is added behind what has been written. -/
theorem toList_pushText_added (text : String) (stream : Stream) :
    ∃ chars, (Stream.pushText config.options.output text stream).value.toList =
      stream.value.toList ++ chars := by
  obtain ⟨first, rest, -, same⟩ := Stream.toList_pushText config.options.output text stream
  exact ⟨_, same⟩

/-- A text that is written through the hooks is no group. -/
theorem pushText_numbers (text : String) :
    Numbers config [] (Writer.onStream (Stream.pushText config.options.output text)) :=
  .of_stream (toList_pushText_added config text)

/-- A value is one group. -/
theorem pushValue_numbers (value : Value) : Numbers config [value] (pushValue config value) :=
  Markup.pushValue_numbers (toList_pushText_added config)
    (Stream.level_pushText config.options.output) value

/-- A value on lines of its own is one group too. -/
theorem pushBlock_numbers (isBlock : Bool) (value : Value) :
    Numbers config [value] (pushBlock config isBlock value) := by
  have plain := pushValue_numbers config value
  have begun := (pushLine_numbers config).before_text (Numbers.shift config 1)
  have ended := (pushLine_numbers config).before_text (Numbers.shift config (-1))
  exact .either _ (ended.before_text (plain.comp begun)) plain

/-- The value of an assignment is one group. -/
theorem pushAssignment_numbers (name : String) (quotes : String × String) (value : Value) :
    Numbers config [value] (pushAssignment config name quotes value) := by
  have begun := (push_numbers config ("=" ++ quotes.1)).before_text
    (push_numbers config (" " ++ name))
  exact (push_numbers config quotes.2).before_text ((pushValue_numbers config value).comp begun)

/-- An attribute writes at most one group. -/
theorem pushAttribute_numbers (written : Attribute) :
    Numbers config (attributeValue config written) (pushAttribute config written) := by
  obtain ⟨name, value, isBoolean, isImplied, kind, isMultiple⟩ := written
  cases name with
  | none => exact .nothing
  | some raw =>
    cases value with
    | some value => exact pushAssignment_numbers config _ _ value
    | none =>
      have named := push_numbers config (" " ++ attributeName config raw)
      have compact (quotes : String × String) :=
        Numbers.either (config.options.output.closingStyle = .html) named
          ((push_numbers config ("=" ++ quotes.1 ++ attributeName config raw ++ quotes.2)).comp
            named)
      exact .ite _ (pushAssignment_numbers config _ _ caret)
        (.ite _ (pushAssignment_numbers config _ _ _) (compact _))

/-- Attributes write a group for each of them that is written. -/
theorem pushAttributes_numbers (attributes : List Attribute) :
    Numbers config ((attributes.filter isWritten).flatMap (attributeValue config))
      (pushAttributes config attributes) :=
  .foldl _ fun written => pushAttribute_numbers config written

/-- Comments are no group. -/
theorem pushComment_numbers (template : String) (element : Element) :
    Numbers config [] (pushComment config template element) :=
  .either _ (pushText_numbers config _) .nothing

/-- The end of an element is no group. -/
theorem pushEnd_numbers (parent : Element) : Numbers config [] (pushEnd config parent) := by
  intro writer outside
  have broken : Numbers config [] (Writer.onStream (Stream.breakLine config.options.output)) :=
    .of_stream fun stream => ⟨_, Stream.toList_breakLine _ stream⟩
  have indented (level : Int) :
      Numbers config [] (Writer.onStream (Stream.pushIndent config.options.output level)) :=
    .of_stream fun stream => ⟨_, Stream.toList_pushIndent _ level stream⟩
  exact ((indented _).comp broken) writer outside

variable {config} {inner : Writer → Writer} {innerValues : List Value}
  (numbers : Numbers config innerValues inner)
include numbers

/-- The text around the children is two groups, with those of the children between them. -/
theorem pushAround_numbers (value : Value) :
    Numbers config (aroundValues value innerValues) (pushAround config value inner) := by
  have filled := numbers.comp
    (pushValue_numbers config (value.takeWhile fun part => !part.isField))
  have whole (after : Value) := (pushValue_numbers config after).comp filled
  intro writer outside
  rw [pushAround, aroundValues]
  split
  case isTrue =>
    split
    case h_1 text rest after =>
      -- The text that is trimmed has no fields, so the group is that of the whole value.
      have trimmed := (pushValue_numbers config rest).comp
        ((pushText_numbers config (Text.trimStart text)).before_text filled)
      rw [after]
      have same : Value.numbers (.text text :: rest) = Value.numbers rest := rfl
      exact (trimmed.of_groups (by simp [groupsOf, same])) writer outside
    case h_2 => exact whole _ writer outside
  case isFalse => exact whole _ writer outside

/-- The content of an element is its text and what is inside of it. -/
theorem pushContent_numbers (name : String) (element : Element) (hasChildren : Bool) :
    Numbers config (contentValues element hasChildren innerValues)
      (pushContent config name element hasChildren inner) :=
  (Numbers.ite _ (pushBlock_numbers config _ caret) .nothing).comp <| numbers.comp <|
    .ite _ .nothing (pushBlock_numbers config _ element.value)

/-- An element writes its attributes and then its content. -/
theorem pushElement_numbers (element : Element) (hasChildren : Bool) :
    Numbers config (elementValues config element hasChildren innerValues)
      (pushElement config element hasChildren inner) := by
  have around := pushAround_numbers numbers element.value
  obtain ⟨name, value, attributes, iteration, isSelfClosing⟩ := element
  cases name with
  | none => exact .ite _ around (numbers.comp (pushValue_numbers config value))
  | some raw =>
    have begun := (push_numbers config ("<" ++ tagName config raw)).before_text
      (pushComment_numbers config config.options.comment.before
        ⟨some raw, value, attributes, iteration, isSelfClosing⟩)
    have opened := (pushAttributes_numbers config attributes).comp begun
    have content := pushContent_numbers numbers raw
      ⟨some raw, value, attributes, iteration, isSelfClosing⟩ hasChildren
    have filled := (Numbers.ite (value.hasField && hasChildren) around content).comp
      ((push_numbers config ">").before_text opened)
    have closed := (pushComment_numbers config config.options.comment.after
      ⟨some raw, value, attributes, iteration, isSelfClosing⟩).before_text
        ((push_numbers config ("</" ++ tagName config raw ++ ">")).before_text filled)
    refine (Numbers.ite (isSelfClosing && !hasChildren && value.isEmpty)
      ((push_numbers config _).before_text opened) closed).of_groups ?_
    rw [elementValues]
    split <;> simp

/-- The line breaks around an element add no group. -/
theorem pushPlaced_numbers (parent : Option Element) (isBroken isLast : Bool) (element : Element)
    (hasChildren : Bool) :
    Numbers config (elementValues config element hasChildren innerValues)
      (pushPlaced config parent isBroken isLast element hasChildren inner) := by
  have placed := (Numbers.either (isBroken = true) (pushLine_numbers config) .nothing).before_text
    (Numbers.shift config (indentInside config parent))
  have written := (pushElement_numbers numbers element hasChildren).comp placed
  refine (Numbers.shift config (-indentInside config parent)).before_text ?_
  cases parent with
  | none => exact written
  | some parent => exact .either _ ((pushEnd_numbers config parent).before_text written) written

end

mutual

/-- A node writes its own values and those of its children. -/
theorem pushNode_numbers (config : Config) (parent : Option Element) (before : List Element)
    (after : List Node) (node : Node) :
    Numbers config (nodeValues config node) (pushNode config parent before after node) := by
  cases node with
  | node element children =>
    intro writer outside
    rw [pushNode, nodeValues]
    exact pushPlaced_numbers (pushNodes_numbers config (some element) [] children) parent _ _
      element _ writer outside

/-- Nodes write their values in document order. -/
theorem pushNodes_numbers (config : Config) (parent : Option Element) (before : List Element)
    (nodes : List Node) :
    Numbers config (forestValues config nodes) (pushNodes config parent before nodes) := by
  cases nodes with
  | nil =>
    intro writer outside
    rw [pushNodes, forestValues]
    exact Numbers.nothing writer outside
  | cons first rest =>
    intro writer outside
    rw [pushNodes, forestValues]
    exact (pushNodes_numbers config parent (first.element :: before) rest).comp
      (pushNode_numbers config parent before rest first) writer outside

end

end Html

/-! ### Writing by indentation -/

namespace Indented

section

variable (config : Config)

/-- Text outside of values is no group. -/
theorem push_numbers (text : String) : Numbers config [] (push config text) :=
  .of_stream fun stream => ⟨_, Stream.toList_push _ text stream⟩

/-- Line breaks are no group. -/
theorem pushLine_numbers :
    Numbers config [] (Writer.onStream (Stream.pushLine config.options.output)) :=
  .of_stream fun stream => ⟨_, Stream.toList_pushLine _ stream⟩

/-- A value is one group. -/
theorem pushValue_numbers (value : Value) : Numbers config [value] (pushValue config value) :=
  Markup.pushValue_numbers (fun text stream => ⟨_, Stream.toList_push _ text stream⟩)
    (Stream.level_push config.options.output) value

/-- Points between class names leave the fields alone. -/
theorem numbers_dotted (value : Value) : Value.numbers (value.map dotted) = value.numbers := by
  rw [Value.numbers, List.filterMap_map]
  refine List.filterMap_congr fun part _ => ?_
  cases part <;> rfl

/-- A selector writes the value of its class or id as a group. -/
theorem pushSelector_numbers (written : Attribute) :
    Numbers config written.value.toList (pushSelector config written) := by
  obtain ⟨name, value, isBoolean, isImplied, kind, isMultiple⟩ := written
  cases value with
  | none => exact .nothing
  | some value =>
    have classes := (pushValue_numbers config (value.map dotted)).comp (push_numbers config ".")
    have dottedAlike : groupsOf ([] ++ [value.map dotted]) = groupsOf [value] := by
      simp only [groupsOf, List.nil_append, List.flatMap_singleton, numbers_dotted]
    exact .either _ (classes.of_groups dottedAlike)
      ((pushValue_numbers config value).comp (push_numbers config "#"))

variable (delimiters : Delimiters)

/-- An attribute writes at most one group. -/
theorem pushAttribute_numbers (written : Attribute) :
    Numbers config (attributeValue config written) (pushAttribute config delimiters written) := by
  have named := push_numbers config (attributeName config (written.name.getD ""))
  have assigned (value : Value) := (push_numbers config (quotesOf config written).2).before_text
    ((pushValue_numbers config value).comp
      ((push_numbers config ("=" ++ (quotesOf config written).1)).before_text named))
  obtain ⟨name, value, isBoolean, isImplied, kind, isMultiple⟩ := written
  cases value with
  | some value => exact assigned value
  | none => exact .ite _ (assigned caret) (.either _ ((push_numbers config _).comp named) named)

/-- Attributes with separators between them write their groups in their order. -/
theorem pushSeparated_numbers (attributes : List Attribute) :
    Numbers config (attributes.flatMap (attributeValue config))
      (pushSeparated config delimiters attributes) := by
  match attributes with
  | [] => exact .nothing
  | [last] =>
    rw [List.flatMap_singleton]
    exact pushAttribute_numbers config delimiters last
  | first :: second :: rest =>
    exact (pushSeparated_numbers (second :: rest)).comp
      ((push_numbers config _).before_text (pushAttribute_numbers config delimiters first))

/-- The delimiters around attributes add no group. -/
theorem pushAttributes_numbers (attributes : List Attribute) :
    Numbers config (attributes.flatMap (attributeValue config))
      (pushAttributes config delimiters attributes) := by
  have written := (push_numbers config delimiters.afterAttributes).before_text
    ((pushSeparated_numbers config delimiters attributes).comp
      (push_numbers config delimiters.beforeAttributes))
  refine (Numbers.ite _ .nothing written).of_groups ?_
  split
  · next empty => rw [List.isEmpty_iff.mp empty]; rfl
  · rfl

/-- A line of a text is one group. -/
theorem pushTextLine_numbers (width : Nat) (line : Value) :
    Numbers config [line] (pushTextLine config delimiters width line) := by
  have begun := (push_numbers config delimiters.beforeTextLine).comp (pushLine_numbers config)
  have written := (pushValue_numbers config line).comp begun
  exact .either _ written
    ((push_numbers config _).before_text ((push_numbers config _).before_text written))

/-- A text of several lines is a group for each line. -/
theorem pushText_numbers (element : Element) (hasChildren : Bool) :
    Numbers config (textValues element hasChildren)
      (pushText config delimiters element hasChildren) := by
  have single (value : Value) := (pushValue_numbers config value).comp
    (Numbers.either element.isBare .nothing (push_numbers config " "))
  have several (lines : List Value) (width : Nat) := (Numbers.shift config (-1)).before_text
    ((Numbers.foldl lines fun line => pushTextLine_numbers config delimiters width line).comp
      (Numbers.shift config 1))
  refine .ite _ .nothing ?_
  dsimp only
  generalize (if element.value.isEmpty then caret else element.value) = value
  rcases linesOf value with _ | ⟨first, _ | ⟨second, rest⟩⟩
  · exact single value
  · exact single value
  · refine (several (first :: second :: rest) _).of_groups ?_
    rw [List.nil_append, List.flatMap_singleton']

/-- A header writes its selectors and then its other attributes. -/
theorem pushHeader_numbers (element : Element) :
    Numbers config (headerValues config element) (pushHeader config delimiters element) := by
  obtain ⟨name, value, attributes, iteration, isSelfClosing⟩ := element
  have selected := Numbers.foldl (attributes.filter isSelector)
    fun written => pushSelector_numbers config written
  have written {named : Writer → Writer} (isNamed : Numbers config [] named) :=
    (pushAttributes_numbers config delimiters (attributes.filter fun written =>
      !isSelector written && (!written.isImplied || written.value.isSome))).comp
        (selected.comp isNamed)
  cases name with
  | none => exact written .nothing
  | some name => exact written (.either _ (push_numbers config _) .nothing)

end

mutual

/-- A node writes its own values and those of its children. -/
theorem pushNode_numbers (config : Config) (delimiters : Delimiters) (isInside isFirst : Bool)
    (node : Node) :
    Numbers config (nodeValues config node)
      (pushNode config delimiters isInside isFirst node) := by
  cases node with
  | node element children =>
    intro writer outside
    rw [pushNode, nodeValues]
    have placed := (Numbers.either ((isInside || !isFirst) && !element.isBare)
      (pushLine_numbers config) .nothing).before_text
        (Numbers.shift config (if isInside then 1 else 0))
    have headed := (pushHeader_numbers config delimiters element).comp placed
    have inner := (pushNodes_numbers config delimiters true true children).comp
      ((pushText_numbers config delimiters element (!children.isEmpty)).comp headed)
    have closed := (push_numbers config delimiters.closingMark).before_text headed
    refine (Numbers.shift config _).before_text
      ((Numbers.ite _ closed inner).of_groups ?_) writer outside
    split <;> simp

/-- Nodes write their values in document order. -/
theorem pushNodes_numbers (config : Config) (delimiters : Delimiters) (isInside isFirst : Bool)
    (nodes : List Node) :
    Numbers config (forestValues config nodes)
      (pushNodes config delimiters isInside isFirst nodes) := by
  cases nodes with
  | nil =>
    intro writer outside
    rw [pushNodes, forestValues]
    exact Numbers.nothing writer outside
  | cons first rest =>
    intro writer outside
    rw [pushNodes, forestValues]
    exact (pushNodes_numbers config delimiters isInside false rest).comp
      (pushNode_numbers config delimiters isInside isFirst first) writer outside

end

end Indented

/-! ### Whole abbreviations -/

/-- The writers of nodes and the values that they write. -/
inductive WrittenBy (config : Config) (nodes : List Node) : List Value → Writer → Prop where
  | tags : WrittenBy config nodes (Html.forestValues config nodes) (Html.write config nodes)
  | indentation (delimiters : Indented.Delimiters) :
      WrittenBy config nodes (Indented.forestValues config nodes)
        (Indented.write config delimiters nodes)

/-- Both writers number the values one after the other, from one on. -/
theorem WrittenBy.numbered {config : Config} {nodes : List Node} {values : List Value}
    {writer : Writer} (written : WrittenBy config nodes values writer) :
    ∃ pieces, Completes config.options.output.field pieces (groupsOf values) (.empty 1) writer := by
  cases written with
  | tags => exact Html.pushNodes_numbers config none [] nodes (.empty 1) rfl
  | indentation delimiters =>
    exact Indented.pushNodes_numbers config delimiters false true nodes (.empty 1) rfl

/-- What is written for some nodes is texts and fields. The fields are those of the values, in
groups with the own numbers of each value, and if the numbers are machine words the groups do not
collide. -/
theorem fields_apart {config : Config} {nodes : List Node} {values : List Value} {writer : Writer}
    (written : WrittenBy config nodes values writer)
    (fits : (values.map fun value => reach value.numbers).sum < Digits.wordLimit - 1) :
    (∃ pieces : List WrittenPiece,
      writer.stream.value.toList = pieces.flatMap (WrittenPiece.shown config.options.output.field) ∧
        pieces.filterMap WrittenPiece.field? = writer.groups.reverse.flatten) ∧
      writer.groups.reverse.map (·.map WrittenField.own) = groupsOf values ∧
      Writer.Apart writer.groups.reverse := by
  obtain ⟨pieces, completed⟩ := written.numbered
  have groups : writer.groups.reverse = Writer.numberedAll 1 (groupsOf values) := by
    rw [completed.groups, List.reverse_append, List.reverse_reverse]
    rfl
  have bound : 1 + ((groupsOf values).map reach).sum < Digits.wordLimit := by
    rw [sum_reach_groupsOf]
    omega
  rw [groups, Writer.own_numberedAll]
  refine ⟨⟨pieces, ?_, completed.fields⟩, rfl, Writer.numberedAll_apart (Nat.le_refl 1) bound⟩
  simpa [Writer.empty, Stream.empty] using completed.text

/-- A link whose address has a field, with a child in place of the first field of its text. -/
theorem fields_apart_around_child :
    let config := Config.ofSettings .blank
    let address := Attribute.named "href" (some [.text "http://", .field 0 ""])
    let link : Element :=
      { Element.named "a" with
        value := [.text "see ", .field 3 "", .text ": ", .field 2 "why", .field 0 "", .field 2 ""]
        attributes := [address] }
    let nodes := [Node.node link [.node (.named "b") []]]
    let values := Html.forestValues config nodes
    let writer := Html.write config nodes
    WrittenBy config nodes values writer ∧
      (values.map fun value => reach value.numbers).sum < Digits.wordLimit - 1 ∧
      writer.groups.reverse.map (·.map WrittenField.written) = [[1], [2], [5, 3, 5]] ∧
      Writer.Apart writer.groups.reverse :=
  ⟨.tags, by decide +kernel, by decide +kernel, (fields_apart .tags (by decide +kernel)).2.2⟩

end Shorthand.Markup
