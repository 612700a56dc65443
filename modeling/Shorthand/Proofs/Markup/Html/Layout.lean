import Mathlib.Tactic.SplitIfs
import Shorthand.Markup.Html
import Shorthand.Proofs.Output.Stream

/-!
# Layout moves white space only

A layout decides where lines are broken and with what they begin. Two writers are compared by
their imprints: the characters that are not white space, and the numbering of fields. Every
step of writing changes the imprint in a way that no layout has a say in, although the
line breaks, the indentation and the line counter differ.
-/

namespace Shorthand

/-- The characters that are not white space. -/
def ink (text : List Char) : List Char := text.filter fun c => !CharClass.blank c

/-- The options that decide where lines are broken and with what they begin. -/
structure Layout where
  format : Bool
  formatLeafNode : Bool
  formatSkip : List String
  formatForce : List String
  inlineBreak : Nat
  inlineElements : List String
  indent : String
  baseIndent : String
  newline : String
  blankIndent : Text.isBlank indent
  blankBaseIndent : Text.isBlank baseIndent
  blankNewline : Text.isBlank newline

/-- The same configuration with another layout. -/
def Config.withLayout (config : Config) (layout : Layout) : Config :=
  { config with
    options :=
      { config.options with
        inlineElements := layout.inlineElements
        output :=
          { config.options.output with
            format := layout.format
            formatLeafNode := layout.formatLeafNode
            formatSkip := layout.formatSkip
            formatForce := layout.formatForce
            inlineBreak := layout.inlineBreak
            indent := layout.indent
            baseIndent := layout.baseIndent
            newline := layout.newline } } }

/-- Texts are written as they are, and lines begin with white space alone. -/
structure OutputOptions.IsPlain (options : OutputOptions) : Prop where
  text : options.text = id
  indent : Text.isBlank options.indent
  baseIndent : Text.isBlank options.baseIndent
  newline : Text.isBlank options.newline

/-- A layout begins lines with white space alone. -/
theorem Config.isPlain_withLayout (config : Config) (layout : Layout)
    (unchanged : config.options.output.text = id) :
    (config.withLayout layout).options.output.IsPlain :=
  ⟨unchanged, layout.blankIndent, layout.blankBaseIndent, layout.blankNewline⟩

/-- What a writer has written but for white space, and how it numbers fields. -/
structure Imprint where
  ink : List Char
  base : Nat
  current : List WrittenField
  groups : List (List WrittenField)

/-- The imprint of a writer. -/
def Writer.imprint (writer : Writer) : Imprint :=
  ⟨ink writer.stream.value.toList, writer.base, writer.current, writer.groups⟩

namespace Imprint

/-- Add the ink of a text. -/
def add (text : List Char) (imprint : Imprint) : Imprint :=
  { imprint with ink := imprint.ink ++ Shorthand.ink text }

/-- Add a field to the current group. -/
def addField (field : Nat → String → String) (index : Nat) (name : String)
    (imprint : Imprint) : Imprint :=
  let number := (imprint.base + index) % Digits.wordLimit
  { imprint.add (field number name).toList with current := imprint.current ++ [⟨index, number⟩] }

/-- Complete the current group. -/
def closeGroup (imprint : Imprint) : Imprint :=
  match (imprint.current.map WrittenField.own).max? with
  | none => imprint
  | some largest =>
    { imprint with
      base := (imprint.base + (largest + 1)) % Digits.wordLimit
      current := []
      groups := imprint.current :: imprint.groups }

/-- Add the parts of a value. -/
def addParts (field : Nat → String → String) : Markup.Value → Imprint → Imprint
  | [], imprint => imprint
  | .text text :: rest, imprint => addParts field rest (imprint.add text.toList)
  | .field index name :: rest, imprint => addParts field rest (imprint.addField field index name)

/-- Add a value. -/
def addValue (field : Nat → String → String) (value : Markup.Value) (imprint : Imprint) :
    Imprint :=
  (imprint.addParts field value).closeGroup

end Imprint

/-! ### Ink of texts -/

/-- Ink is what is left of each piece. -/
@[simp] theorem ink_append (left right : List Char) : ink (left ++ right) = ink left ++ ink right :=
  List.filter_append left right

/-- White space has no ink. -/
theorem ink_blank {text : String} (blank : Text.isBlank text) : ink text.toList = [] := by
  rw [ink, List.filter_eq_nil_iff]
  intro c member
  simpa using List.all_eq_true.mp blank c member

/-- White space that is repeated is white space. -/
theorem isBlank_repeated {text : String} (blank : Text.isBlank text) (count : Nat) :
    Text.isBlank (Text.repeated text count) := by
  simp only [Text.isBlank, Text.repeated, String.toList_ofList, List.all_eq_true,
    List.mem_flatten, List.mem_replicate] at blank ⊢
  rintro c ⟨_, ⟨_, rfl⟩, member⟩
  exact blank c member

/-- Dropping white space at the front keeps the ink. -/
theorem ink_trimStart (text : String) : ink (Text.trimStart text).toList = ink text.toList := by
  rw [Text.trimStart, String.toList_ofList]
  induction text.toList with
  | nil => rfl
  | cons c rest ih =>
    rw [List.dropWhile_cons]
    split
    case isTrue blank => rw [ih]; simp [ink, blank]
    case isFalse => rfl

/-- Line ends have no ink. -/
theorem flatMap_ink_linesOf (text : List Char) : (Text.linesOf text).flatMap ink = ink text := by
  have blankEnd : ∀ c, Text.isLineEnd c → CharClass.blank c := by
    intro c isEnd
    simp only [Text.isLineEnd, Bool.or_eq_true, beq_iff_eq] at isEnd
    rcases isEnd with rfl | rfl <;> decide
  calc
    _ = ink (Text.linesOf text).flatten := (List.filter_flatten ..).symm
    _ = ink text := by
      rw [Text.flatten_linesOf, ink, ink, List.filter_filter]
      refine List.filter_congr fun c _ => ?_
      cases isEnd : Text.isLineEnd c with
      | true => simp [blankEnd c isEnd]
      | false => simp

section

variable {options : OutputOptions} (plain : options.IsPlain)
include plain

/-- Lines begin with white space alone. -/
theorem ink_lineStart (level : Int) : ink (Stream.lineStart options level) = [] := by
  rw [Stream.lineStart, ink_append, ink_append, ink_blank plain.newline,
    ink_blank plain.baseIndent, ink_blank (isBlank_repeated plain.indent _)]
  rfl

/-- What lines begin with has no ink. -/
theorem ink_linesText (level : Int) (lines : List String) :
    ink (Stream.linesText options level lines) = lines.flatMap fun line => ink line.toList := by
  induction lines with
  | nil => rfl
  | cons line rest ih =>
    simp only [Stream.linesText, List.flatMap_cons, ink_append, ink_lineStart plain, plain.text,
      id, List.nil_append] at ih ⊢
    rw [ih]

end

/-! ### Imprints of the steps of writing -/

namespace Imprint

/-- White space leaves no imprint. -/
theorem add_inkless {text : List Char} (inkless : Shorthand.ink text = []) (imprint : Imprint) :
    imprint.add text = imprint := by
  simp [add, inkless]

/-- Texts with the same ink leave the same imprint. -/
theorem add_congr {text other : List Char} (same : Shorthand.ink text = Shorthand.ink other)
    (imprint : Imprint) : imprint.add text = imprint.add other := by
  rw [add, add, same]

end Imprint

section

/-- What is added to the stream adds its ink. -/
theorem imprint_added {change : Stream → Stream} {writer : Writer} {text : List Char}
    (added : (change writer.stream).value.toList = writer.stream.value.toList ++ text) :
    (writer.onStream change).imprint = writer.imprint.add text := by
  rw [Writer.imprint, Writer.onStream, added, ink_append]
  rfl

/-- The depth leaves no imprint. -/
theorem imprint_shift (change : Int) (writer : Writer) :
    (writer.shift change).imprint = writer.imprint := rfl

variable {options : OutputOptions} (plain : options.IsPlain)
include plain

/-- Indentation leaves no imprint. -/
theorem imprint_pushIndent (level : Int) (writer : Writer) :
    (writer.onStream (Stream.pushIndent options level)).imprint = writer.imprint := by
  rw [imprint_added (Stream.toList_pushIndent options level writer.stream)]
  exact Imprint.add_inkless (ink_blank (isBlank_repeated plain.indent _)) _

/-- The end of a line leaves no imprint. -/
theorem imprint_breakLine (writer : Writer) :
    (writer.onStream (Stream.breakLine options)).imprint = writer.imprint := by
  rw [imprint_added (Stream.toList_breakLine options writer.stream)]
  refine Imprint.add_inkless ?_ _
  rw [ink_append, ink_blank plain.newline, ink_blank plain.baseIndent, List.append_nil]

/-- A new line leaves no imprint. -/
theorem imprint_pushLine (writer : Writer) :
    (writer.onStream (Stream.pushLine options)).imprint = writer.imprint := by
  rw [imprint_added (Stream.toList_pushLine options writer.stream)]
  exact Imprint.add_inkless (ink_lineStart plain _) _

/-- A text leaves its ink. -/
theorem imprint_push (text : String) (writer : Writer) :
    (writer.onStream (Stream.push options text)).imprint = writer.imprint.add text.toList := by
  rw [imprint_added (Stream.toList_push options text writer.stream), plain.text]
  rfl

/-- A text of several lines adds its ink. -/
theorem imprint_pushText (text : String) (writer : Writer) :
    (writer.onStream (Stream.pushText options text)).imprint = writer.imprint.add text.toList := by
  obtain ⟨first, rest, lines, added⟩ := Stream.toList_pushText options text writer.stream
  rw [imprint_added added]
  refine Imprint.add_congr ?_ _
  calc
    _ = (first :: rest).flatMap fun line => ink line.toList := by
      rw [ink_append, ink_linesText plain, plain.text]
      rfl
    _ = (Text.linesOf text.toList).flatMap ink := by
      rw [← lines, Text.splitLines, List.flatMap_map]
      simp only [String.toList_ofList]
    _ = ink text.toList := flatMap_ink_linesOf text.toList

omit plain in
/-- A field leaves the ink of its number and placeholder, and its number in the group. -/
theorem imprint_pushField (index : Nat) (name : String) (writer : Writer) :
    (writer.pushField options index name).imprint =
      writer.imprint.addField options.field index name := by
  simp [Writer.pushField, Writer.imprint, Imprint.addField, Imprint.add]

omit plain in
/-- The end of a group is part of the imprint. -/
theorem imprint_closeGroup (writer : Writer) :
    writer.closeGroup.imprint = writer.imprint.closeGroup := by
  have current : writer.imprint.current = writer.current := rfl
  cases largest : (writer.current.map WrittenField.own).max? with
  | none => simp only [Writer.closeGroup, Imprint.closeGroup, current, largest]
  | some number => simp only [Writer.closeGroup, Imprint.closeGroup, current, largest]; rfl

end

namespace Markup.Html

section

variable {config : Config} (plain : config.options.output.IsPlain)
include plain

/-- The parts of a value add their ink. -/
theorem imprint_pushParts (value : Value) (writer : Writer) :
    (pushParts config (Stream.pushText config.options.output) value writer).imprint =
      writer.imprint.addParts config.options.output.field value := by
  induction value generalizing writer with
  | nil => rfl
  | cons part rest ih =>
    cases part with
    | text text => rw [pushParts, ih, imprint_pushText plain, Imprint.addParts]
    | field index name => rw [pushParts, ih, imprint_pushField, Imprint.addParts]

/-- A value adds its ink. -/
theorem imprint_pushValue (value : Value) (writer : Writer) :
    (pushValue config value writer).imprint =
      writer.imprint.addValue config.options.output.field value := by
  rw [pushValue, Markup.pushValue, imprint_closeGroup, imprint_pushParts plain, Imprint.addValue]

/-- The lines around a block leave no imprint. -/
theorem imprint_pushBlock (isBlock : Bool) (value : Value) (writer : Writer) :
    (pushBlock config isBlock value writer).imprint =
      writer.imprint.addValue config.options.output.field value := by
  rw [pushBlock]
  split
  case isTrue =>
    rw [pushLine, imprint_pushLine plain, imprint_shift, imprint_pushValue plain, pushLine,
      imprint_pushLine plain, imprint_shift]
  case isFalse => exact imprint_pushValue plain value writer

/-- What is dropped behind children that broke lines leaves no imprint. -/
theorem imprint_pushAround (value : Value) (inner : Writer → Writer) (writer : Writer) :
    (pushAround config value inner writer).imprint =
      (inner (pushValue config (value.takeWhile fun part => !part.isField) writer)).imprint.addValue
        config.options.output.field
        (value.drop ((value.takeWhile fun part => !part.isField).length + 1)) := by
  -- The line counter decides what is written, but only about white space.
  rw [pushAround]
  split
  case isTrue =>
    split
    case h_1 text rest after =>
      rw [imprint_pushValue plain, imprint_pushText plain, after, Imprint.addValue,
        Imprint.addValue, Imprint.addParts]
      simp only [Imprint.add, ink_trimStart]
    case h_2 => exact imprint_pushValue plain _ _
  case isFalse => exact imprint_pushValue plain _ _

/-- A line of its own leaves no imprint. -/
theorem imprint_broken (isBroken : Bool) (writer : Writer) :
    (if isBroken then pushLine config writer else writer).imprint = writer.imprint := by
  split
  · exact imprint_pushLine plain writer
  · rfl

/-- The line break in front of a closing tag leaves no imprint. -/
theorem imprint_pushEnd (parent : Element) (writer : Writer) :
    (pushEnd config parent writer).imprint = writer.imprint :=
  calc
    _ = ((writer.onStream (Stream.breakLine config.options.output)).onStream
          (Stream.pushIndent config.options.output
            (writer.stream.level - if parent.isBare then 0 else 1))).imprint := rfl
    _ = writer.imprint := by rw [imprint_pushIndent plain, imprint_breakLine plain]

/-- The lines around an element leave no imprint. -/
theorem imprint_pushPlaced (parent : Option Element) (isBroken isLast : Bool) (element : Element)
    (hasChildren : Bool) (inner : Writer → Writer) (writer : Writer) :
    (pushPlaced config parent isBroken isLast element hasChildren inner writer).imprint =
      (pushElement config element hasChildren inner
        (if isBroken then pushLine config (writer.shift (indentInside config parent))
          else writer.shift (indentInside config parent))).imprint := by
  cases parent with
  | none => rfl
  | some parent =>
    simp only [pushPlaced, imprint_shift]
    split
    · exact imprint_pushEnd plain parent _
    · rfl

end

/-! ### Two layouts side by side -/

/-- Two steps of writing leave the same imprint behind the same imprint. -/
def Alike (left right : Writer → Writer) : Prop :=
  ∀ first second : Writer, first.imprint = second.imprint →
    (left first).imprint = (right second).imprint

/-- Alike steps one after the other are alike. -/
theorem Alike.comp {left right leftNext rightNext : Writer → Writer}
    (next : Alike leftNext rightNext) (alike : Alike left right) :
    Alike (leftNext ∘ left) (rightNext ∘ right) :=
  fun first second same => next _ _ (alike first second same)

/-- Both layouts decide a question that is not one of layout in the same way. -/
theorem Alike.ite {condition other : Prop} [Decidable condition] [Decidable other]
    {left right leftElse rightElse : Writer → Writer} (same : condition ↔ other)
    (yes : Alike left right) (no : Alike leftElse rightElse) :
    Alike (fun writer => if condition then left writer else leftElse writer)
      (fun writer => if other then right writer else rightElse writer) := by
  intro first second alike
  by_cases holds : condition
  · simpa only [if_pos holds, if_pos (same.mp holds)] using yes _ _ alike
  · simpa only [if_neg holds, if_neg (mt same.mpr holds)] using no _ _ alike

/-- A step that does nothing is like itself. -/
theorem Alike.rfl : Alike id id := fun _ _ same => same

/-- Steps with the same effect on imprints are alike. -/
theorem alike_of_imprint {left right : Writer → Writer} (change : Imprint → Imprint)
    (leftChange : ∀ writer, (left writer).imprint = change writer.imprint)
    (rightChange : ∀ writer, (right writer).imprint = change writer.imprint) :
    Alike left right :=
  fun first second same => by rw [leftChange, rightChange, same]

section

variable {config : Config} (unchanged : config.options.output.text = id) (left right : Layout)
include unchanged

/-- A text is written alike in both layouts. -/
theorem push_alike (text : String) :
    Alike (push (config.withLayout left) text) (push (config.withLayout right) text) :=
  alike_of_imprint (Imprint.add text.toList)
    (imprint_push (config.isPlain_withLayout left unchanged) text)
    (imprint_push (config.isPlain_withLayout right unchanged) text)

/-- A value is written alike in both layouts. -/
theorem pushValue_alike (value : Value) :
    Alike (pushValue (config.withLayout left) value) (pushValue (config.withLayout right) value) :=
  alike_of_imprint (Imprint.addValue config.options.output.field value)
    (imprint_pushValue (config.isPlain_withLayout left unchanged) value)
    (imprint_pushValue (config.isPlain_withLayout right unchanged) value)

/-- A value is written alike whether it stands on lines of its own or not. -/
theorem pushBlock_alike (isBlock isOtherBlock : Bool) (value : Value) :
    Alike (pushBlock (config.withLayout left) isBlock value)
      (pushBlock (config.withLayout right) isOtherBlock value) :=
  alike_of_imprint (Imprint.addValue config.options.output.field value)
    (imprint_pushBlock (config.isPlain_withLayout left unchanged) isBlock value)
    (imprint_pushBlock (config.isPlain_withLayout right unchanged) isOtherBlock value)

/-- The value behind a name is written alike in both layouts. -/
theorem pushAssignment_alike (name : String) (quotes : String × String) (value : Value) :
    Alike (pushAssignment (config.withLayout left) name quotes value)
      (pushAssignment (config.withLayout right) name quotes value) :=
  (push_alike unchanged left right quotes.2).comp <|
    (pushValue_alike unchanged left right value).comp <|
    (push_alike unchanged left right ("=" ++ quotes.1)).comp <|
    push_alike unchanged left right (" " ++ name)

/-- An attribute is written alike in both layouts. -/
theorem pushAttribute_alike (written : Attribute) :
    Alike (pushAttribute (config.withLayout left) written)
      (pushAttribute (config.withLayout right) written) := by
  obtain ⟨name, value, isBoolean, isImplied, kind, isMultiple⟩ := written
  cases name with
  | none => exact fun first second same => same
  | some raw =>
    cases value with
    | some value => exact pushAssignment_alike unchanged left right _ _ value
    | none =>
      have named := push_alike unchanged left right (" " ++ attributeName config raw)
      exact .ite Iff.rfl (pushAssignment_alike unchanged left right _ _ caret) <|
        .ite Iff.rfl (pushAssignment_alike unchanged left right _ _ _) <|
        .ite Iff.rfl named ((push_alike unchanged left right _).comp named)

/-- Attributes are written alike in both layouts. -/
theorem pushAttributes_alike (attributes : List Attribute) :
    Alike (pushAttributes (config.withLayout left) attributes)
      (pushAttributes (config.withLayout right) attributes) := by
  intro first second same
  rw [pushAttributes, pushAttributes]
  induction attributes.filter isWritten generalizing first second with
  | nil => exact same
  | cons written rest ih =>
    exact ih _ _ (pushAttribute_alike unchanged left right written first second same)

/-- Comments are written alike in both layouts. -/
theorem pushComment_alike (template : String) (element : Element) :
    Alike (pushComment (config.withLayout left) template element)
      (pushComment (config.withLayout right) template element) := by
  refine .ite Iff.rfl ?_ .rfl
  exact alike_of_imprint _ (imprint_pushText (config.isPlain_withLayout left unchanged) _)
    (imprint_pushText (config.isPlain_withLayout right unchanged) _)

/-! ### Elements and nodes -/

variable {leftInner rightInner : Writer → Writer} (alike : Alike leftInner rightInner)
include alike

/-- A value around its children is written alike if the children are. -/
theorem pushAround_alike (value : Value) :
    Alike (pushAround (config.withLayout left) value leftInner)
      (pushAround (config.withLayout right) value rightInner) := by
  intro first second same
  rw [imprint_pushAround (config.isPlain_withLayout left unchanged),
    imprint_pushAround (config.isPlain_withLayout right unchanged),
    alike _ _ (pushValue_alike unchanged left right _ _ _ same)]
  rfl

/-- The content of an element is written alike if its children are. -/
theorem pushContent_alike (name : String) (element : Element) (hasChildren : Bool) :
    Alike (pushContent (config.withLayout left) name element hasChildren leftInner)
      (pushContent (config.withLayout right) name element hasChildren rightInner) := by
  exact (Alike.ite Iff.rfl (pushBlock_alike unchanged left right _ _ caret) .rfl).comp <|
    alike.comp <| .ite Iff.rfl .rfl (pushBlock_alike unchanged left right _ _ element.value)

/-- An element is written alike if its children are. -/
theorem pushElement_alike (element : Element) (hasChildren : Bool) :
    Alike (pushElement (config.withLayout left) element hasChildren leftInner)
      (pushElement (config.withLayout right) element hasChildren rightInner) := by
  have around := pushAround_alike unchanged left right alike element.value
  obtain ⟨name, value, attributes, iteration, isSelfClosing⟩ := element
  cases name with
  | none => exact .ite Iff.rfl around (alike.comp (pushValue_alike unchanged left right value))
  | some raw =>
    have opened := (pushAttributes_alike unchanged left right attributes).comp <|
      (push_alike unchanged left right ("<" ++ tagName config raw)).comp <|
      pushComment_alike unchanged left right config.options.comment.before
        ⟨some raw, value, attributes, iteration, isSelfClosing⟩
    have content := pushContent_alike unchanged left right alike raw
      ⟨some raw, value, attributes, iteration, isSelfClosing⟩ hasChildren
    exact .ite Iff.rfl ((push_alike unchanged left right _).comp opened) <|
      (pushComment_alike unchanged left right _ _).comp <|
      (push_alike unchanged left right _).comp <|
      (Alike.ite Iff.rfl around content).comp <|
      (push_alike unchanged left right ">").comp opened

/-- The lines around an element leave no imprint, so it does not matter which are broken. -/
theorem pushPlaced_alike (parent : Option Element) (isBroken isOtherBroken isLast : Bool)
    (element : Element) (hasChildren : Bool) :
    Alike (pushPlaced (config.withLayout left) parent isBroken isLast element hasChildren leftInner)
      (pushPlaced (config.withLayout right) parent isOtherBroken isLast element hasChildren
        rightInner) := by
  have leftPlain := config.isPlain_withLayout left unchanged
  have rightPlain := config.isPlain_withLayout right unchanged
  intro first second same
  rw [imprint_pushPlaced leftPlain, imprint_pushPlaced rightPlain]
  refine pushElement_alike unchanged left right alike element hasChildren _ _ ?_
  rw [imprint_broken leftPlain, imprint_broken rightPlain, imprint_shift, imprint_shift, same]

end

mutual

/-- A node is written alike in both layouts. -/
theorem pushNode_alike {config : Config} (unchanged : config.options.output.text = id)
    (left right : Layout) (parent : Option Element) (before : List Element) (after : List Node)
    (node : Node) :
    Alike (pushNode (config.withLayout left) parent before after node)
      (pushNode (config.withLayout right) parent before after node) := by
  cases node with
  | node element children =>
    intro first second same
    rw [pushNode, pushNode]
    exact pushPlaced_alike unchanged left right
      (pushNodes_alike unchanged left right (some element) [] children) parent _ _ after.isEmpty
      element (!children.isEmpty) _ _ same

/-- Nodes are written alike in both layouts. -/
theorem pushNodes_alike {config : Config} (unchanged : config.options.output.text = id)
    (left right : Layout) (parent : Option Element) (before : List Element) (nodes : List Node) :
    Alike (pushNodes (config.withLayout left) parent before nodes)
      (pushNodes (config.withLayout right) parent before nodes) := by
  cases nodes with
  | nil => exact fun first second same => by rw [pushNodes, pushNodes, same]
  | cons node rest =>
    intro first second same
    rw [pushNodes, pushNodes]
    exact pushNodes_alike unchanged left right parent (node.element :: before) rest _ _
      (pushNode_alike unchanged left right parent before rest node _ _ same)

end

/-- Two layouts write the same nodes with the same ink and number their fields in the same
way, if there is no hook for texts. -/
theorem render_ink (config : Config) (left right : Layout) (nodes : List Node)
    (unchanged : config.options.output.text = id) :
    ink (render (config.withLayout left) nodes).toList =
        ink (render (config.withLayout right) nodes).toList ∧
      (write (config.withLayout left) nodes).groups =
        (write (config.withLayout right) nodes).groups := by
  have same : (write (config.withLayout left) nodes).imprint =
      (write (config.withLayout right) nodes).imprint :=
    pushNodes_alike unchanged left right none [] nodes _ _ rfl
  exact ⟨congrArg Imprint.ink same, congrArg Imprint.groups same⟩

/-- Everything stands on one line. -/
def flatLayout : Layout where
  format := false
  formatLeafNode := false
  formatSkip := []
  formatForce := []
  inlineBreak := 0
  inlineElements := []
  indent := ""
  baseIndent := ""
  newline := ""
  blankIndent := by decide
  blankBaseIndent := by decide
  blankNewline := by decide

/-- Every element stands on a line of its own. -/
def brokenLayout : Layout where
  format := true
  formatLeafNode := true
  formatSkip := []
  formatForce := []
  inlineBreak := 1
  inlineElements := []
  indent := "  "
  baseIndent := ""
  newline := "\n"
  blankIndent := by decide
  blankBaseIndent := by decide
  blankNewline := by decide

/-- Two elements in another one, on one line and on several ones. -/
theorem render_ink_nested :
    let config := Config.ofSettings .blank
    let nodes := [Node.node (.named "p") [.node (.named "b") [], .node (.named "i") []]]
    config.options.output.text = id ∧
      render (config.withLayout flatLayout) nodes ≠ render (config.withLayout brokenLayout) nodes ∧
      ink (render (config.withLayout flatLayout) nodes).toList =
        ink (render (config.withLayout brokenLayout) nodes).toList := by
  refine ⟨rfl, ?_, (render_ink _ flatLayout brokenLayout _ rfl).1⟩
  decide +kernel

end Markup.Html

end Shorthand
