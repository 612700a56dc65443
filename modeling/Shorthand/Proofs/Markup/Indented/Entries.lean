import Shorthand.Markup.Indented
import Shorthand.Proofs.Markup.Preorder

/-!
# Writing by indentation writes one element after the other

Nothing is written behind the children of an element, so the nesting shows in the level of
indentation alone. The writer of nodes is therefore a run over their elements in preorder, each
of which comes with its depth.
-/

namespace Shorthand.Markup.Indented

/-- An element with its place among others. -/
structure Entry where
  /-- The number of elements that it is inside of. -/
  depth : Nat
  element : Element
  hasChildren : Bool
  deriving DecidableEq, Repr

mutual

/-- The elements of a node in preorder. -/
def nodeEntries (depth : Nat) : Node → List Entry
  | .node element children => ⟨depth, element, !children.isEmpty⟩ :: entries (depth + 1) children

/-- The elements of nodes in preorder, so many steps deep. -/
def entries (depth : Nat) : List Node → List Entry
  | [] => []
  | first :: rest => nodeEntries depth first ++ entries depth rest

end

/-- An element stands in front of those below it, one level deeper, and of those behind it. -/
theorem entries_cons (depth : Nat) (element : Element) (children rest : List Node) :
    entries depth (.node element children :: rest) =
      ⟨depth, element, !children.isEmpty⟩ ::
        (entries (depth + 1) children ++ entries depth rest) := rfl

/-- No element is left out. -/
theorem map_element_entries (depth : Nat) (nodes : List Node) :
    (entries depth nodes).map Entry.element = Node.elementsAll nodes := by
  induction nodes using Node.forest_induction generalizing depth with
  | nil => rfl
  | cons element children rest below behind =>
    rw [entries_cons, List.map_cons, List.map_append, below, behind, Node.elementsAll_cons]

/-- An element that ends with the mark of closing itself. -/
def Entry.closesItself (entry : Entry) : Bool :=
  entry.element.isSelfClosing && entry.element.value.isEmpty && !entry.hasChildren

/-! ### Levels of indentation -/

/-- Two changes of the depth are one. -/
theorem shift_shift (writer : Writer) (first second : Int) :
    (writer.shift first).shift second = writer.shift (first + second) := by
  simp [Writer.shift, Writer.onStream, Stream.shift, Int.add_assoc]

/-- No change of the depth is none. -/
theorem shift_zero (writer : Writer) : writer.shift 0 = writer := by
  simp [Writer.shift, Writer.onStream, Stream.shift]

/-- The depth is changed by as much as is said. -/
theorem level_shift (writer : Writer) (change : Int) :
    (writer.shift change).stream.level = writer.stream.level + change := rfl

/-! ### One element after the other -/

section

variable (config : Config) (delimiters : Delimiters)

/-- Go to where an element stands: at the beginning of a line, unless it is the first of all or
only text. -/
def place (isFirst : Bool) (entry : Entry) (writer : Writer) : Writer :=
  if !isFirst && !entry.element.isBare then
    writer.onStream (Stream.pushLine config.options.output)
  else
    writer

/-- Write what an element has behind its header: the mark of closing itself, or its text. -/
def pushOwn (entry : Entry) (writer : Writer) : Writer :=
  if entry.closesItself then
    push config delimiters.closingMark writer
  else
    pushText config delimiters entry.element entry.hasChildren writer

/-- Write an element without its children. -/
def pushEntry (isFirst : Bool) (entry : Entry) (writer : Writer) : Writer :=
  (pushOwn config delimiters entry
    (pushHeader config delimiters entry.element
      (place config isFirst entry (writer.shift entry.depth)))).shift (-entry.depth)

/-- Write elements one after the other; only the first one may be the first of all. -/
def pushEntries (isFirst : Bool) : List Entry → Writer → Writer
  | [], writer => writer
  | entry :: rest, writer =>
    pushEntries false rest (pushEntry config delimiters isFirst entry writer)

/-- Entries are written one after the other; the first one of all begins no line. -/
theorem pushEntries_append (isFirst : Bool) (before after : List Entry) (writer : Writer) :
    pushEntries config delimiters isFirst (before ++ after) writer =
      pushEntries config delimiters (isFirst && before.isEmpty) after
        (pushEntries config delimiters isFirst before writer) := by
  induction before generalizing isFirst writer with
  | nil => simp [pushEntries]
  | cons entry rest ih =>
    rw [List.cons_append, pushEntries, ih, pushEntries, List.isEmpty_cons, Bool.and_false,
      Bool.false_and]

/-- An element that closes itself has no children behind its mark. -/
theorem pushNodes_pushOwn (depth : Nat) (element : Element) (children : List Node)
    (writer : Writer) :
    (if element.isSelfClosing && element.value.isEmpty && children.isEmpty then
        push config delimiters.closingMark writer
      else
        pushNodes config delimiters true true children
          (pushText config delimiters element (!children.isEmpty) writer)) =
      pushNodes config delimiters true true children
        (pushOwn config delimiters ⟨depth, element, !children.isEmpty⟩ writer) := by
  simp only [pushOwn, Entry.closesItself, Bool.not_not]
  split
  case isTrue closes =>
    have childless : children = [] := List.isEmpty_iff.mp (Bool.and_eq_true_iff.mp closes).2
    rw [childless, pushNodes]
  case isFalse => rfl

/-- An element is written in front of what is inside of it, and the level of indentation comes
back to where it was. -/
theorem pushNode_shift (isInside isFirst : Bool) (element : Element) (children : List Node)
    (writer : Writer) {level : Int} {depth : Nat}
    (isDepth : level + (if isInside then 1 else 0) = depth)
    (below : ∀ writer, pushNodes config delimiters true true children (writer.shift depth) =
      (pushEntries config delimiters false (entries (depth + 1) children) writer).shift depth) :
    pushNode config delimiters isInside isFirst (.node element children) (writer.shift level) =
      (pushEntries config delimiters (!isInside && isFirst)
        (nodeEntries depth (.node element children)) writer).shift level := by
  obtain ⟨entry, isEntry⟩ : ∃ entry : Entry, entry = ⟨depth, element, !children.isEmpty⟩ := ⟨_, rfl⟩
  have begun : pushNode config delimiters isInside isFirst (.node element children)
      (writer.shift level) =
      (pushNodes config delimiters true true children
        (pushOwn config delimiters entry (pushHeader config delimiters element
          (place config (!isInside && isFirst) entry (writer.shift depth))))).shift
        (-(if isInside then 1 else 0)) := by
    rw [isEntry, ← pushNodes_pushOwn, pushNode, shift_shift, isDepth]
    simp only [place, Bool.not_and, Bool.not_not]
  have back : pushOwn config delimiters entry (pushHeader config delimiters element
      (place config (!isInside && isFirst) entry (writer.shift depth))) =
      (pushEntry config delimiters (!isInside && isFirst) entry writer).shift depth := by
    rw [pushEntry, shift_shift, isEntry, Int.add_left_neg, shift_zero]
  rw [begun, back, below, shift_shift, nodeEntries, pushEntries, ← isEntry, ← isDepth,
    Int.add_neg_cancel_right]

/-- Nodes are written as their elements are in preorder. -/
theorem pushNodes_shift (isInside isFirst : Bool) (nodes : List Node) (writer : Writer)
    {level : Int} {depth : Nat} (isDepth : level + (if isInside then 1 else 0) = depth) :
    pushNodes config delimiters isInside isFirst nodes (writer.shift level) =
      (pushEntries config delimiters (!isInside && isFirst) (entries depth nodes) writer).shift
        level := by
  induction nodes using Node.forest_induction generalizing isInside isFirst writer level depth with
  | nil => rw [pushNodes, entries, pushEntries]
  | cons element children rest below behind =>
    have inside (writer : Writer) :
        pushNodes config delimiters true true children (writer.shift depth) =
          (pushEntries config delimiters false (entries (depth + 1) children) writer).shift
            depth :=
      below true true writer rfl
    rw [pushNodes, pushNode_shift config delimiters isInside isFirst element children writer isDepth
      inside, behind isInside false _ isDepth, entries, pushEntries_append, nodeEntries,
      List.isEmpty_cons, Bool.and_false, Bool.and_false]

/-- The text of nodes is that of their elements in preorder. -/
theorem write_eq (nodes : List Node) :
    write config delimiters nodes =
      pushEntries config delimiters true (entries 0 nodes) (.empty 1) := by
  have whole : pushNodes config delimiters false true nodes ((Writer.empty 1).shift 0) =
      (pushEntries config delimiters true (entries 0 nodes) (.empty 1)).shift 0 :=
    pushNodes_shift config delimiters false true nodes (.empty 1) rfl
  rw [shift_zero, shift_zero] at whole
  exact whole

end

end Shorthand.Markup.Indented
