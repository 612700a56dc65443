import Mathlib.Tactic.SplitIfs
import Shorthand.Markup.Html

/-!
# Tags of a text and the tree they make

The tags of a text stand between angle brackets and are read from left to right. Reading them
with a stack of open elements gives the tree of names, if they are properly nested.
-/

namespace Shorthand.Markup.Html

/-- A tag. One that ends with a slash is a leaf. -/
inductive Tag where
  | opening (name : String)
  | leaf (name : String)
  | closing (name : String)
  deriving DecidableEq, Repr

/-- A character of the name of a tag: an ASCII letter, a digit, a dash or a colon. -/
def isTagNameChar (c : Char) : Bool :=
  CharClass.letter c || CharClass.digit c || c == '-' || c == ':'

/-- The tag of what stands between angle brackets. Its name is what it begins with. -/
def tagOf : List Char → Tag
  | '/' :: name => .closing (String.ofList name)
  | body =>
    let name := String.ofList (body.takeWhile isTagNameChar)
    if body.getLast? = some '/' then .leaf name else .opening name

/-- The tags of the rest of a text; `inside` holds what has been read of the current tag. -/
def tagsFrom (inside : Option (List Char)) : List Char → List Tag
  | [] => []
  | c :: rest =>
    match inside with
    | none => tagsFrom (if c = '<' then some [] else none) rest
    | some body =>
      if c = '>' then tagOf body :: tagsFrom none rest else tagsFrom (some (body ++ [c])) rest

/-- The tags of a text. -/
def tagsOf (text : String) : List Tag := tagsFrom none text.toList

/-- A tree of names. -/
inductive NameTree where
  | node (name : String) (children : List NameTree)
  deriving Repr

/-- An element that is open: its name and what stands before it in the element around it. -/
abbrev OpenElement := String × List NameTree

/-- Read tags as trees inside of the elements that are open, nearest first. `done` holds what
has been read inside of the nearest one. -/
def readTags : List OpenElement → List NameTree → List Tag → Option (List NameTree)
  | [], done, [] => some done
  | _ :: _, _, [] => none
  | outer, done, .opening name :: rest => readTags ((name, done) :: outer) [] rest
  | outer, done, .leaf name :: rest => readTags outer (done ++ [.node name []]) rest
  | [], _, .closing _ :: _ => none
  | (current, before) :: outer, done, .closing name :: rest =>
    if current = name then readTags outer (before ++ [.node name done]) rest else none

/-- The trees that the tags of a text make, if they are properly nested. -/
def treesOf (text : String) : Option (List NameTree) := readTags [] [] (tagsOf text)

/-! ### Nodes that can be read back -/

/-- A text without angle brackets. -/
def IsFree (text : List Char) : Prop := '<' ∉ text ∧ '>' ∉ text

instance (text : List Char) : Decidable (IsFree text) :=
  inferInstanceAs (Decidable (_ ∧ _))

/-- A name of letters, digits, dashes and colons that is not empty. -/
def IsTagName (name : String) : Prop := name.toList ≠ [] ∧ name.toList.all isTagNameChar

/-- The characters of a tag name are such. -/
theorem IsTagName.mem {name : String} (named : IsTagName name) :
    ∀ c ∈ name.toList, isTagNameChar c :=
  List.all_eq_true.mp named.2

instance (name : String) : Decidable (IsTagName name) :=
  inferInstanceAs (Decidable (_ ∧ _))

/-- The texts and the names of fields in a value have no angle brackets. -/
def IsFreeValue (value : Value) : Prop := ∀ part ∈ value, IsFree part.shown.toList

instance (value : Value) : Decidable (IsFreeValue value) :=
  inferInstanceAs (Decidable (∀ part ∈ value, IsFree part.shown.toList))

/-- An element whose tags can be told from its text. -/
structure IsReadable (element : Element) : Prop where
  name : ∀ name ∈ element.name, IsTagName name
  value : IsFreeValue element.value
  attributeNames : ∀ written ∈ element.attributes, ∀ name ∈ written.name, IsTagName name
  attributeValues : ∀ written ∈ element.attributes, ∀ value ∈ written.value, IsFreeValue value

/-- A node in which every element is readable. -/
inductive ReadableNode : Node → Prop where
  | node {element : Element} {children : List Node} (readable : IsReadable element)
      (below : ∀ child ∈ children, ReadableNode child) : ReadableNode (.node element children)

/-- Tags keep their names and close themselves with a slash, there are no comments and no
hooks, and lines begin without angle brackets. -/
structure WritesTags (config : Config) : Prop where
  closing : config.options.output.closingStyle ≠ .html
  case : config.options.output.tagCase = .keep
  uncommented : config.options.comment.enabled = false
  text : config.options.output.text = id
  field : config.options.output.field = defaultField
  indent : IsFree config.options.output.indent.toList
  baseIndent : IsFree config.options.output.baseIndent.toList
  newline : IsFree config.options.output.newline.toList

/-! ### What is written and what is read -/

mutual

/-- The trees of a node: a nameless one stands for its children. -/
def nameTrees : Node → List NameTree
  | .node element children =>
    match element.name with
    | none => nameForest children
    | some name => [.node name (nameForest children)]

/-- The trees of several nodes. -/
def nameForest : List Node → List NameTree
  | [] => []
  | first :: rest => nameTrees first ++ nameForest rest

end

/-- The tags that an element writes around those of its children. -/
def elementTags (element : Element) (hasChildren : Bool) (tags : List Tag) : List Tag :=
  match element.name with
  | none => tags
  | some name =>
    if element.isSelfClosing && !hasChildren && element.value.isEmpty then [.leaf name]
    else .opening name :: (tags ++ [.closing name])

mutual

/-- The tags of a node. -/
def nodeTags : Node → List Tag
  | .node element children => elementTags element (!children.isEmpty) (forestTags children)

/-- The tags of several nodes. -/
def forestTags : List Node → List Tag
  | [] => []
  | first :: rest => nodeTags first ++ forestTags rest

end

/-- An opening tag begins an element inside of those that are open. -/
theorem readTags_opening (outer : List OpenElement) (done : List NameTree) (name : String)
    (rest : List Tag) :
    readTags outer done (.opening name :: rest) = readTags ((name, done) :: outer) [] rest := by
  cases outer <;> rfl

/-- A leaf is an element without children. -/
theorem readTags_leaf (outer : List OpenElement) (done : List NameTree) (name : String)
    (rest : List Tag) :
    readTags outer done (.leaf name :: rest) = readTags outer (done ++ [.node name []]) rest := by
  cases outer <;> rfl

/-- A closing tag ends the element that is open. -/
theorem readTags_closing (outer : List OpenElement) (before done : List NameTree) (name : String)
    (rest : List Tag) :
    readTags ((name, before) :: outer) done (.closing name :: rest) =
      readTags outer (before ++ [.node name done]) rest :=
  if_pos rfl

mutual

/-- The tags of a node are read as its trees. -/
theorem readTags_node (outer : List OpenElement) (done : List NameTree) (node : Node)
    (rest : List Tag) :
    readTags outer done (nodeTags node ++ rest) = readTags outer (done ++ nameTrees node) rest := by
  cases node with
  | node element children =>
    rw [nodeTags, nameTrees, elementTags]
    cases element.name with
    | none => exact readTags_forest outer done children rest
    | some name =>
      dsimp only
      split_ifs with leaf
      · have childless : children = [] := by
          simp only [Bool.and_eq_true, Bool.not_not, List.isEmpty_iff] at leaf
          exact leaf.1.2
        rw [List.singleton_append, readTags_leaf, childless, nameForest]
      · rw [List.cons_append, readTags_opening, List.append_assoc,
          readTags_forest _ [] children, List.nil_append, List.singleton_append, readTags_closing]

/-- The tags of several nodes are read as their trees. -/
theorem readTags_forest (outer : List OpenElement) (done : List NameTree) (nodes : List Node)
    (rest : List Tag) :
    readTags outer done (forestTags nodes ++ rest) =
      readTags outer (done ++ nameForest nodes) rest := by
  cases nodes with
  | nil => simp [forestTags, nameForest]
  | cons first others =>
    rw [forestTags, nameForest, List.append_assoc, readTags_node outer done first,
      readTags_forest outer _ others, List.append_assoc]

end

end Shorthand.Markup.Html
