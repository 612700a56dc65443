import Shorthand.Config

/-!
# Block, element and modifier names

Class names are made of a block, an element of it and a modifier. The short notation writes
an element with dashes in front and a modifier with underscores; as many as there are marks,
so many levels up the block is looked for.
-/

namespace Shorthand.Markup

/-- The class names of an element, and the block that they define. -/
structure BlockNames where
  classNames : List String
  block : Option String
  deriving DecidableEq, Repr

namespace BlockNames

/-- No class names. -/
def empty : BlockNames := ⟨[], none⟩

/-- A letter or digit of a name. -/
def isNameChar (c : Char) : Bool := CharClass.foldedLetter c || CharClass.digit c

/-- Read a run of marks and a name behind it: the number of marks, the name and the rest.
The name begins with a letter or digit and goes on with any character of `more`. -/
def marked? (mark : Char) (more : Char → Bool) (text : List Char) :
    Option (Nat × List Char × List Char) :=
  let marks := text.takeWhile (· == mark)
  match text.dropWhile (· == mark) with
  | [] => none
  | first :: rest =>
    if marks.isEmpty || !isNameChar first then
      none
    else
      some (marks.length, first :: rest.takeWhile more, rest.dropWhile more)

/-- Read the short notation of an element. -/
def shortElement? (text : List Char) : Option (Nat × List Char × List Char) :=
  marked? '-' (fun c => isNameChar c || c == '-') text

/-- Read the short notation of a modifier. -/
def shortModifier? (text : List Char) : Option (Nat × List Char × List Char) :=
  marked? '_' (fun c => isNameChar c || c == '-' || c == '_') text

/-- Whether a class name begins with a short notation. -/
def isShort (name : String) : Bool :=
  (shortElement? name.toList).isSome || (shortModifier? name.toList).isSome

/-- A letter and a dash begin the name. -/
def hasLetterAndDash (name : String) : Bool :=
  match name.toList with
  | first :: '-' :: _ => CharClass.foldedLetter first
  | _ => false

/-- A letter begins the name. -/
def hasLetter (name : String) : Bool := name.toList.head?.any CharClass.foldedLetter

/-- The block among class names, of which those from the first short notation on do not
count: a name that begins with one letter and a dash, or else one that begins with a
letter. -/
def findBlock (names : List String) : Option String :=
  let full := names.takeWhile fun name => !isShort name
  full.find? hasLetterAndDash <|> full.find? hasLetter

/-- The class names in a text. -/
def ofText (text : String) : BlockNames :=
  let names := Text.words text
  ⟨names, findBlock names⟩

/-- The same names without repetition; the first of equal names stays. -/
def unique (names : List String) : List String :=
  names.foldl (fun found name => if found.contains name then found else found ++ [name]) []

/-- Whether a text occurs in another one, but not at its beginning. -/
def occursInside (piece text : List Char) : Bool :=
  !piece.isPrefixOf text && (List.range text.length).any fun start =>
    piece.isPrefixOf (text.drop start)

/-- Split a block with a modifier in two. A name that already holds an element is kept
whole, if elements are written with underscores. -/
def splitModifier (element name : String) : List String :=
  let cs := name.toList
  let block := cs.takeWhile (· != '_')
  let isFull := element.toList.contains '_' && occursInside element.toList cs
  if block.length < cs.length && !block.isEmpty && cs.head? != some '-' && !isFull then
    [String.ofList block, String.ofList (cs.drop block.length)]
  else
    [name]

/-- Whether an attribute holds the class names. Its name may have been changed for the
dialect. -/
def isClass (config : Config) (candidate : Attribute) : Bool :=
  candidate.isNamed "class" ||
    (config.options.markup.renames.get? "class").any fun renamed => candidate.isNamed renamed

/-- The class names of an element as they are written. -/
def classText (config : Config) (element : Element) : String :=
  (((element.attributes.find? (isClass config)).bind Attribute.value).map Value.plain).getD ""

/-- Change the first item that satisfies the test. -/
def changeFirst {α : Type} (test : α → Bool) (change : α → α) : List α → List α
  | [] => []
  | first :: rest =>
    if test first then change first :: rest else first :: changeFirst test change rest

/-- Changing one item keeps what holds of all, if the changed one has it. -/
theorem forall_changeFirst {α : Type} {property : α → Prop} {test : α → Bool}
    {change : α → α} (keeps : ∀ item, property item → property (change item)) {items : List α}
    (all : ∀ item ∈ items, property item) :
    ∀ item ∈ changeFirst test change items, property item := by
  induction items with
  | nil => exact all
  | cons first rest ih =>
    obtain ⟨isFirst, areRest⟩ := List.forall_mem_cons.mp all
    rw [changeFirst]
    split
    case isTrue => exact List.forall_mem_cons.mpr ⟨keeps first isFirst, areRest⟩
    case isFalse => exact List.forall_mem_cons.mpr ⟨isFirst, ih areRest⟩

/-- Write class names, unless there are none. -/
def putClasses (config : Config) (names : List String) (element : Element) : Element :=
  if names.isEmpty then
    element
  else
    { element with
      attributes := changeFirst (isClass config)
        (fun found => { found with value := some [.text (Text.join " " names)] })
        element.attributes }

/-- The class names of an element with modifiers split off, and the element with them. -/
def split (config : Config) (element : Element) : BlockNames × Element :=
  let written := ofText (classText config element)
  let names := unique (written.classNames.flatMap (splitModifier config.options.block.element))
  (⟨names, findBlock names⟩, putClasses config names element)

/-- The block that so many marks refer to. The path leads from an element outwards; where
nothing is found, the surroundings are asked. -/
def blockAt (config : Config) (path : List BlockNames) (marks : Nat) : String :=
  match (path.drop (min marks path.length - 1)).findSome? block with
  | some found => found
  | none =>
    let outside := do
      let text ← (← config.surroundings).attributes.get? "class"
      (ofText text).block
    outside.getD ""

/-- The full names of a class name. -/
def expand (config : Config) (path : List BlockNames) (name : String) : List String :=
  let options := config.options.block
  let (start, rest, found) : String × List Char × List String :=
    match shortElement? name.toList with
    | some (marks, element, rest) =>
      let full := blockAt config path marks ++ options.element ++ String.ofList element
      (full, rest, [full])
    | none => ("", name.toList, [])
  match shortModifier? rest with
  | some (marks, modifier, _) =>
    let (start, found) : String × List String :=
      if start.isEmpty then
        let block := blockAt config path marks
        (block, found ++ [block])
      else
        (start, found)
    found ++ [start ++ options.modifier ++ String.ofList modifier]
  | none => if found.isEmpty then [name] else found

/-- Write out the short notations of an element inside others, nearest first. -/
def apply (config : Config) (outer : List BlockNames) (element : Element) :
    BlockNames × Element :=
  let (names, element) := split config element
  let full := unique (names.classNames.flatMap (expand config (names :: outer)))
  (names, putClasses config full element)

end BlockNames

end Shorthand.Markup
