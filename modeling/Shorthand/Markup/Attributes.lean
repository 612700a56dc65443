import Shorthand.Config

/-!
# Merging and renaming attributes

An attribute that is written several times becomes one: class names are collected, and of
other values one wins. Dialects may give attributes other names and put expressions in front
of their values.
-/

namespace Shorthand.Markup

/-- Whether an attribute has a name that becomes `key` in lower case. -/
def Attribute.hasKey (key : String) (candidate : Attribute) : Bool :=
  candidate.name.any fun name => LetterCase.lower name == key

/-- Put one value behind another, with a blank between them. -/
def joinValues : Option Value → Option Value → Option Value
  | some first, some second =>
    let opened := if first.isEmpty then first else first.pushText " "
    some (second.foldl (fun value part => value.push part) opened)
  | first, second => first <|> second

/-- Add another class attribute to the first one. -/
def Attribute.addClass (first second : Attribute) : Attribute :=
  { first with value := joinValues first.value second.value }

/-- Replace an attribute by another one of the same name. If `keepsFirst` is set, the first
value stays. -/
def Attribute.override (keepsFirst : Bool) (first second : Attribute) : Attribute :=
  { name := second.name
    value := if keepsFirst then first.value else second.value
    isBoolean := first.isBoolean || second.isBoolean
    isImplied := first.isImplied || second.isImplied
    kind := if first.kind = .expression then .expression else second.kind
    isMultiple := first.isMultiple }

/-- Change the first attribute that satisfies the test, if there is one. -/
def updateFirst? (test : Attribute → Bool) (change : Attribute → Attribute) :
    List Attribute → Option (List Attribute)
  | [] => none
  | first :: rest =>
    if test first then
      some (change first :: rest)
    else
      (updateFirst? test change rest).map (first :: ·)

/-- Merge one more attribute into those before it. -/
def mergeAttribute (keepsFirst : Bool) (merged : List Attribute) (next : Attribute) :
    List Attribute :=
  match next.name with
  | none => merged ++ [next]
  | some name =>
    let key := LetterCase.lower name
    let change (first : Attribute) : Attribute :=
      if key = "class" then first.addClass next else first.override keepsFirst next
    (updateFirst? (Attribute.hasKey key) change merged).getD (merged ++ [next])

/-- Merge attributes of the same name. -/
def mergeAttributes (config : Config) (element : Element) : Element :=
  let keepsFirst := config.options.output.reverseAttributes
  { element with attributes := element.attributes.foldl (mergeAttribute keepsFirst) [] }

/-- The key under which the options of an attribute are found. -/
def Attribute.optionKey (name : String) (candidate : Attribute) : String :=
  if candidate.isMultiple then name ++ "*" else name

/-- Put an expression and a point in front of a value. -/
def prefixValue (expression : String) (value : Value) : Value :=
  value.foldl (fun value part => value.push part) [.text (expression ++ ".")]

/-- Give an attribute its name and value for the dialect. -/
def renameAttribute (options : MarkupOptions) (candidate : Attribute) : Attribute :=
  match candidate.name with
  | none => candidate
  | some name =>
    let key := candidate.optionKey name
    let valued :=
      match options.valuePrefixes.get? key, candidate.value with
      | some expression, some value =>
        { candidate with value := some (prefixValue expression value), kind := .expression }
      | _, _ => candidate
    match options.renames.get? key with
    | some renamed => { valued with name := some renamed }
    | none => valued

/-- Give the attributes of an element their names and values for the dialect. -/
def renameAttributes (config : Config) (element : Element) : Element :=
  { element with attributes := element.attributes.map (renameAttribute config.options.markup) }

/-- Drop the selection of a variable or parameter of a transformation that has content. -/
def dropSelection (hasChildren : Bool) (element : Element) : Element :=
  let binds := element.name.any fun name =>
    ["xsl:variable", "xsl:with-param"].contains (LetterCase.lower name)
  if binds && (hasChildren || !element.value.isEmpty) then
    { element with
      attributes := element.attributes.filter fun found => !found.isNamed "select" }
  else
    element

end Shorthand.Markup
