import Shorthand.Stylesheet.Declaration.Reader
import Shorthand.Table

/-!
# The database of stylesheet snippets

A snippet is a property with alternative values, or raw text. The database holds snippets in
the order of their keys. A property depends on those that follow and extend its name, like
`border` and `border-top`; these make a forest.
-/

namespace Shorthand.Stylesheet

/-- A keyword and the value token that it stands for. -/
abbrev Keyword := String × ValueToken

/-- A property that can be abbreviated. -/
structure PropertySnippet where
  key : String
  property : String
  /-- The alternative values, of which the first is the default. -/
  alternatives : List (List Fragment)
  /-- The keywords of all alternatives, each name once. -/
  keywords : List Keyword
  /-- The places of the properties that depend on this one. -/
  dependents : List Nat
  deriving Repr

/-- A stylesheet snippet. -/
inductive Snippet where
  | property (snippet : PropertySnippet)
  | raw (key text : String)
  deriving Repr

/-- The key of a snippet. -/
def Snippet.key : Snippet → String
  | .property snippet => snippet.key
  | .raw key _ => key

/-- The property that a snippet is for. -/
def Snippet.property? : Snippet → Option PropertySnippet
  | .property snippet => some snippet
  | .raw _ _ => none

namespace Snippet

/-! ### Reading snippets -/

/-- A character of a property name. -/
def isPropertyChar (c : Char) : Bool := ('a' ≤ c && c ≤ 'z') || c == '-'

/-- The value behind a colon: one line without semicolons but at its end, and not empty. -/
def valueText? (text : List Char) : Option (List Char) :=
  let core := Text.dropEndWhile (· == ';') text
  let isPlain (c : Char) := c != '\n' && c != '\r' && c != ';'
  match core.dropWhile CharClass.blank with
  | [] => if core.getLast?.any isPlain then some [] else none
  | value => if value.all isPlain then some value else none

/-- Read a property name and its value, if there is one. -/
def definition? (text : String) : Option (String × Option (List Char)) :=
  let name := text.toList.takeWhile isPropertyChar
  let rest := text.toList.dropWhile isPropertyChar
  if name.isEmpty then
    none
  else if rest.isEmpty then
    some (String.ofList name, none)
  else
    match rest.dropWhile CharClass.blank with
    | ':' :: value => (valueText? value).map fun found => (String.ofList name, some found)
    | _ => none

/-- The fragments of an alternative. One that cannot be read, or holds nothing, is none. -/
def alternative? (text : List Char) : Option (List Fragment) :=
  match declarations true (Text.trim (String.ofList text)) with
  | .ok (first :: _) => some first.fragments
  | _ => none

/-- The keywords that a token offers. -/
def keywordOf? : ValueToken → Option Keyword
  | .literal name => some (name, .literal name)
  | .call name arguments => some (name, .call name arguments)
  | .field _ name _ =>
    let name := Text.trim name
    if name.isEmpty then none else some (name, .literal name)
  | _ => none

/-- Add a keyword, unless its name is known. -/
def addKeyword (known : List Keyword) (added : Keyword) : List Keyword :=
  if known.any fun keyword => keyword.1 == added.1 then known else known ++ [added]

/-- The keywords of alternative values, each name once. -/
def keywordsOf (alternatives : List (List Fragment)) : List Keyword :=
  (alternatives.flatten.flatten.filterMap keywordOf?).foldl addKeyword []

/-- The snippet that a text defines. -/
def ofText (key text : String) : Snippet :=
  match definition? text with
  | none => .raw key text
  | some (name, value) =>
    let written := (value.map (Text.splitAt (· == '|'))).getD []
    let alternatives := written.filterMap alternative?
    .property ⟨key, name, alternatives, keywordsOf alternatives, []⟩

end Snippet

/-! ### Dependent properties -/

/-- Whether a property name is another one with a dash and more behind it. -/
def extendsName (longer shorter : String) : Bool :=
  (shorter.toList ++ ['-']).isPrefixOf longer.toList

/-- A property whose dependents may follow: its place and its name. -/
abbrev OpenProperty := Nat × String

/-- The pairs of a property and one that depends on it, by their places, for the snippets
from `place` on. `pending` holds the properties that may still get dependents, nearest
first. -/
def linksFrom (place : Nat) (pending : List OpenProperty) : List Snippet → List (Nat × Nat)
  | [] => []
  | .raw _ _ :: rest => linksFrom (place + 1) pending rest
  | .property snippet :: rest =>
    let added : OpenProperty := (place, snippet.property)
    match pending.dropWhile fun candidate => !extendsName snippet.property candidate.2 with
    | [] => linksFrom (place + 1) [added] rest
    | owner :: outer => (owner.1, place) :: linksFrom (place + 1) (added :: owner :: outer) rest

/-- Note the dependents of the snippet at a place. -/
def withDependents (links : List (Nat × Nat)) (place : Nat) : Snippet → Snippet
  | .property snippet =>
    let dependents := (links.filter fun link => link.1 == place).map Prod.snd
    .property { snippet with dependents }
  | raw => raw

/-- Note the dependents of all snippets. -/
def nest (snippets : List Snippet) : List Snippet :=
  let links := linksFrom 0 [] snippets
  snippets.mapIdx (withDependents links)

/-! ### Databases -/

/-- Snippets in the order of their keys. -/
structure Database where
  snippets : List Snippet

namespace Database

/-- The database of a table. The order of its entries does not matter. -/
def ofTable (table : Table) : Database :=
  let snippets := table.entries.map fun entry => Snippet.ofText entry.1 entry.2
  ⟨nest (snippets.mergeSort fun left right => left.key ≤ right.key)⟩

/-- The first snippet of a property. -/
def property? (database : Database) (name : String) : Option PropertySnippet :=
  (database.snippets.filterMap Snippet.property?).find? fun snippet => snippet.property == name

/-- The property snippet at a place. -/
def propertyAt? (database : Database) (place : Nat) : Option PropertySnippet :=
  (database.snippets[place]?).bind Snippet.property?

end Database

end Shorthand.Stylesheet
