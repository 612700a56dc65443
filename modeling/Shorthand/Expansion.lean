import Shorthand.Markup.Html
import Shorthand.Markup.Indented
import Shorthand.Markup.Transformation
import Shorthand.Stylesheet.Resolution

/-!
# Expansion of abbreviations

Markup is read, resolved, transformed and written with tags or by indentation. Declarations
are read, resolved and written. Only reading can fail.
-/

namespace Shorthand.Expansion

/-- The text of transformed nodes in the dialect that is asked for. -/
def renderMarkup (config : Config) (nodes : List Markup.Node) : String :=
  match Markup.Indented.Delimiters.ofConfig? config with
  | some delimiters => Markup.Indented.render config delimiters nodes
  | none => Markup.Html.render config nodes

/-- Expand a markup abbreviation. -/
def expandMarkup {State : Type} (draws : Draws State) (config : Config) (source : String)
    (state : State) : Except Failure (String × State) := do
  let nodes ← Markup.parse config.readOptions source
  let (transformed, state) :=
    Markup.transform draws config (Markup.resolveSnippets config nodes) state
  return (renderMarkup config transformed, state)

/-- Read a stylesheet abbreviation, which inside of a value is that value. -/
def readStylesheet (config : Config) (source : String) :
    Except Fault (List Stylesheet.Declaration) :=
  Stylesheet.declarations (Stylesheet.valueScope? config).isSome source

/-- Expand a stylesheet abbreviation with a database of snippets. -/
def expandStylesheet (config : Config) (database : Stylesheet.Database) (source : String) :
    Except Fault String := do
  let declarations ← readStylesheet config source
  return Stylesheet.render config (declarations.map (Stylesheet.resolve config database))

/-- Expand an abbreviation. -/
def expand {State : Type} (draws : Draws State) (config : Config) (source : String)
    (state : State) : Except Failure (String × State) :=
  match config.dialect.language with
  | .markup => expandMarkup draws config source state
  | .stylesheet => do
    let text ← (expandStylesheet config (.ofTable config.snippets) source).mapError .fault
    return (text, state)

/-- Expand several abbreviations with one database. A failure takes no random numbers. -/
def expandAll {State : Type} (draws : Draws State) (config : Config) (sources : List String)
    (state : State) : List (Except Failure String) :=
  match config.dialect.language with
  | .stylesheet =>
    let database := Stylesheet.Database.ofTable config.snippets
    sources.map fun source => (expandStylesheet config database source).mapError .fault
  | .markup => expandMarkups sources state
where
  /-- Expand markup abbreviations one after the other. -/
  expandMarkups : List String → State → List (Except Failure String)
    | [], _ => []
    | source :: rest, state =>
      match expandMarkup draws config source state with
      | .ok (text, state) => .ok text :: expandMarkups rest state
      | .error failure => .error failure :: expandMarkups rest state

/-- Read an abbreviation without expanding it. -/
def check (config : Config) (source : String) : Except Failure Unit :=
  match config.dialect.language with
  | .markup => (Markup.parse config.readOptions source).map fun _ => ()
  | .stylesheet => ((readStylesheet config source).map fun _ => ()).mapError .fault

end Shorthand.Expansion
