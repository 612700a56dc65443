import Shorthand.Config.Options
import Shorthand.Markup.BuiltinSnippets
import Shorthand.Markup.Unrolling
import Shorthand.Stylesheet.BuiltinSnippets

/-!
# Configurations

Settings are what a caller asks for, with everything optional. A configuration is complete:
it is settings over the defaults of their dialect.
-/

namespace Shorthand

/-- Where an abbreviation stands: the parent element, or the property of a value. -/
structure Surroundings where
  name : String
  /-- The attributes of the parent element. -/
  attributes : Table
  deriving DecidableEq

/-- What a caller asks for. -/
structure Settings where
  language : Option Language
  dialect : Option String
  variableTexts : List (String × String)
  snippets : List (String × String)
  /-- The options that differ from their defaults. -/
  adjust : Options → Options
  text : Option Markup.WrappedText
  maxRepeat : Option Nat
  surroundings : Option Surroundings

/-- Settings that ask for nothing. -/
def Settings.blank : Settings := ⟨none, none, [], [], id, none, none, none⟩

/-- Everything that an expansion depends on besides the abbreviation. -/
structure Config where
  dialect : Dialect
  variableTexts : Table
  snippets : Table
  options : Options
  text : Option Markup.WrappedText
  maxRepeat : Option Nat
  surroundings : Option Surroundings

namespace Config

/-- The variables that are always known. -/
def builtinVariables : Table :=
  .ofList [("charset", "UTF-8"), ("lang", "en"), ("locale", "en-US")]

/-- The snippets that come with a dialect. -/
def builtinSnippets (dialect : Dialect) : Table :=
  match dialect.language, dialect with
  | .stylesheet, _ => Stylesheet.BuiltinSnippets.table
  | .markup, .xsl => Markup.BuiltinSnippets.transformationTable
  | .markup, _ => Markup.BuiltinSnippets.commonTable

/-- The dialect that settings ask for. The name of a stylesheet dialect implies its language;
a name that the language does not know gives its default. -/
def dialectOf (settings : Settings) : Dialect :=
  let implied : Language :=
    match settings.dialect.bind (Dialect.named? .stylesheet) with
    | some _ => .stylesheet
    | none => .markup
  let language := settings.language.getD implied
  (settings.dialect.bind (Dialect.named? language)).getD (.default language)

/-- Complete the settings with defaults. -/
def ofSettings (settings : Settings) : Config :=
  let dialect := dialectOf settings
  { dialect
    variableTexts := builtinVariables.insertAll settings.variableTexts
    snippets := (builtinSnippets dialect).insertAll settings.snippets
    options := settings.adjust (.ofDialect dialect)
    text := settings.text
    maxRepeat := settings.maxRepeat
    surroundings := settings.surroundings }

/-- Abbreviations are markup. -/
def isMarkup (config : Config) : Bool := config.dialect.language == .markup

/-- What reading a markup abbreviation depends on. -/
def readOptions (config : Config) : Markup.ReadOptions :=
  { jsx := config.options.jsx
    linkAddresses := config.options.markup.href
    text := config.text
    variableTexts := config.variableTexts
    maxRepeat := config.maxRepeat }

end Config

end Shorthand
