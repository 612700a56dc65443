import Shorthand.Config
import Shorthand.Json

/-!
# Reading settings from JSON

Settings are an object whose members may all be missing. Options are addressed by dotted
keys. A value of another type than expected, or an unknown word, refuses the whole; unknown
members are ignored.
-/

namespace Shorthand.Settings

/-- Read a text. -/
def text? : Json → Option String
  | .string value => some value
  | _ => none

/-- Read a truth value. -/
def bool? : Json → Option Bool
  | .bool value => some value
  | _ => none

/-- Read a count: a machine word, written as an integer. -/
def count? : Json → Option Nat
  | .number value isInteger =>
    if isInteger && !value.isNegative && value.digits < Digits.wordLimit then
      some value.digits
    else
      none
  | _ => none

/-- Read a number. -/
def float? : Json → Option Float
  | .number value _ => some value.toFloat
  | _ => none

/-- Read a list of texts. -/
def texts? : Json → Option (List String)
  | .array items => items.mapM text?
  | _ => none

/-- Read texts by key. -/
def entries? : Json → Option (List (String × String))
  | .object members => members.mapM fun member => (text? member.2).map (member.1, ·)
  | _ => none

/-- Read a table of texts. -/
def table? (json : Json) : Option Table := (entries? json).map Table.ofList

/-- Read one of several words, alone or as the only key of an object that gives it null. -/
def word? {α : Type} (words : List (String × α)) : Json → Option α
  | .string word => words.lookup word
  | .object [(word, .null)] => words.lookup word
  | _ => none

/-- The words for the case of names. -/
def casing? : Json → Option Casing := word? [("", .keep), ("lower", .lower), ("upper", .upper)]

/-- The words for quotes. -/
def quoteStyle? : Json → Option QuoteStyle := word? [("single", .single), ("double", .double)]

/-- The words for tags that close themselves. -/
def closingStyle? : Json → Option ClosingStyle :=
  word? [("html", .html), ("xhtml", .xhtml), ("xml", .xml)]

/-- The words for languages. -/
def language? : Json → Option Language :=
  word? [("markup", .markup), ("stylesheet", .stylesheet)]

/-- Read the text to wrap. -/
def wrapped? : Json → Option Markup.WrappedText
  | .string text => some (.single text)
  | json => (texts? json).map .lines

/-- Read the surroundings, whose members may also be listed in order. -/
def surroundings? : Json → Option Surroundings
  | .array [name] => do
    return ⟨← text? name, .empty⟩
  | .array [name, attributes] => do
    return ⟨← text? name, ← table? attributes⟩
  | .array _ => none
  | json => do
    let name ← text? (← json.member? "name")
    match json.member? "attributes" with
    | none => return ⟨name, .empty⟩
    | some attributes => return ⟨name, ← table? attributes⟩

/-- An option: its key and how its value changes the options. -/
structure OptionKey where
  key : String
  change? : Json → Option (Options → Options)

/-- An option whose value is read and then put in place. -/
def option {α : Type} (key : String) (read : Json → Option α) (put : Options → α → Options) :
    OptionKey :=
  ⟨key, fun json => (read json).map fun value options => put options value⟩

/-- An option of the output. -/
def outputOption {α : Type} (key : String) (read : Json → Option α)
    (put : OutputOptions → α → OutputOptions) : OptionKey :=
  option ("output." ++ key) read fun options value =>
    { options with output := put options.output value }

/-- An option of stylesheets. -/
def stylesheetOption {α : Type} (key : String) (read : Json → Option α)
    (put : StylesheetOptions → α → StylesheetOptions) : OptionKey :=
  option ("stylesheet." ++ key) read fun options value =>
    { options with stylesheet := put options.stylesheet value }

/-- An option of attributes. -/
def markupOption {α : Type} (key : String) (read : Json → Option α)
    (put : MarkupOptions → α → MarkupOptions) : OptionKey :=
  option ("markup." ++ key) read fun options value =>
    { options with markup := put options.markup value }

/-- An option of comments. -/
def commentOption {α : Type} (key : String) (read : Json → Option α)
    (put : CommentOptions → α → CommentOptions) : OptionKey :=
  option ("comment." ++ key) read fun options value =>
    { options with comment := put options.comment value }

/-- An option of block names. -/
def blockOption {α : Type} (key : String) (read : Json → Option α)
    (put : BlockOptions → α → BlockOptions) : OptionKey :=
  option ("bem." ++ key) read fun options value =>
    { options with block := put options.block value }

/-- All options in order. -/
def optionKeys : List OptionKey := [
  option "inlineElements" texts? fun o value => { o with inlineElements := value },
  outputOption "indent" text? fun o value => { o with indent := value },
  outputOption "baseIndent" text? fun o value => { o with baseIndent := value },
  outputOption "newline" text? fun o value => { o with newline := value },
  outputOption "tagCase" casing? fun o value => { o with tagCase := value },
  outputOption "attributeCase" casing? fun o value => { o with attributeCase := value },
  outputOption "attributeQuotes" quoteStyle? fun o value => { o with attributeQuotes := value },
  outputOption "format" bool? fun o value => { o with format := value },
  outputOption "formatLeafNode" bool? fun o value => { o with formatLeafNode := value },
  outputOption "formatSkip" texts? fun o value => { o with formatSkip := value },
  outputOption "formatForce" texts? fun o value => { o with formatForce := value },
  outputOption "inlineBreak" count? fun o value => { o with inlineBreak := value },
  outputOption "compactBoolean" bool? fun o value => { o with compactBoolean := value },
  outputOption "booleanAttributes" texts? fun o value => { o with booleanAttributes := value },
  outputOption "reverseAttributes" bool? fun o value => { o with reverseAttributes := value },
  outputOption "selfClosingStyle" closingStyle? fun o value => { o with closingStyle := value },
  markupOption "href" bool? fun o value => { o with href := value },
  markupOption "attributes" table? fun o value => { o with renames := value },
  markupOption "valuePrefix" table? fun o value => { o with valuePrefixes := value },
  commentOption "enabled" bool? fun o value => { o with enabled := value },
  commentOption "trigger" texts? fun o value => { o with trigger := value },
  commentOption "before" text? fun o value => { o with before := value },
  commentOption "after" text? fun o value => { o with after := value },
  blockOption "enabled" bool? fun o value => { o with enabled := value },
  blockOption "element" text? fun o value => { o with element := value },
  blockOption "modifier" text? fun o value => { o with modifier := value },
  option "jsx.enabled" bool? fun o value => { o with jsx := value },
  stylesheetOption "keywords" texts? fun o value => { o with keywords := value },
  stylesheetOption "keywordAliases" table? fun o value => { o with keywordAliases := value },
  stylesheetOption "unitless" texts? fun o value => { o with unitless := value },
  stylesheetOption "unitAliases" table? fun o value => { o with unitAliases := value },
  stylesheetOption "intUnit" text? fun o value => { o with intUnit := value },
  stylesheetOption "floatUnit" text? fun o value => { o with floatUnit := value },
  stylesheetOption "shortHex" bool? fun o value => { o with shortHex := value },
  stylesheetOption "between" text? fun o value => { o with between := value },
  stylesheetOption "after" text? fun o value => { o with after := value },
  stylesheetOption "json" bool? fun o value => { o with json := value },
  stylesheetOption "jsonDoubleQuotes" bool? fun o value => { o with jsonDoubleQuotes := value },
  stylesheetOption "fuzzySearchMinScore" float? fun o value => { o with minScore := value },
  stylesheetOption "strictMatch" bool? fun o value => { o with strictMatch := value }]

/-- The change that the value of an option makes; null makes none. -/
def changeOf (option : OptionKey) : Json → Option (Options → Options)
  | .null => some id
  | json => option.change? json

/-- The changes of several options with their values, one after the other. -/
def changes : List (OptionKey × Json) → Option (Options → Options)
  | [] => some id
  | (option, json) :: rest => do
    let first ← changeOf option json
    let others ← changes rest
    return others ∘ first

/-- Read options from an object, or from the list of their values in order. -/
def adjustment? : Json → Option (Options → Options)
  | .object members =>
    changes (optionKeys.filterMap fun option =>
      ((Json.object members).member? option.key).map fun json => (option, json))
  | .array values =>
    if values.length ≤ optionKeys.length then changes (optionKeys.zip values) else none
  | _ => none

/-- Read a member that may be missing or null. -/
def optional? {α : Type} (json : Json) (name : String) (read : Json → Option α) :
    Option (Option α) :=
  match json.member? name with
  | none | some .null => some none
  | some value => (read value).map some

/-- Read a member that may be missing. -/
def withDefault? {α : Type} (json : Json) (name : String) (default : α)
    (read : Json → Option α) : Option α :=
  match json.member? name with
  | none => some default
  | some value => read value

/-- Read settings from the members of an object. -/
def ofMembers? (members : List (String × Json)) : Option Settings := do
  let json := Json.object members
  let language ← optional? json "type" language?
  let dialect ← optional? json "syntax" text?
  let variableTexts ← withDefault? json "variables" [] entries?
  let snippets ← withDefault? json "snippets" [] entries?
  let adjust ← withDefault? json "options" id adjustment?
  let text ← optional? json "text" wrapped?
  let maxRepeat ← optional? json "maxRepeat" count?
  let surroundings ← optional? json "context" surroundings?
  return { language, dialect, variableTexts, snippets, adjust, text, maxRepeat, surroundings }

/-- The members of settings in order. -/
def memberNames : List String :=
  ["type", "syntax", "variables", "snippets", "options", "text", "maxRepeat", "context"]

/-- Read settings from an object, or from the list of their members in order. -/
def ofJson? : Json → Option Settings
  | .object members => ofMembers? members
  | .array values =>
    if values.length ≤ memberNames.length then ofMembers? (memberNames.zip values) else none
  | _ => none

end Shorthand.Settings
