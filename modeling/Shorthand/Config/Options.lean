import Shorthand.Table
import Shorthand.Text.LetterCase
import Shorthand.Text.Decimal

/-!
# Options of the expansion

The dialects that can be written, and every option with its default.
-/

namespace Shorthand

/-- The two kinds of abbreviations. -/
inductive Language where
  | markup
  | stylesheet
  deriving DecidableEq, Repr

/-- What an expansion is written in. -/
inductive Dialect where
  | html
  | xhtml
  | xml
  | xsl
  | jsx
  | haml
  | slim
  | pug
  | css
  | scss
  | less
  | sass
  | sss
  | stylus
  deriving DecidableEq, Repr

namespace Dialect

/-- The name of a dialect. -/
def name : Dialect → String
  | html => "html"
  | xhtml => "xhtml"
  | xml => "xml"
  | xsl => "xsl"
  | jsx => "jsx"
  | haml => "haml"
  | slim => "slim"
  | pug => "pug"
  | css => "css"
  | scss => "scss"
  | less => "less"
  | sass => "sass"
  | sss => "sss"
  | stylus => "stylus"

/-- The dialects of a language; the first one is its default. -/
def ofLanguage : Language → List Dialect
  | .markup => [html, xhtml, xml, xsl, jsx, haml, slim, pug]
  | .stylesheet => [css, scss, less, sass, sss, stylus]

/-- The dialect of a language that has the given name. -/
def named? (language : Language) (wanted : String) : Option Dialect :=
  (ofLanguage language).find? fun dialect => dialect.name == wanted

/-- The default dialect of a language. -/
def default : Language → Dialect
  | .markup => html
  | .stylesheet => css

/-- The language that a dialect belongs to. -/
def language : Dialect → Language
  | css | scss | less | sass | sss | stylus => .stylesheet
  | _ => .markup

end Dialect

/-- What is done to the case of a name. -/
inductive Casing where
  | keep
  | lower
  | upper
  deriving DecidableEq, Repr

/-- Change the case of a name. -/
def Casing.apply : Casing → String → String
  | .keep, text => text
  | .lower, text => LetterCase.lower text
  | .upper, text => LetterCase.upper text

/-- The quotes around attribute values. -/
inductive QuoteStyle where
  | single
  | double
  deriving DecidableEq, Repr

/-- The quote mark of a style. -/
def QuoteStyle.mark : QuoteStyle → String
  | .single => "'"
  | .double => "\""

/-- How a tag closes itself. -/
inductive ClosingStyle where
  /-- As an opening tag. -/
  | html
  /-- With a blank and a slash. -/
  | xhtml
  /-- With a slash. -/
  | xml
  deriving DecidableEq, Repr

/-- A field as it is written where nothing else is asked for. -/
def defaultField (index : Nat) (placeholder : String) : String :=
  if placeholder.isEmpty then
    "$\x7b" ++ toString index ++ "\x7d"
  else
    "$\x7b" ++ toString index ++ ":" ++ placeholder ++ "\x7d"

/-- How text is laid out. -/
structure OutputOptions where
  indent : String
  /-- What every line but the first begins with. -/
  baseIndent : String
  newline : String
  tagCase : Casing
  attributeCase : Casing
  attributeQuotes : QuoteStyle
  /-- Tags get lines of their own. -/
  format : Bool
  /-- Tags without content are broken as well. -/
  formatLeafNode : Bool
  /-- The elements whose children are not indented. -/
  formatSkip : List String
  /-- The elements that are always broken. -/
  formatForce : List String
  /-- So many inline siblings are put on lines of their own; zero means never. -/
  inlineBreak : Nat
  /-- Boolean attributes have no value. -/
  compactBoolean : Bool
  booleanAttributes : List String
  /-- Of several values of one attribute the first wins. -/
  reverseAttributes : Bool
  closingStyle : ClosingStyle
  /-- How a field is written. -/
  field : Nat → String → String
  /-- What is done to every piece of text that is written. -/
  text : String → String

/-- How attributes are adapted. -/
structure MarkupOptions where
  /-- A link that wraps an address points to it. -/
  href : Bool
  /-- New names of attributes. A key with an asterisk is for those given by several operators
  in a row. -/
  renames : Table
  /-- Expressions in front of attribute values, with the same keys. -/
  valuePrefixes : Table

/-- Comments around elements. -/
structure CommentOptions where
  enabled : Bool
  /-- One of these attributes must be present. -/
  trigger : List String
  before : String
  after : String
  deriving DecidableEq, Repr

/-- Class names made of blocks, elements and modifiers. -/
structure BlockOptions where
  enabled : Bool
  /-- What stands between a block and an element. -/
  element : String
  /-- What stands in front of a modifier. -/
  modifier : String
  deriving DecidableEq, Repr

/-- How declarations are matched and written. -/
structure StylesheetOptions where
  /-- Keywords that every property knows. -/
  keywords : List String
  keywordAliases : Table
  /-- Properties whose numbers have no unit. -/
  unitless : List String
  unitAliases : Table
  intUnit : String
  floatUnit : String
  /-- Colors are written with three digits where possible. -/
  shortHex : Bool
  /-- What stands between a property and its value. -/
  between : String
  /-- What stands behind a declaration. -/
  after : String
  /-- Declarations are members of an object. -/
  json : Bool
  jsonDoubleQuotes : Bool
  /-- Matches below this score are refused. -/
  minScore : Float
  /-- Only snippets that contain the whole abbreviation match. -/
  strictMatch : Bool

/-- All options. -/
structure Options where
  inlineElements : List String
  output : OutputOptions
  markup : MarkupOptions
  comment : CommentOptions
  block : BlockOptions
  jsx : Bool
  stylesheet : StylesheetOptions

namespace Options

/-- The options where nothing else is asked for. -/
def default : Options where
  inlineElements :=
    ["a", "abbr", "acronym", "applet", "b", "basefont", "bdo", "big", "br", "button", "cite",
      "code", "del", "dfn", "em", "font", "i", "iframe", "img", "input", "ins", "kbd", "label",
      "map", "object", "q", "s", "samp", "select", "small", "span", "strike", "strong", "sub",
      "sup", "textarea", "tt", "u", "var"]
  output :=
    { indent := "\t"
      baseIndent := ""
      newline := "\n"
      tagCase := .keep
      attributeCase := .keep
      attributeQuotes := .double
      format := true
      formatLeafNode := false
      formatSkip := ["html"]
      formatForce := ["body"]
      inlineBreak := 3
      compactBoolean := false
      booleanAttributes :=
        ["contenteditable", "seamless", "async", "autofocus", "autoplay", "checked", "controls",
          "defer", "disabled", "formnovalidate", "hidden", "ismap", "loop", "multiple", "muted",
          "novalidate", "readonly", "required", "reversed", "selected", "typemustmatch"]
      reverseAttributes := false
      closingStyle := .html
      field := defaultField
      text := id }
  markup := { href := true, renames := .empty, valuePrefixes := .empty }
  comment :=
    { enabled := false
      trigger := ["id", "class"]
      before := ""
      after := "\n<!-- /[#ID][.CLASS] -->" }
  block := { enabled := false, element := "__", modifier := "_" }
  jsx := false
  stylesheet :=
    { keywords := ["auto", "inherit", "unset", "none"]
      keywordAliases := .ofList
        [("a", "auto"), ("i", "inherit"), ("s", "solid"), ("da", "dashed"), ("do", "dotted"),
          ("t", "transparent")]
      unitless :=
        ["z-index", "line-height", "opacity", "font-weight", "zoom", "flex", "flex-grow",
          "flex-shrink"]
      unitAliases := .ofList [("e", "em"), ("p", "%"), ("x", "ex"), ("r", "rem")]
      intUnit := "px"
      floatUnit := "em"
      shortHex := true
      between := ": "
      after := ";"
      json := false
      jsonDoubleQuotes := false
      minScore := 0.0
      strictMatch := false }

/-- Use another style for tags that close themselves. -/
def closing (options : Options) (style : ClosingStyle) : Options :=
  { options with output := { options.output with closingStyle := style } }

/-- Use other marks around values of declarations. -/
def declaring (options : Options) (between after : String) : Options :=
  { options with stylesheet := { options.stylesheet with between, after } }

/-- The default options of a dialect. -/
def ofDialect : Dialect → Options
  | .xhtml => default.closing .xhtml
  | .xml | .xsl => default.closing .xml
  | .jsx =>
    { default.closing .xhtml with
      jsx := true
      markup :=
        { default.markup with
          renames := .ofList [("class", "className"), ("class*", "styleName"), ("for", "htmlFor")]
          valuePrefixes := .ofList [("class*", "styles")] } }
  | .sass | .sss => default.declaring ": " ""
  | .stylus => default.declaring " " ""
  | _ => default

end Options

end Shorthand
