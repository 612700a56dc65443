import Shorthand.Config
import Shorthand.Output.Writer
import Shorthand.Stylesheet.Declaration

/-!
# Writing declarations

Declarations are written as a name, a separator, a value and an end mark, or as members of an
object.
-/

namespace Shorthand.Stylesheet

/-- A number rounded to four places, without zeros at the end. -/
def numberText (value : Float) : String :=
  let rounded := (value * 10000.0).round / 10000.0
  let digits := Text.dropEndWhile (· == '0') (Decimal.fixed 4 rounded).toList
  let text := String.ofList (Text.dropEndWhile (· == '.') digits)
  if text = "-0" then "0" else text

/-- A color: a name for none at all, a hash and digits for an opaque one, and else a call. A
short form has one digit for each channel, where these are doubled digits. -/
def Color.text (isShort : Bool) (color : Color) : String :=
  let channels := [color.red, color.green, color.blue]
  let alpha := color.alpha.toFloat
  if channels.all (· == 0) && alpha == 0.0 then
    "transparent"
  else if alpha == 1.0 then
    if isShort && channels.all (· % 17 == 0) then
      "#" ++ String.ofList (channels.map fun channel => Digits.hexDigit (channel / 16))
    else
      "#" ++ String.join (channels.map Digits.hexByte)
  else
    "rgba(" ++ Text.join ", " (channels.map toString ++ [numberText alpha]) ++ ")"

/-- A number with its unit. -/
def quantityText (value : Float) (unit : String) : String := numberText value ++ unit

/-- A text in quotes. -/
def quotedText (value : String) (isSingle : Bool) : String :=
  let mark := if isSingle then "'" else "\""
  mark ++ value ++ mark

/-- A name whose dashes are dropped, with a capital behind each. -/
def camelCase (isCapital : Bool) : List Char → List Char
  | [] => []
  | c :: rest =>
    if c = '-' then camelCase true rest
    else if isCapital then LetterCase.upperChar c ++ camelCase false rest
    else c :: camelCase false rest

/-- Whether a token is a field without a blank in front. -/
def ValueToken.isGlued : ValueToken → Bool
  | .field _ _ isGlued => isGlued
  | _ => false

section

variable (config : Config)

/-- Write a text. -/
def push (text : String) (writer : Writer) : Writer :=
  writer.onStream (Stream.push config.options.output text)

mutual

/-- Write a value token. -/
def pushToken : ValueToken → Writer → Writer
  | .color color, writer => push config (color.text config.options.stylesheet.shortHex) writer
  | .literal value, writer => writer.onStream (Stream.pushText config.options.output value)
  | .customProperty value, writer => writer.onStream (Stream.pushText config.options.output value)
  | .number value _ unit, writer => push config (quantityText value unit) writer
  | .quoted value isSingle, writer => push config (quotedText value isSingle) writer
  | .field index name _, writer => writer.pushField config.options.output (index.getD 0) name
  | .call name arguments, writer =>
    push config ")" (pushArguments true arguments (push config (name ++ "(") writer))

/-- Write the tokens of a fragment, with blanks between those that are not glued. -/
def pushFragment (isFirst : Bool) : List ValueToken → Writer → Writer
  | [], writer => writer
  | token :: rest, writer =>
    let separated := if isFirst || token.isGlued then writer else push config " " writer
    pushFragment false rest (pushToken token separated)

/-- Write fragments with commas between them. -/
def pushArguments (isFirst : Bool) : List (List ValueToken) → Writer → Writer
  | [], writer => writer
  | fragment :: rest, writer =>
    let separated := if isFirst then writer else push config ", " writer
    pushArguments false rest (pushFragment true fragment separated)

end

/-- The text of a value token alone. -/
def tokenText (token : ValueToken) : String :=
  (pushToken config token (.empty 0)).stream.value

/-- Write the fragments of a declaration. -/
def pushFragments (fragments : List Fragment) (writer : Writer) : Writer :=
  pushArguments config true fragments writer

/-- Write the mark of an important declaration. -/
def pushImportant (isImportant isSeparated : Bool) (writer : Writer) : Writer :=
  if isImportant then
    push config "!important" (if isSeparated then push config " " writer else writer)
  else
    writer

/-- The number that stands alone in a value, if it needs no unit in an object. -/
def plainNumber? : List Fragment → Option Float
  | [[.number value _ unit]] => if unit.isEmpty || unit = "px" then some value else none
  | _ => none

/-- Write the value of an object member. -/
def pushMember (fragments : List Fragment) (writer : Writer) : Writer :=
  match plainNumber? fragments with
  | some value => push config (numberText value) writer
  | none =>
    let mark := if config.options.stylesheet.jsonDoubleQuotes then "\"" else "'"
    push config mark (pushFragments config fragments (push config mark writer))

/-- Write the value of a declaration, or a field where it has none. -/
def pushValue (fragments : List Fragment) (writer : Writer) : Writer :=
  if fragments.isEmpty then writer.pushField config.options.output 0 ""
  else if config.options.stylesheet.json then pushMember config fragments writer
  else pushFragments config fragments writer

/-- Write a declaration. -/
def pushDeclaration (resolved : Resolved) (writer : Writer) : Writer :=
  let declaration := resolved.declaration
  let options := config.options.stylesheet
  match declaration.name with
  | none =>
    let valued :=
      if resolved.isRaw then
        declaration.fragments.flatten.foldl (fun writer token => pushToken config token writer)
          writer
      else
        pushFragments config declaration.fragments writer
    pushImportant config declaration.isImportant (!declaration.fragments.isEmpty) valued
  | some name =>
    let written := if options.json then String.ofList (camelCase false name.toList) else name
    let valued :=
      pushValue config declaration.fragments (push config (written ++ options.between) writer)
    if options.json then
      push config "," valued
    else
      push config options.after (pushImportant config declaration.isImportant true valued)

/-- Write declarations, on lines of their own where text is laid out. The fields of each are
a group. -/
def pushDeclarations (isFirst : Bool) : List Resolved → Writer → Writer
  | [], writer => writer
  | resolved :: rest, writer =>
    let placed :=
      if config.options.output.format && !isFirst then
        writer.onStream (Stream.pushLine config.options.output)
      else
        writer
    pushDeclarations false rest (pushDeclaration config resolved placed).closeGroup

/-- The declarations that are written; in a section, only those that a snippet matches. -/
def shownDeclarations (declarations : List Resolved) : List Resolved :=
  if config.surroundings.any fun around => around.name == "@@section" then
    declarations.filter Resolved.isMatched
  else
    declarations

/-- The writer after all declarations. -/
def write (declarations : List Resolved) : Writer :=
  pushDeclarations config true (shownDeclarations config declarations) (.empty 0)

/-- The text of declarations. -/
def render (declarations : List Resolved) : String := (write config declarations).stream.value

end

end Shorthand.Stylesheet
