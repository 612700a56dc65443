import Shorthand.Config
import Shorthand.Output.Writer
import Shorthand.Markup.ImplicitTag

/-!
# What all markup writers share

Names in the case that is asked for, quotes, boolean attributes, inline elements and the
fields of a value.
-/

namespace Shorthand.Markup

/-- The name of a tag as it is written. -/
def tagName (config : Config) (name : String) : String := config.options.output.tagCase.apply name

/-- The name of an attribute as it is written. -/
def attributeName (config : Config) (name : String) : String :=
  config.options.output.attributeCase.apply name

/-- What stands in front of the value of an attribute and behind it. -/
def quotesOf (config : Config) (written : Attribute) : String × String :=
  if written.kind = .expression then
    ("\x7b", "\x7d")
  else
    let mark := config.options.output.attributeQuotes.mark
    (mark, mark)

/-- Whether an attribute is boolean: it is marked so, or its name is known. -/
def isBooleanAttribute (config : Config) (written : Attribute) : Bool :=
  written.isBoolean ||
    written.name.any fun name =>
      config.options.output.booleanAttributes.contains (LetterCase.lower name)

/-- Whether an element is inline: its name is, or it is nothing but text. -/
def isInline (config : Config) (element : Element) : Bool :=
  match element.name with
  | some name => isInlineName config name
  | none => !element.value.isEmpty && element.attributes.isEmpty

/-- Whether a part has a line break. -/
def Part.hasBreak : Part → Bool
  | .text written => written.toList.any fun c => c == '\r' || c == '\n'
  | .field _ _ => false

/-- The place where the cursor goes when nothing is written. -/
def caret : Value := [.field 0 ""]

/-- Write the parts of a value, texts in the given way. -/
def pushParts (config : Config) (pushText : String → Stream → Stream) :
    Value → Writer → Writer
  | [], writer => writer
  | .text text :: rest, writer => pushParts config pushText rest (writer.onStream (pushText text))
  | .field index name :: rest, writer =>
    pushParts config pushText rest (writer.pushField config.options.output index name)

/-- Write a value; its fields form a group. -/
def pushValue (config : Config) (pushText : String → Stream → Stream) (value : Value)
    (writer : Writer) : Writer :=
  (pushParts config pushText value writer).closeGroup

end Shorthand.Markup
