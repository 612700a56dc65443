import Shorthand.Text.Lines

/-!
# Web and mail addresses

Wrapped text that looks like an address becomes the target of a link.
-/

namespace Shorthand.Address

/-- The beginnings that mark a text as a web address. -/
def starts : List String :=
  ["http://", "https://", "ftp://", "file://", "//", "www.", "ftp."]

/-- Whether a text begins like a web address and holds no blank. -/
def isWeb (text : String) : Bool :=
  starts.any fun start =>
    match Text.afterStart? start text with
    | some rest => rest.toList.all (· != ' ')
    | none => false

/-- A character of the name in front of the at sign. -/
def isMailbox (c : Char) : Bool := CharClass.word c || c == '.' || c == '+' || c == '-'

/-- A character between the dots of a host name. -/
def isLabel (c : Char) : Bool := CharClass.word c || c == '-'

/-- Whether a text is a mailbox, an at sign, a label, a dot and more labels and dots. -/
def isMail (text : String) : Bool :=
  let mailbox := text.toList.takeWhile isMailbox
  match text.toList.dropWhile isMailbox with
  | '@' :: host =>
    match host.dropWhile isLabel with
    | '.' :: rest =>
      !mailbox.isEmpty && host.head?.any isLabel && !rest.isEmpty &&
        rest.all fun c => isLabel c || c == '.'
    | _ => false
  | _ => false

/-- Whether some word of the text is directly followed by a colon. -/
def namesSchemeIn : List Char → Bool
  | first :: second :: rest =>
    (CharClass.word first && second == ':') || namesSchemeIn (second :: rest)
  | _ => false

/-- The link target of a text: an address of the web, completed if it names no scheme, or an
address for mail, or nothing. -/
def target (text : String) : String :=
  if isWeb text then
    if namesSchemeIn text.toList || (Text.afterStart? "//" text).isSome then
      text
    else
      "http://" ++ text
  else if isMail text then
    "mailto:" ++ text
  else
    ""

end Shorthand.Address
