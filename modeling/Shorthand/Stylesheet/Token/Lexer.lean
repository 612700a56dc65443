import Shorthand.Fault
import Shorthand.FieldMark
import Shorthand.Stylesheet.Token

/-!
# Reading the tokens of a stylesheet abbreviation

One pass from left to right. Outside of brackets a literal ends at a dash or digit, which
begin a value; inside of brackets, and where the whole input is one value, they belong to
it. A name that is directly followed by an opening bracket is one literal, whatever it was
split into.
-/

namespace Shorthand.Stylesheet

/-- A character of a name that may hold dashes and digits. -/
def isKeywordChar (c : Char) : Bool := CharClass.wordOrDigit c || c == '-'

/-- A character of a name outside of brackets. -/
def isLiteralChar (c : Char) : Bool := CharClass.wordLetter c || c == '%' || c == '/'

/-- A token at the front of the input. -/
abbrev Piece := Shorthand.Piece Token.Kind

/-- A name that begins with two dashes. -/
def scanCustomProperty : List Char → Option Piece
  | '-' :: '-' :: rest =>
    let name := rest.takeWhile isKeywordChar
    some ⟨.customProperty (String.ofList ('-' :: '-' :: name)), 2 + name.length⟩
  | _ => none

/-- The number of characters of digits with an optional point; there must be a digit. -/
def unsignedWidth (input : List Char) : Nat :=
  let whole := (input.takeWhile CharClass.digit).length
  match input.drop whole with
  | '.' :: rest =>
    let places := (rest.takeWhile CharClass.digit).length
    if whole = 0 && places = 0 then 0 else whole + 1 + places
  | _ => whole

/-- The number of characters of a number with an optional dash in front. -/
def numberWidth : List Char → Nat
  | '-' :: rest =>
    let width := unsignedWidth rest
    if width = 0 then 0 else width + 1
  | input => unsignedWidth input

/-- The unit behind a number: a percent sign or letters. -/
def scanUnit : List Char → List Char
  | '%' :: _ => ['%']
  | input => input.takeWhile CharClass.wordLetter

/-- A number with its unit. -/
def scanNumber (input : List Char) : Option Piece :=
  let width := numberWidth input
  if width = 0 then
    none
  else
    let raw := String.ofList (input.take width)
    let unit := scanUnit (input.drop width)
    some ⟨.number (((Decimal.ofText? raw).map Decimal.toFloat).getD 0.0) raw (String.ofList unit),
      width + unit.length⟩

/-- The opacity behind a point and the number of characters it covers. A point alone means
full opacity. -/
def scanOpacity : List Char → String × Nat
  | '.' :: rest =>
    let digits := rest.takeWhile CharClass.digit
    if digits.isEmpty then ("1", 1) else (String.ofList ('.' :: digits), 1 + digits.length)
  | _ => ("", 0)

/-- A color. A hash with nothing behind it is a color only at the end of the input. -/
def scanColor : List Char → Option Piece
  | '#' :: rest =>
    let raw (width : Nat) := String.ofList (rest.take width)
    let digits := rest.takeWhile CharClass.hexDigit
    if !digits.isEmpty then
      let (alpha, more) := scanOpacity (rest.drop digits.length)
      let width := digits.length + more
      some ⟨.color (Color.ofText (String.ofList digits) alpha (raw width)), 1 + width⟩
    else
      match rest with
      | 't' :: rest =>
        let (alpha, more) := scanOpacity rest
        let alpha := if alpha.isEmpty then "0" else alpha
        some ⟨.color (Color.ofText "0" alpha (raw (1 + more))), 2 + more⟩
      | rest =>
        let (alpha, width) := scanOpacity rest
        if !alpha.isEmpty || rest.isEmpty then
          some ⟨.color (Color.ofText "" alpha (raw width)), 1 + width⟩
        else
          some ⟨.literal "#", 1⟩
  | _ => none

/-- A quoted string. One that is not closed ends with the input. -/
def scanQuoted : List Char → Option Piece
  | [] => none
  | mark :: rest =>
    if CharClass.quote mark then
      let value := rest.takeWhile (· != mark)
      let closing := if value.length < rest.length then 1 else 0
      some ⟨.quoted (String.ofList value) (mark == '\''), 1 + value.length + closing⟩
    else
      none

/-- A round bracket. -/
def scanBracket : List Char → Option Piece
  | '(' :: _ => some ⟨.bracket true, 1⟩
  | ')' :: _ => some ⟨.bracket false, 1⟩
  | _ => none

/-- An operator. -/
def scanOperator : List Char → Option Piece
  | [] => none
  | c :: _ => (Operator.ofChar? c).map fun operator => ⟨.operator operator, 1⟩

/-- A run of blanks. -/
def scanWhiteSpace (input : List Char) : Option Piece :=
  let width := (input.takeWhile CharClass.space).length
  if width = 0 then none else some ⟨.whiteSpace, width⟩

/-- The number of characters of a literal: a variable, a name, or literal characters with an
optional point in front. `isShort` tells that a name ends at dashes and digits; a variable
keeps them unless it begins the abbreviation. -/
def literalWidth (isShort isFirst : Bool) (input : List Char) : Nat :=
  let run (test : Char → Bool) (rest : List Char) := (rest.takeWhile test).length
  match input with
  | [] => 0
  | c :: rest =>
    if c == '@' || c == '$' then
      1 + if isFirst then run isLiteralChar rest else run isKeywordChar rest
    else if CharClass.wordLetter c then
      1 + if isShort then run isLiteralChar rest else run isKeywordChar rest
    else if c == '.' then
      1 + run isLiteralChar rest
    else
      run isLiteralChar (c :: rest)

/-- A literal. -/
def scanLiteral (isShort isFirst : Bool) (input : List Char) : Option Piece :=
  let width := literalWidth isShort isFirst input
  if width = 0 then none else some ⟨.literal (String.ofList (input.take width)), width⟩

/-- The token at the front of the input. A fault is given by its offset from the front. -/
def scanToken (isShort isFirst : Bool) (input : List Char) : Except Nat (Option Piece) :=
  match FieldMark.scan input with
  | .error offset => .error offset
  | .ok (some (mark, width)) => .ok (some ⟨.field mark.index mark.name, width⟩)
  | .ok none =>
    .ok (scanCustomProperty input <|> scanNumber input <|> scanColor input <|>
      scanQuoted input <|> scanBracket input <|> scanOperator input <|>
      scanWhiteSpace input <|> scanLiteral isShort isFirst input)

namespace Token

/-- Whether an operator directly behind the token is always a token of its own, so that a
dash there is no sign. -/
def separatesOperator (token : Token) : Bool :=
  match token.kind with
  | .color _ => true
  | .number _ _ unit => unit.isEmpty
  | _ => false

/-- Whether a token can be a part of the name of a call. -/
def isCallNamePart (token : Token) : Bool :=
  match token.kind with
  | .literal _ | .number _ _ _ => true
  | _ => false

end Token

/-- Make one literal of the parts of a call name at the end of the tokens read so far, which
are given last first. -/
def mergeCallName (source : List Char) (read : List Token) : List Token :=
  let parts := read.takeWhile Token.isCallNamePart
  match parts.head?, parts.getLast? with
  | some last, some first =>
    let span : Span := ⟨first.span.start, last.span.stop⟩
    let name := (source.take span.stop).drop span.start
    ⟨.literal (String.ofList name), span⟩ :: read.dropWhile Token.isCallNamePart
  | _, _ => read

/-- Read the tokens of the remaining characters of a source, which begin at `offset`; `read`
holds the tokens before them, last first, and `depth` the number of open brackets. -/
def tokensFrom (isValue : Bool) (source : List Char) (depth offset : Nat) (read : List Token) :
    List Char → Except Notice (List Token)
  | [] => .ok read.reverse
  | first :: rest =>
    match scanToken (depth == 0 && !isValue) (offset == 0) (first :: rest) with
    | .error distance => .error ⟨.missingBrace, offset + distance⟩
    | .ok (some ⟨kind, more + 1⟩) =>
      let stop := offset + (more + 1)
      let token : Token := ⟨kind, ⟨offset, stop⟩⟩
      match kind with
      | .bracket true =>
        let read := if depth = 0 then mergeCallName source read else read
        tokensFrom isValue source (depth + 1) stop (token :: read) (rest.drop more)
      | .bracket false =>
        if depth = 0 then
          .error ⟨.unexpectedBracket, offset⟩
        else
          tokensFrom isValue source (depth - 1) stop (token :: read) (rest.drop more)
      | _ =>
        match if token.separatesOperator then scanOperator (rest.drop more) else none with
        | some separator =>
          tokensFrom isValue source depth (stop + 1)
            (⟨separator.kind, ⟨stop, stop + 1⟩⟩ :: token :: read) (rest.drop (more + 1))
        | none => tokensFrom isValue source depth stop (token :: read) (rest.drop more)
    | .ok _ => .error ⟨.unexpectedCharacter, offset⟩
termination_by input => input.length
decreasing_by
  all_goals
    simp only [List.length_drop, List.length_cons]
    omega

/-- The tokens of a stylesheet abbreviation, or of a property value alone. -/
def tokens (isValue : Bool) (source : String) : Except Fault (List Token) :=
  (tokensFrom isValue source.toList 0 0 [] source.toList).mapError (Notice.within source)

end Shorthand.Stylesheet
