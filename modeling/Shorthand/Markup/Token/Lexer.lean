import Shorthand.Fault
import Shorthand.FieldMark
import Shorthand.Markup.Token

/-!
# Reading the tokens of a markup abbreviation

One pass from left to right. The depth of each enclosure and the open quote decide whether a
character is an operator or part of a literal: between square brackets only `=` is an
operator, between braces and quotes none is. Each recogniser looks at the front of the
remaining characters and tells which token it found and how many characters that covers.
-/

namespace Shorthand.Markup

/-- How deep the reader is inside each enclosure, and the quote it is inside of. Closing
brackets without an opening one make a depth negative. -/
structure Depths where
  group : Int
  attributes : Int
  expression : Int
  quote : Option Char
  deriving DecidableEq, Repr

namespace Depths

/-- Outside of everything. -/
def outside : Depths := ⟨0, 0, 0, none⟩

/-- The depths after a token that begins with the character `first`. -/
def after (depths : Depths) (first : Char) : Token.Kind → Depths
  | .quote _ =>
    { depths with quote := if depths.quote = some first then none else some first }
  | .bracket isOpen enclosure =>
    let change : Int := if isOpen then 1 else -1
    match enclosure with
    | .group => { depths with group := depths.group + change }
    | .attributes => { depths with attributes := depths.attributes + change }
    | .expression => { depths with expression := depths.expression + change }
  | _ => depths

/-- Whether a character is an operator here. -/
def admitsOperator (depths : Depths) (c : Char) : Bool :=
  match Operator.ofChar? c with
  | none => false
  | some operator =>
    depths.quote.isNone && depths.expression ≤ 0 &&
      (depths.attributes == 0 || operator == .equal)

end Depths

/-- A character of an element name. -/
def isNameChar (c : Char) : Bool :=
  CharClass.wordOrDigit c || CharClass.accented c || c == '-' || c == ':' || c == '!'

/-- A token at the front of the input. -/
abbrev Piece := Shorthand.Piece Token.Kind

/-- The place of the wrapped text: a dollar sign and a hash. -/
def scanPlaceholder : List Char → Option Piece
  | '$' :: '#' :: _ => some ⟨.repeaterPlaceholder, 2⟩
  | _ => none

/-- The number of a copy: dollar signs, and after an at sign carets, a dash and digits. -/
def scanNumber (input : List Char) : Option Piece :=
  let size := (input.takeWhile (· == '$')).length
  if size = 0 then
    none
  else
    match input.drop size with
    | '@' :: rest =>
      let parent := (rest.takeWhile (· == '^')).length
      let afterParent := rest.drop parent
      let isReverse := afterParent.head? == some '-'
      let dash := if isReverse then 1 else 0
      let digits := (afterParent.drop dash).takeWhile CharClass.digit
      let base := if digits.isEmpty then 1 else (Digits.word? digits).getD 1
      some ⟨.repeaterNumber size isReverse base parent,
        size + 1 + parent + dash + digits.length⟩
    | _ => some ⟨.repeaterNumber size false 1 0, size⟩

/-- A repeat count: an asterisk and digits. -/
def scanRepeater : List Char → Option Piece
  | '*' :: rest =>
    let digits := rest.takeWhile CharClass.digit
    if digits.isEmpty then
      some ⟨.repeater 1 true, 1⟩
    else
      some ⟨.repeater ((Digits.word? digits).getD 1) false, 1 + digits.length⟩
  | _ => none

/-- A run of blanks. -/
def scanWhiteSpace (input : List Char) : Option Piece :=
  let run := input.takeWhile CharClass.space
  if run.isEmpty then none else some ⟨.whiteSpace (String.ofList run), run.length⟩

/-- A literal read so far: its text with escapes resolved, the characters it covers, and the
depth of braces behind it. -/
structure LiteralRun where
  text : List Char
  width : Nat
  expression : Int
  deriving DecidableEq, Repr

/-- Put a character of the text in front, written with `width` characters. -/
def LiteralRun.cons (c : Char) (width : Nat) (run : LiteralRun) : LiteralRun :=
  { run with text := c :: run.text, width := run.width + width }

/-- Whether a slash stands between two digits, outside of everything but groups. -/
def joinsDigits (depths : Depths) (previous : Option Char) (rest : List Char) : Bool :=
  depths.quote.isNone && depths.expression == 0 && depths.attributes == 0 &&
    previous.any CharClass.digit && rest.head?.any CharClass.digit

/-- Whether a character ends every literal here. -/
def endsLiteral (depths : Depths) (c : Char) : Bool :=
  depths.quote == some c || c == '$' || depths.admitsOperator c

/-- Whether a character ends a literal that began outside of braces. -/
def endsPlainLiteral (depths : Depths) (c : Char) : Bool :=
  depths.quote.isNone &&
    ((depths.attributes == 0 && !isNameChar c) ||
      (CharClass.space c && depths.expression == 0) ||
      (c == '*' && depths.attributes == 0 && depths.expression == 0) ||
      CharClass.quote c || (Enclosure.ofChar? c).isSome)

/-- Read a literal that began at the depth `base` of braces. Between braces, further pairs
of braces belong to the literal; a backslash takes the next character as it is. -/
def literalRun (base : Int) (depths : Depths) (previous : Option Char) :
    List Char → LiteralRun
  | [] => ⟨[], 0, depths.expression⟩
  | c :: rest =>
    if c = '\\' then
      match rest with
      | [] => ⟨[], 1, depths.expression⟩
      | escaped :: rest => (literalRun base depths (some escaped) rest).cons escaped 2
    else if c = '/' && joinsDigits depths previous rest then
      (literalRun base depths (some c) rest).cons c 1
    else if endsLiteral depths c then
      ⟨[], 0, depths.expression⟩
    else if 0 < base then
      if c = '{' then
        let deeper := { depths with expression := depths.expression + 1 }
        (literalRun base deeper (some c) rest).cons c 1
      else if c = '}' then
        if base < depths.expression then
          let shallower := { depths with expression := depths.expression - 1 }
          (literalRun base shallower (some c) rest).cons c 1
        else
          ⟨[], 0, depths.expression⟩
      else
        (literalRun base depths (some c) rest).cons c 1
    else if endsPlainLiteral depths c then
      ⟨[], 0, depths.expression⟩
    else
      (literalRun base depths (some c) rest).cons c 1

/-- One character that is an operator, a quote or a bracket. -/
def scanMark : List Char → Option Piece
  | [] => none
  | c :: _ =>
    match Operator.ofChar? c with
    | some operator => some ⟨.operator operator, 1⟩
    | none =>
      if CharClass.quote c then
        some ⟨.quote (c == '\''), 1⟩
      else
        (Enclosure.ofChar? c).map fun enclosure =>
          ⟨.bracket (c == '(' || c == '[' || c == '{') enclosure, 1⟩

/-- The token at the front of the input, without fields, and the depths it leaves before its
own effect. A literal of no width is none. -/
def scanPlain (depths : Depths) (previous : Option Char) (input : List Char) :
    Option (Piece × Depths) :=
  let found := scanPlaceholder input <|> scanNumber input <|> scanRepeater input <|>
    scanWhiteSpace input
  match found with
  | some piece => some (piece, depths)
  | none =>
    let run := literalRun depths.expression depths previous input
    if run.width ≠ 0 then
      some (⟨.literal (String.ofList run.text), run.width⟩,
        { depths with expression := run.expression })
    else
      (scanMark input).map fun piece => (piece, depths)

/-- The token at the front of the input. Fields are recognised only inside attributes and
text. A fault is given by its offset from the front. -/
def scanToken (depths : Depths) (previous : Option Char) (input : List Char) :
    Except Nat (Option (Piece × Depths)) :=
  if 0 < depths.expression || 0 < depths.attributes then
    match FieldMark.scan input with
    | .error offset => .error offset
    | .ok (some (mark, width)) => .ok (some (⟨.field mark.index mark.name, width⟩, depths))
    | .ok none => .ok (scanPlain depths previous input)
  else
    .ok (scanPlain depths previous input)

/-- Read the tokens of the remaining characters, which begin at `offset`. -/
def tokensFrom (depths : Depths) (previous : Option Char) (offset : Nat) :
    List Char → Except Notice (List Token)
  | [] => .ok []
  | first :: rest =>
    match scanToken depths previous (first :: rest) with
    | .error distance => .error ⟨.missingBrace, offset + distance⟩
    | .ok (some (⟨kind, more + 1⟩, changed)) => do
      let stop := offset + (more + 1)
      let tokens ←
        tokensFrom (changed.after first kind) ((first :: rest)[more]?) stop (rest.drop more)
      return ⟨kind, ⟨offset, stop⟩⟩ :: tokens
    | .ok _ => .error ⟨.unexpectedCharacter, offset⟩
termination_by input => input.length
decreasing_by
  simp only [List.length_drop, List.length_cons]
  omega

/-- The tokens of a markup abbreviation. -/
def tokens (source : String) : Except Fault (List Token) :=
  (tokensFrom .outside none 0 source.toList).mapError (Notice.within source)

end Shorthand.Markup
