import Shorthand.Markup.Node
import Shorthand.Markup.Statement.Nesting
import Shorthand.Table
import Shorthand.Text.Address

/-!
# Unrolling statements into nodes

Repeated statements are written out copy by copy, numbers count the copies, and the wrapped
text goes into implicitly repeated elements or, if nothing asks for it, into the deepest
element at the end. A budget may bound the number of copies: a copy that is begun is always
finished.
-/

namespace Shorthand.Markup

/-- The text to wrap. -/
inductive WrappedText where
  | single (text : String)
  /-- One text for each copy of an implicitly repeated element. -/
  | lines (lines : List String)
  deriving DecidableEq, Repr

namespace WrappedText

/-- The whole text. -/
def whole : WrappedText → String
  | .single text => text
  | .lines written => Text.join "\n" written

/-- The lines that are not blank. -/
def filledLines (written : List String) : List String :=
  written.filter fun line => !Text.isBlank line

/-- The text for a copy, or the whole text outside of copies. -/
def forCopy (wrapped : WrappedText) (copy : Option Nat) : String :=
  match wrapped, copy with
  | .lines written, some index =>
    match (filledLines written)[index]? with
    | some line => line
    | none => (written[index]?).getD ""
  | wrapped, _ => wrapped.whole

/-- How many copies an implicit repeat makes; `none` keeps the count as written. -/
def copies? : WrappedText → Option Nat
  | .single _ => none
  | .lines written => some (filledLines written).length

end WrappedText

/-- What reading a markup abbreviation depends on. -/
structure ReadOptions where
  /-- Component names with dots and class expressions are known. -/
  jsx : Bool
  /-- A link that wraps an address points to it. -/
  linkAddresses : Bool
  text : Option WrappedText
  variableTexts : Table
  /-- The budget of copies. -/
  maxRepeat : Option Nat

/-- How far unrolling has come. -/
structure Progress where
  /-- An implicit repeat or a place for the text has been passed. -/
  isInserted : Bool
  /-- The wrapped text has been used. -/
  isTextUsed : Bool
  /-- The copies that may still be made, if they are bounded. -/
  budget : Option Nat
  /-- The copies that have been made. -/
  made : Nat
  deriving DecidableEq, Repr

namespace Progress

/-- Nothing has been unrolled. -/
def start (budget : Option Nat) : Progress := ⟨false, false, budget, 0⟩

/-- Count a finished copy. -/
def spend (progress : Progress) : Progress :=
  { progress with budget := progress.budget.map (· - 1), made := progress.made + 1 }

/-- No further copy may be made. -/
def isSpent (progress : Progress) : Bool := progress.budget == some 0

/-- The wrapped text has been used. -/
def useText (progress : Progress) : Progress := { progress with isTextUsed := true }

/-- A place of the wrapped text has been passed. -/
def insert (progress : Progress) : Progress := { progress with isInserted := true }

end Progress

/-! ### Tokens as text -/

/-- The number of a copy for a list of enclosing repeats, nearest first. Counting down starts
from the last copy, and looking up to an enclosing repeat goes on from its earlier copies.
Outside of repeats the number is one. -/
def copyNumber (enclosing : List Iteration) (isReverse : Bool) (base parent : Nat) : Nat :=
  match enclosing with
  | [] => 1
  | nearest :: outer =>
    let distance :=
      if isReverse then nearest.count - nearest.index - 1 else nearest.index
    let number := Digits.addSaturating base distance
    match outer[min parent outer.length - 1]? with
    | some above =>
      if parent = 0 then
        number
      else
        Digits.addSaturating number (Digits.mulSaturating nearest.count above.index)
    | none => number

/-- The most digits that a number can be padded to: they are counted in 16 bits. -/
def digitLimit : Nat := 65535

/-- Whether a token is a number with more dollar signs than a number can have digits. -/
def Token.Kind.isTooWide : Token.Kind → Bool
  | .repeaterNumber size _ _ _ => digitLimit < size
  | _ => false

/-- A number with at least `size` digits, which are no more than can be written. -/
def padded (size number : Nat) : String :=
  let digits := Nat.toDigits 10 number
  String.ofList (List.replicate (size - digits.length) '0' ++ digits)

/-- A field mark as it is written. -/
def fieldText (index : Nat) (name : String) : String :=
  if name.isEmpty then
    "$\x7b" ++ toString index ++ "\x7d"
  else
    "$\x7b" ++ toString index ++ ":" ++ name ++ "\x7d"

/-- The text of a token inside the given repeats. -/
def tokenText (options : ReadOptions) (enclosing : List Iteration) (token : Token)
    (progress : Progress) : String × Progress :=
  match token.kind with
  | .literal value => (value, progress)
  | .whiteSpace value => (value, progress)
  | .quote isSingle => (if isSingle then "'" else "\"", progress)
  | .bracket isOpen enclosure => ((enclosure.char isOpen).toString, progress)
  | .operator operator => (operator.char.toString, progress)
  | .repeater count isImplicit => (if isImplicit then "*" else "*" ++ toString count, progress)
  | .field (some index) name => (fieldText index name, progress)
  | .field none name =>
    (if name.isEmpty then "" else (options.variableTexts.get? name).getD name, progress)
  | .repeaterNumber size isReverse base parent =>
    (padded size (copyNumber enclosing isReverse base parent), progress)
  | .repeaterPlaceholder =>
    let copy := (enclosing.find? Iteration.isImplicit).map Iteration.index
    let text := match options.text with
      | some text => text.forCopy copy
      | none => ""
    (text, progress.insert.useText)

/-- The text of several tokens. -/
def tokensText (options : ReadOptions) (enclosing : List Iteration) :
    List Token → Progress → String × Progress
  | [], progress => ("", progress)
  | token :: rest, progress =>
    let (first, progress) := tokenText options enclosing token progress
    let (others, progress) := tokensText options enclosing rest progress
    (first ++ others, progress)

/-- Add the value of tokens behind a value. Numbered fields stay fields. -/
def tokensValue (options : ReadOptions) (enclosing : List Iteration) (value : Value) :
    List Token → Progress → Value × Progress
  | [], progress => (value, progress)
  | token :: rest, progress =>
    match token.kind with
    | .field (some index) name =>
      tokensValue options enclosing (value ++ [.field index name]) rest progress
    | _ =>
      let (text, progress) := tokenText options enclosing token progress
      let value := if text.isEmpty then value else value.pushText text
      tokensValue options enclosing value rest progress

/-! ### Attributes -/

/-- Take the marks off an attribute name: `!` in front of an implied one and a dot behind a
boolean one. -/
def splitMarks (name : String) : String × Bool × Bool :=
  let (name, isImplied) :=
    match Text.afterStart? "!" name with
    | some rest => (rest, true)
    | none => (name, false)
  match Text.beforeEnd? "." name with
  | some rest => (rest, isImplied, true)
  | none => (name, isImplied, false)

/-- Drop the last token if it satisfies the test. -/
def dropLastIf (test : Token → Bool) (tokens : List Token) : List Token :=
  if tokens.getLast?.any test then tokens.dropLast else tokens

/-- Take quotes or braces off a value and tell which they were. -/
def unquote (kind : ValueKind) : List Token → ValueKind × List Token
  | [] => (kind, [])
  | first :: rest =>
    match first.kind with
    | .quote isSingle =>
      (if isSingle then .singleQuoted else .doubleQuoted,
        dropLastIf (fun token => token.kind == .quote isSingle) rest)
    | .bracket true .expression =>
      (.expression, dropLastIf (Token.isBracket .expression false) rest)
    | _ => (kind, first :: rest)

/-- The attribute that its tokens write. -/
def attributeOfTokens (options : ReadOptions) (enclosing : List Iteration)
    (written : AttributeTokens) (progress : Progress) : Attribute × Progress :=
  let (marked, progress) : Option String × Progress :=
    match written.name with
    | none => (none, progress)
    | some tokens =>
      let (text, progress) := tokensText options enclosing tokens progress
      (some text, progress)
  let (name, isImplied, isBoolean) : Option String × Bool × Bool :=
    match marked with
    | none => (none, false, false)
    | some text =>
      let (name, marks) := splitMarks text
      (some name, marks)
  let kind := if written.isExpression then ValueKind.expression else ValueKind.raw
  match written.value with
  | none => (⟨name, none, isBoolean, isImplied, kind, written.isMultiple⟩, progress)
  | some tokens =>
    let (kind, tokens) := unquote kind tokens
    let (value, progress) := tokensValue options enclosing [] tokens progress
    (⟨name, some value, isBoolean, isImplied, kind, written.isMultiple⟩, progress)

/-- The attributes of an element, from first to last. -/
def attributesOfTokens (options : ReadOptions) (enclosing : List Iteration) :
    List AttributeTokens → Progress → List Attribute × Progress
  | [], progress => ([], progress)
  | written :: rest, progress =>
    let (first, progress) := attributeOfTokens options enclosing written progress
    let (others, progress) := attributesOfTokens options enclosing rest progress
    (first :: others, progress)

/-! ### Copies -/

/-- Put the text of a copy into the deepest element of its last node, unless the text has a
place already. -/
def fillCopy (options : ReadOptions) (iteration : Iteration) (nodes : List Node)
    (progress : Progress) : List Node × Progress :=
  match options.text with
  | none => (nodes, progress)
  | some text =>
    if !iteration.isImplicit || progress.isInserted || nodes.isEmpty then
      (nodes, progress)
    else
      let line := text.forCopy (some iteration.index)
      (Node.mapLastDeepest (fun element => .node (element.pushText line) []) nodes,
        progress.useText)

/-- Make the copies from `iteration` on, of which `remaining` are left, until the budget is
spent. -/
def copiesFrom (options : ReadOptions) (iteration : Iteration)
    (copy : Iteration → Progress → List Node × Progress) :
    Nat → Progress → List Node × Progress
  | 0, progress => ([], progress)
  | remaining + 1, progress =>
    let current := { iteration with index := iteration.count - (remaining + 1) }
    let (nodes, progress) := copy current progress
    let (nodes, progress) := fillCopy options current nodes progress
    let progress := progress.spend
    if progress.isSpent then
      (nodes, progress)
    else
      let (others, progress) := copiesFrom options iteration copy remaining progress
      (nodes ++ others, progress)

/-- How many copies a repeat asks for. -/
def copyCount (options : ReadOptions) (repetition : Repeat) : Nat :=
  let written :=
    if repetition.isImplicit then
      (options.text.bind WrappedText.copies?).getD repetition.count
    else
      repetition.count
  max 1 written

/-- Make all copies that a repeat asks for, or the single one without a repeat. The copy is
told the repeats around it. -/
def copies (options : ReadOptions) (enclosing : List Iteration) (repetition : Option Repeat)
    (copy : List Iteration → Option Iteration → Progress → List Node × Progress)
    (progress : Progress) : List Node × Progress :=
  match repetition with
  | none => copy enclosing none progress
  | some repetition =>
    let count := copyCount options repetition
    let (nodes, progress) :=
      copiesFrom options ⟨count, 0, repetition.isImplicit⟩
        (fun iteration => copy (iteration :: enclosing) (some iteration)) count progress
    (nodes, if repetition.isImplicit then progress.insert else progress)

/-- One copy of an element, given how its children are unrolled. The children of an element
that is only text follow it as siblings. -/
def elementCopy (options : ReadOptions) (head : Head) (enclosing : List Iteration)
    (iteration : Option Iteration) (children : Progress → List Node × Progress)
    (progress : Progress) : List Node × Progress :=
  let (name, progress) : Option String × Progress :=
    match head.name with
    | none => (none, progress)
    | some tokens =>
      let (text, progress) := tokensText options enclosing tokens progress
      (some text, progress)
  let (value, progress) := tokensValue options enclosing [] (head.value.getD []) progress
  let (children, progress) := children progress
  let (attributes, progress) :=
    attributesOfTokens options enclosing (head.attributes.getD []) progress
  let element : Element := ⟨name, value, attributes, iteration, head.isSelfClosing⟩
  if element.isBare && !value.isEmpty && !value.hasField then
    (.node element [] :: children, progress)
  else
    ([.node element children], progress)

/-- Note the repeat of a group on its nodes that have none of their own. -/
def markIteration (iteration : Option Iteration) (nodes : List Node) : List Node :=
  nodes.map (Node.mapElement fun element =>
    { element with iteration := element.iteration <|> iteration })

mutual

/-- Unroll a statement inside the given repeats. -/
def unroll (options : ReadOptions) (enclosing : List Iteration) :
    Statement → Progress → List Node × Progress
  | .element head children, progress =>
    copies options enclosing head.repetition
      (fun enclosing iteration =>
        elementCopy options head enclosing iteration (unrollAll options enclosing children))
      progress
  | .group members repetition, progress =>
    copies options enclosing repetition
      (fun enclosing iteration progress =>
        let (nodes, progress) := unrollAll options enclosing members progress
        (markIteration iteration nodes, progress))
      progress

/-- Unroll statements from first to last. -/
def unrollAll (options : ReadOptions) (enclosing : List Iteration) :
    List Statement → Progress → List Node × Progress
  | [], progress => ([], progress)
  | statement :: rest, progress =>
    let (nodes, progress) := unroll options enclosing statement progress
    let (others, progress) := unrollAll options enclosing rest progress
    (nodes ++ others, progress)

end

/-! ### Text that nothing asked for -/

/-- Point an element to the address that its text is. A target that is already written is
kept. -/
def linkTo (text : String) (element : Element) : Element :=
  let target : Option Value := some [.text (Address.target text)]
  match element.attribute? "href" with
  | some _ =>
    element.updateAttribute "href" fun found =>
      if (found.value.getD []).isEmpty then { found with value := target } else found
  | none =>
    { element with
      attributes := element.attributes ++
        [{ Attribute.named "href" target with kind := .doubleQuoted }] }

/-- Put the whole text into an element, and point a link to it. -/
def wrapText (options : ReadOptions) (text : String) (element : Element) : Element :=
  let filled := element.pushText text
  if options.linkAddresses && element.name == some "a" then linkTo text filled else filled

/-- The nodes that statements stand for. -/
def nodesOfStatements (options : ReadOptions) (statements : List Statement) : List Node :=
  let (nodes, progress) := unrollAll options [] statements (.start options.maxRepeat)
  match options.text with
  | none => nodes
  | some text =>
    if progress.isTextUsed then
      nodes
    else
      Node.mapLastDeepest (fun element => .node (wrapText options text.whole element) []) nodes

/-- Read a markup abbreviation, if all of its numbers can be written. -/
def nodes (options : ReadOptions) (source : String) : Except Fault (List Node) := do
  return nodesOfStatements options (← statements options.jsx source)

/-- Whether a number of the statements is too wide to be written. As every repeat makes a copy,
each of them is written at least once. -/
def hasWideNumber (statements : List Statement) : Bool :=
  (headsAll statements).any fun head => head.tokens.any (·.kind.isTooWide)

/-- Read a markup abbreviation. The program stops at a number that is too wide to be written. -/
def parse (options : ReadOptions) (source : String) : Except Failure (List Node) :=
  match statements options.jsx source with
  | .error fault => .error (.fault fault)
  | .ok found =>
    if hasWideNumber found then .error .crash else .ok (nodesOfStatements options found)

end Shorthand.Markup
