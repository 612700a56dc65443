import Shorthand.Markup.Statement.Nesting
import Shorthand.Proofs.Markup.Statement.Findings

/-!
# The grammar of statements

```
statements := statement more | nothing
more       := (child | sibling | climb+) statements | nothing
statement  := element | "(" statements ")" repeater?
element    := (name | part) (part | repeater)* (close repeater?)?
part       := text | mark+ (text | literal)? | "[" (attribute | blank)* "]"
attribute  := quoted | literal ("=" (quoted | literal)?)?
```

A written form that departs from this has slips, and they are listed with it: where no slip is
listed, the form follows the grammar.
-/

namespace Shorthand.Markup.Grammar

/-- A place where a written form departs from the grammar. -/
inductive Slip where
  /-- A statement follows another one without an operator between them. -/
  | unjoined
  /-- A group is ended by a token that is no closing bracket and begins no statement. -/
  | strayEnd (token : Token)
  /-- So many square and round brackets of a literal are not closed where it ends. -/
  | unclosed (attributes groups : Nat)
  deriving DecidableEq, Repr

/-! ### Texts, quotes and literals -/

/-- What follows an opening brace up to the one that closes it; `depth` braces are open inside. -/
inductive Braced : Nat → List Token → Prop where
  | closing {closing : Token} (isClosing : closing.isBracket .expression false) :
      Braced 0 [closing]
  | closesInner {depth : Nat} {closing : Token} {rest : List Token}
      (isClosing : closing.isBracket .expression false) (others : Braced depth rest) :
      Braced (depth + 1) (closing :: rest)
  | opensInner {depth : Nat} {opening : Token} {rest : List Token}
      (isOpening : opening.isBracket .expression true) (others : Braced (depth + 1) rest) :
      Braced depth (opening :: rest)
  | inside {depth : Nat} {token : Token} {rest : List Token}
      (notClosing : token.isBracket .expression false = false)
      (notOpening : token.isBracket .expression true = false) (others : Braced depth rest) :
      Braced depth (token :: rest)

/-- A text in braces. -/
inductive IsText : List Token → Prop where
  | braced {opening : Token} {rest : List Token}
      (isOpening : opening.isBracket .expression true) (inner : Braced 0 rest) :
      IsText (opening :: rest)

/-- A value between two quotes of one kind. -/
inductive IsQuoted : List Token → Prop where
  | quoted {isSingle : Bool} {opening closing : Token} {inner : List Token}
      (isOpening : opening.kind = .quote isSingle) (isClosing : closing.kind = .quote isSingle)
      (others : ∀ token ∈ inner, token.kind ≠ .quote isSingle) :
      IsQuoted (opening :: (inner ++ [closing]))

/-- A token that neither ends a literal nor is a bracket. -/
def isPlain (token : Token) : Bool :=
  !token.separatesLiterals && !(token.kind matches .bracket _ _)

/-- What is left of a literal in which so many brackets of each kind are open. Braces hold
anything. -/
inductive IsLiteral : Nat → Nat → Nat → List Slip → List Token → Prop where
  | ends : IsLiteral 0 0 0 [] []
  | unclosed {attributes groups : Nat} (isOpen : 0 < attributes + groups) :
      IsLiteral attributes groups 0 [.unclosed attributes groups] []
  | plain {attributes groups : Nat} {slips : List Slip} {token : Token} {rest : List Token}
      (isPlain : isPlain token) (others : IsLiteral attributes groups 0 slips rest) :
      IsLiteral attributes groups 0 slips (token :: rest)
  | opensAttributes {attributes groups : Nat} {slips : List Slip} {token : Token}
      {rest : List Token} (isOpening : token.isBracket .attributes true)
      (others : IsLiteral (attributes + 1) groups 0 slips rest) :
      IsLiteral attributes groups 0 slips (token :: rest)
  | closesAttributes {attributes groups : Nat} {slips : List Slip} {token : Token}
      {rest : List Token} (isClosing : token.isBracket .attributes false)
      (others : IsLiteral attributes groups 0 slips rest) :
      IsLiteral (attributes + 1) groups 0 slips (token :: rest)
  | opensGroup {attributes groups : Nat} {slips : List Slip} {token : Token}
      {rest : List Token} (isOpening : token.isBracket .group true)
      (others : IsLiteral attributes (groups + 1) 0 slips rest) :
      IsLiteral attributes groups 0 slips (token :: rest)
  | closesGroup {attributes groups : Nat} {slips : List Slip} {token : Token}
      {rest : List Token} (isClosing : token.isBracket .group false)
      (others : IsLiteral attributes groups 0 slips rest) :
      IsLiteral attributes (groups + 1) 0 slips (token :: rest)
  | opensBrace {attributes groups depth : Nat} {slips : List Slip} {token : Token}
      {rest : List Token} (isOpening : token.isBracket .expression true)
      (others : IsLiteral attributes groups (depth + 1) slips rest) :
      IsLiteral attributes groups depth slips (token :: rest)
  | closesBrace {attributes groups depth : Nat} {slips : List Slip} {token : Token}
      {rest : List Token} (isClosing : token.isBracket .expression false)
      (others : IsLiteral attributes groups depth slips rest) :
      IsLiteral attributes groups (depth + 1) slips (token :: rest)
  | inBraces {attributes groups depth : Nat} {slips : List Slip} {token : Token}
      {rest : List Token} (notClosing : token.isBracket .expression false = false)
      (notOpening : token.isBracket .expression true = false)
      (others : IsLiteral attributes groups (depth + 1) slips rest) :
      IsLiteral attributes groups (depth + 1) slips (token :: rest)

/-! ### Attributes -/

/-- The value behind an equals sign, which may be missing. -/
inductive IsValue : List Slip → List Token → Prop where
  | quoted {value : List Token} (isQuoted : IsQuoted value) : IsValue [] value
  | literal {slips : List Slip} {value : List Token} (isLiteral : IsLiteral 0 0 0 slips value) :
      IsValue slips value

/-- An attribute of a list. -/
inductive IsAttribute : List Slip → List Token → Prop where
  | quoted {tokens : List Token} (isQuoted : IsQuoted tokens) : IsAttribute [] tokens
  | named {slips : List Slip} {name : List Token} (filled : name ≠ [])
      (isName : IsLiteral 0 0 0 slips name) : IsAttribute slips name
  | assigned {slips more : List Slip} {name value : List Token} {equal : Token} (filled : name ≠ [])
      (isName : IsLiteral 0 0 0 slips name) (isEqual : equal.isOperator .equal)
      (isValue : IsValue more value) : IsAttribute (slips ++ more) (name ++ equal :: value)

/-- What follows an opening bracket up to the one that closes the list. -/
inductive IsList : List Slip → List Token → Prop where
  | closing {closing : Token} (isClosing : closing.isBracket .attributes false) :
      IsList [] [closing]
  | blank {slips : List Slip} {blank : Token} {rest : List Token} (isBlank : blank.isWhiteSpace)
      (others : IsList slips rest) : IsList slips (blank :: rest)
  | attribute {slips more : List Slip} {first rest : List Token}
      (isAttribute : IsAttribute slips first) (others : IsList more rest) :
      IsList (slips ++ more) (first ++ rest)

/-! ### Elements -/

/-- The dotted capitalized names behind a component. -/
inductive IsDotted : List Token → Prop where
  | nothing : IsDotted []
  | dotted {dot name : Token} {rest : List Token} (isDot : dot.isOperator .className)
      (isCapitalized : name.isCapitalized) (others : IsDotted rest) :
      IsDotted (dot :: name :: rest)

/-- The name of an element; components are known in some dialects. -/
inductive IsName (jsx : Bool) : List Token → Prop where
  | plain {name : List Token} (filled : name ≠ []) (parts : ∀ token ∈ name, token.isNamePart) :
      IsName jsx name
  | component {first : Token} {dotted parts : List Token} (isJsx : jsx)
      (isCapitalized : first.isCapitalized) (isDotted : IsDotted dotted)
      (areParts : ∀ token ∈ parts, token.isNamePart) :
      IsName jsx (first :: dotted ++ parts)

/-- The value of a short attribute, which may be missing. -/
inductive IsShortValue (jsx : Bool) : List Token → Prop where
  | text {value : List Token} (isJsx : jsx) (isText : IsText value) : IsShortValue jsx value
  | literal {value : List Token} (plain : ∀ token ∈ value, isPlain token) : IsShortValue jsx value

/-- A text, a class, an id or a list of attributes. -/
inductive IsPart (jsx : Bool) : List Slip → List Token → Prop where
  | text {tokens : List Token} (isText : IsText tokens) : IsPart jsx [] tokens
  | short {operator : Operator} {marks value : List Token}
      (isShort : operator = .identifier ∨ operator = .className) (filled : marks ≠ [])
      (areMarks : ∀ mark ∈ marks, mark.isOperator operator) (isValue : IsShortValue jsx value) :
      IsPart jsx [] (marks ++ value)
  | list {slips : List Slip} {opening : Token} {rest : List Token}
      (isOpening : opening.isBracket .attributes true) (isList : IsList slips rest) :
      IsPart jsx slips (opening :: rest)

/-- A repeater, or nothing. -/
inductive IsRepeat : List Token → Prop where
  | nothing : IsRepeat []
  | repeater {token : Token} (isRepeat : token.repeat?.isSome) : IsRepeat [token]

/-- The parts of an element behind its beginning. -/
inductive IsRest (jsx : Bool) : List Slip → List Token → Prop where
  | ends : IsRest jsx [] []
  | closes {close : Token} {repetition : List Token} (isClose : close.isOperator .close)
      (isRepeat : IsRepeat repetition) : IsRest jsx [] (close :: repetition)
  | repeated {slips : List Slip} {token : Token} {rest : List Token}
      (isRepeat : token.repeat?.isSome) (others : IsRest jsx slips rest) :
      IsRest jsx slips (token :: rest)
  | part {slips more : List Slip} {first rest : List Token} (isPart : IsPart jsx slips first)
      (others : IsRest jsx more rest) : IsRest jsx (slips ++ more) (first ++ rest)

/-- An element without the statements below it. -/
inductive IsElement (jsx : Bool) : List Slip → List Token → Prop where
  | named {slips : List Slip} {name rest : List Token} (isName : IsName jsx name)
      (others : IsRest jsx slips rest) : IsElement jsx slips (name ++ rest)
  | unnamed {slips more : List Slip} {first rest : List Token} (isPart : IsPart jsx slips first)
      (others : IsRest jsx more rest) : IsElement jsx (slips ++ more) (first ++ rest)

/-! ### Statements -/

/-- What stands between a statement and the next ones. -/
inductive IsJoint : List Token → Prop where
  | child {token : Token} (isChild : token.isOperator .child) : IsJoint [token]
  | sibling {token : Token} (isSibling : token.isOperator .sibling) : IsJoint [token]
  | climb {tokens : List Token} (filled : tokens ≠ [])
      (areClimbs : ∀ token ∈ tokens, token.isOperator .climb) : IsJoint tokens

/-- The end of a group. -/
inductive IsGroupEnd : List Slip → List Token → Prop where
  | closing {closing : Token} {repetition : List Token}
      (isClosing : closing.isBracket .group false) (isRepeat : IsRepeat repetition) :
      IsGroupEnd [] (closing :: repetition)
  | stray {token : Token} (notClosing : token.isBracket .group false = false)
      (notOpening : token.isBracket .group true = false)
      (beginsNone : token.beginsElement = false) : IsGroupEnd [.strayEnd token] [token]

/-- Which of two forms is written: statements, or what follows a statement. -/
inductive Form where
  | statements
  | more

/-- How statements are written, with the slips on the way. -/
inductive Written (jsx : Bool) : Form → List Slip → List Token → Prop where
  | nothing : Written jsx .statements [] []
  | element {slips others : List Slip} {first rest : List Token}
      (isElement : IsElement jsx slips first) (more : Written jsx .more others rest) :
      Written jsx .statements (slips ++ others) (first ++ rest)
  | group {inside slips others : List Slip} {opening : Token} {inner ending rest : List Token}
      (isOpening : opening.isBracket .group true) (members : Written jsx .statements inside inner)
      (isEnd : IsGroupEnd slips ending) (more : Written jsx .more others rest) :
      Written jsx .statements (inside ++ slips ++ others) (opening :: (inner ++ ending) ++ rest)
  | last : Written jsx .more [] []
  | joined {slips : List Slip} {joint rest : List Token} (isJoint : IsJoint joint)
      (next : Written jsx .statements slips rest) : Written jsx .more slips (joint ++ rest)
  | unjoined {slips : List Slip} {token : Token} {rest : List Token}
      (next : Written jsx .statements slips (token :: rest)) :
      Written jsx .more (.unjoined :: slips) (token :: rest)

end Shorthand.Markup.Grammar
