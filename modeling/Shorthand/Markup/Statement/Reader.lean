import Shorthand.Markup.Statement
import Shorthand.Markup.Token.Lexer

/-!
# Reading statements from tokens

```
statements := (element | group) (child statements | sibling statements | climb+ statements)?
group      := "(" statements ")" repeater?
element    := name? (repeater | text | short attribute | attribute list)* (close repeater?)?
```

Every reader takes tokens from the front of a list and returns what is left. Statements are
read in one loop over a place in the tree and the places outside the groups still open.
-/

namespace Shorthand.Markup

namespace Token

/-- Whether a token is the given operator. -/
def isOperator (operator : Operator) (token : Token) : Bool := token.kind == .operator operator

/-- Whether a token is the given bracket. -/
def isBracket (enclosure : Enclosure) (isOpen : Bool) (token : Token) : Bool :=
  token.kind == .bracket isOpen enclosure

/-- Whether a token is white space. -/
def isWhiteSpace (token : Token) : Bool :=
  match token.kind with
  | .whiteSpace _ => true
  | _ => false

/-- The repeat that a token writes. -/
def repeat? (token : Token) : Option Repeat :=
  match token.kind with
  | .repeater count isImplicit => some ⟨count, isImplicit⟩
  | _ => none

/-- Whether a token can be part of an element name. -/
def isNamePart (token : Token) : Bool :=
  match token.kind with
  | .literal _ | .repeaterNumber _ _ _ _ | .repeaterPlaceholder => true
  | _ => false

/-- Whether a token is a literal that begins with a capital. -/
def isCapitalized (token : Token) : Bool :=
  match token.kind with
  | .literal value => value.toList.head?.any CharClass.capital
  | _ => false

/-- Whether a token ends a literal outside of braces. -/
def separatesLiterals (token : Token) : Bool :=
  match token.kind with
  | .quote _ | .operator _ | .whiteSpace _ | .repeater _ _ => true
  | _ => false

end Token

/-- Read a repeater if one is next. -/
def readRepeat : List Token → Option Repeat × List Token
  | [] => (none, [])
  | token :: rest =>
    match token.repeat? with
    | some repetition => (some repetition, rest)
    | none => (none, token :: rest)

/-! ### Text and literals -/

/-- The tokens up to and including the brace that closes a text, or all of them, and what is
left; `depth` braces are open inside the text. -/
def throughBrace : Nat → List Token → List Token × List Token
  | _, [] => ([], [])
  | depth, token :: rest =>
    if token.isBracket .expression false then
      match depth with
      | 0 => ([token], rest)
      | depth + 1 => let (taken, left) := throughBrace depth rest; (token :: taken, left)
    else if token.isBracket .expression true then
      let (taken, left) := throughBrace (depth + 1) rest
      (token :: taken, left)
    else
      let (taken, left) := throughBrace depth rest
      (token :: taken, left)

/-- Drop a closing brace at the end of a token list. -/
def dropFinalBrace (tokens : List Token) : List Token :=
  if tokens.getLast?.any (Token.isBracket .expression false) then tokens.dropLast else tokens

/-- Read a text in braces; the answer is what stands between them. -/
def readText : List Token → Option (List Token × List Token)
  | [] => none
  | token :: rest =>
    if token.isBracket .expression true then
      let (taken, left) := throughBrace 0 rest
      some (dropFinalBrace taken, left)
    else
      none

/-- Read a literal: tokens that belong together without separators. Brackets end it, unless
they are allowed; then they belong to it in pairs, and between braces everything does. -/
def readLiteral (allowBrackets : Bool) (attributes groups expressions : Nat) :
    List Token → List Token × List Token
  | [] => ([], [])
  | token :: rest =>
    let continued (attributes groups expressions : Nat) :=
      let (taken, left) := readLiteral allowBrackets attributes groups expressions rest
      (token :: taken, left)
    if 0 < expressions then
      if token.isBracket .expression true then
        continued attributes groups (expressions + 1)
      else if token.isBracket .expression false then
        continued attributes groups (expressions - 1)
      else
        continued attributes groups expressions
    else if token.separatesLiterals then
      ([], token :: rest)
    else
      match token.kind with
      | .bracket isOpen enclosure =>
        if !allowBrackets then
          ([], token :: rest)
        else if isOpen then
          match enclosure with
          | .attributes => continued (attributes + 1) groups expressions
          | .group => continued attributes (groups + 1) expressions
          | .expression => continued attributes groups (expressions + 1)
        else
          match enclosure, attributes, groups with
          | .attributes, attributes + 1, _ => continued attributes groups expressions
          | .group, _, groups + 1 => continued attributes groups expressions
          | _, _, _ => ([], token :: rest)
      | _ => continued attributes groups expressions

/-- The tokens up to and including the first of the given kind, and what is left. -/
def through? (kind : Token.Kind) : List Token → Option (List Token × List Token)
  | [] => none
  | token :: rest =>
    if token.kind = kind then
      some ([token], rest)
    else
      (through? kind rest).map fun (taken, left) => (token :: taken, left)

/-- Read a quoted value with its quotes. -/
def readQuoted : List Token → Except Notice (Option (List Token × List Token))
  | [] => .ok none
  | token :: rest =>
    match token.kind with
    | .quote isSingle =>
      match through? (.quote isSingle) rest with
      | some (taken, left) => .ok (some (token :: taken, left))
      | none => .error ⟨.unclosedQuote, token.span.start⟩
    | _ => .ok none

/-! ### Attributes -/

/-- Read the value behind an equals sign: quoted, plain or missing. -/
def readValue (tokens : List Token) : Except Notice (Option (List Token) × List Token) :=
  match readQuoted tokens with
  | .error fault => .error fault
  | .ok (some (value, left)) => .ok (some value, left)
  | .ok none =>
    match readLiteral true 0 0 0 tokens with
    | ([], _) => .ok (none, tokens)
    | (value, left) => .ok (some value, left)

/-- Read one attribute of a list: a quoted value alone, or a name and maybe a value. -/
def readAttribute (tokens : List Token) : Except Notice (Option (AttributeTokens × List Token)) :=
  match readQuoted tokens with
  | .error fault => .error fault
  | .ok (some (value, left)) => .ok (some (⟨none, some value, false, false⟩, left))
  | .ok none =>
    match readLiteral true 0 0 0 tokens with
    | ([], _) => .ok none
    | (name, []) => .ok (some (⟨some name, none, false, false⟩, []))
    | (name, next :: left) =>
      if next.isOperator .equal then
        match readValue left with
        | .error fault => .error fault
        | .ok (value, left) => .ok (some (⟨some name, value, false, false⟩, left))
      else
        .ok (some (⟨some name, none, false, false⟩, next :: left))

/-- What is passed and what is left of a text is all that was there. -/
theorem throughBrace_append (depth : Nat) (tokens : List Token) :
    (throughBrace depth tokens).1 ++ (throughBrace depth tokens).2 = tokens := by
  fun_induction throughBrace depth tokens <;> simp_all

/-- A literal and what is left behind it are all that was there. -/
theorem readLiteral_append (allowBrackets : Bool) (attributes groups expressions : Nat)
    (tokens : List Token) :
    (readLiteral allowBrackets attributes groups expressions tokens).1 ++
      (readLiteral allowBrackets attributes groups expressions tokens).2 = tokens := by
  induction tokens generalizing attributes groups expressions with
  | nil => rfl
  | cons token rest ih =>
    simp only [readLiteral]
    repeat' split
    all_goals simp [ih]

/-- What is gone through and what is left is all that was there. -/
theorem through?_append {kind : Token.Kind} {tokens taken left : List Token}
    (found : through? kind tokens = some (taken, left)) : taken ++ left = tokens := by
  induction tokens generalizing taken with
  | nil => simp [through?] at found
  | cons token rest ih =>
    simp only [through?] at found
    split at found
    · simp only [Option.some.injEq, Prod.mk.injEq] at found
      simp [← found.1, ← found.2]
    · simp only [Option.map_eq_some_iff, Prod.mk.injEq, Prod.exists] at found
      obtain ⟨inner, left', found, rfl, rfl⟩ := found
      simp [ih found]

/-- A quoted value takes some token. -/
theorem readQuoted_length {tokens taken left : List Token}
    (found : readQuoted tokens = .ok (some (taken, left))) : left.length < tokens.length := by
  cases tokens with
  | nil => simp [readQuoted] at found
  | cons token rest =>
    simp only [readQuoted] at found
    split at found
    · split at found
      · rename_i inner left' closed
        have whole := congrArg List.length (through?_append closed)
        simp only [Except.ok.injEq, Option.some.injEq, Prod.mk.injEq] at found
        obtain ⟨_, rfl⟩ := found
        simp only [List.length_append, List.length_cons] at whole ⊢
        omega
      · cases found
    · simp at found

/-- No more is left behind a literal than was there. -/
theorem readLiteral_length (allowBrackets : Bool) (attributes groups expressions : Nat)
    (tokens : List Token) :
    (readLiteral allowBrackets attributes groups expressions tokens).2.length ≤
      tokens.length := by
  have whole := congrArg List.length
    (readLiteral_append allowBrackets attributes groups expressions tokens)
  simp only [List.length_append] at whole
  omega

/-- No more is left behind a value than was there. -/
theorem readValue_length {tokens left : List Token} {value : Option (List Token)}
    (found : readValue tokens = .ok (value, left)) : left.length ≤ tokens.length := by
  unfold readValue at found
  split at found
  · cases found
  · rename_i taken left' quoted
    have shorter := readQuoted_length quoted
    simp only [Except.ok.injEq, Prod.mk.injEq] at found
    obtain ⟨_, rfl⟩ := found
    omega
  · have shorter := readLiteral_length true 0 0 0 tokens
    split at found
    · simp only [Except.ok.injEq, Prod.mk.injEq] at found
      simp [← found.2]
    · rename_i read
      simp only [Except.ok.injEq, Prod.mk.injEq] at found
      rw [read] at shorter
      simpa [← found.2] using shorter

/-- An attribute takes some token. -/
theorem readAttribute_length {tokens left : List Token} {attribute' : AttributeTokens}
    (found : readAttribute tokens = .ok (some (attribute', left))) :
    left.length < tokens.length := by
  unfold readAttribute at found
  split at found
  · cases found
  · rename_i taken left' quoted
    have shorter := readQuoted_length quoted
    simp only [Except.ok.injEq, Option.some.injEq, Prod.mk.injEq] at found
    obtain ⟨_, rfl⟩ := found
    exact shorter
  · have whole := congrArg List.length (readLiteral_append true 0 0 0 tokens)
    split at found
    · simp at found
    · rename_i name nonempty read
      have positive : 0 < name.length := by
        cases name with
        | nil => exact (nonempty rfl).elim
        | cons => simp
      simp only [read, List.length_append, List.length_nil] at whole
      simp only [Except.ok.injEq, Option.some.injEq, Prod.mk.injEq] at found
      simp only [← found.2, List.length_nil]
      omega
    · rename_i name next rest nonempty read
      have positive : 0 < name.length := by
        cases name with
        | nil => exact (nonempty rfl).elim
        | cons => simp
      simp only [read, List.length_append, List.length_cons] at whole
      split at found
      · split at found
        · cases found
        · rename_i value left' readRest
          have shorter := readValue_length readRest
          simp only [Except.ok.injEq, Option.some.injEq, Prod.mk.injEq] at found
          simp only [← found.2]
          omega
      · simp only [Except.ok.injEq, Option.some.injEq, Prod.mk.injEq] at found
        simp only [← found.2, List.length_cons]
        omega

/-- Read the attributes of a list whose opening bracket has been taken, up to and including
its closing bracket. The end of input closes it too. -/
def readAttributeList (tokens : List Token) :
    Except Notice (List AttributeTokens × List Token) :=
  match tokens with
  | [] => .ok ([], [])
  | token :: rest =>
    match _found : readAttribute (token :: rest) with
    | .error fault => .error fault
    | .ok (some (first, left)) =>
      match readAttributeList left with
      | .error fault => .error fault
      | .ok (others, left) => .ok (first :: others, left)
    | .ok none =>
      if token.isBracket .attributes false then
        .ok ([], rest)
      else if token.isWhiteSpace then
        readAttributeList rest
      else
        .error ⟨.misplaced token.kind.label, token.span.start⟩
termination_by tokens.length
decreasing_by
  · exact readAttribute_length _found
  · simp

/-- A literal token that no character of the abbreviation writes. -/
def impliedLiteral (value : String) : Token := ⟨.literal value, ⟨0, 0⟩⟩

/-- Read a class or an id after its operator, which may be written several times. -/
def readShortAttribute (jsx : Bool) (operator : Operator) (name : String)
    (tokens : List Token) : Option (AttributeTokens × List Token) :=
  let marks := tokens.takeWhile (Token.isOperator operator)
  let rest := tokens.dropWhile (Token.isOperator operator)
  if marks.isEmpty then
    none
  else
    let isMultiple : Bool := 1 < marks.length
    let name := some [impliedLiteral name]
    match if jsx then readText rest else none with
    | some (value, left) => some (⟨name, some value, true, isMultiple⟩, left)
    | none =>
      match readLiteral false 0 0 0 rest with
      | ([], _) => some (⟨name, none, false, isMultiple⟩, rest)
      | (value, left) => some (⟨name, some value, false, isMultiple⟩, left)

/-- Read an id, a class or an attribute list. -/
def readAttributes (jsx : Bool) (tokens : List Token) :
    Except Notice (Option (List AttributeTokens × List Token)) :=
  match readShortAttribute jsx .identifier "id" tokens with
  | some (found, left) => .ok (some ([found], left))
  | none =>
    match readShortAttribute jsx .className "class" tokens with
    | some (found, left) => .ok (some ([found], left))
    | none =>
      match tokens with
      | [] => .ok none
      | token :: rest =>
        if token.isBracket .attributes true then
          match readAttributeList rest with
          | .error fault => .error fault
          | .ok found => .ok (some found)
        else
          .ok none

/-! ### Elements -/

/-- Read pairs of a dot and a capitalized name. -/
def readDottedNames : List Token → List Token × List Token
  | dot :: name :: rest =>
    if dot.isOperator .className && name.isCapitalized then
      let (taken, left) := readDottedNames rest
      (dot :: name :: taken, left)
    else
      ([], dot :: name :: rest)
  | tokens => ([], tokens)

/-- Read an element name. Where components are known, a capitalized name takes the dotted
capitalized names behind it. -/
def readName (jsx : Bool) (tokens : List Token) : List Token × List Token :=
  let (component, rest) :=
    match tokens with
    | token :: rest =>
      if jsx && token.isCapitalized then
        let (dotted, left) := readDottedNames rest
        (token :: dotted, left)
      else
        ([], token :: rest)
    | [] => ([], [])
  (component ++ rest.takeWhile Token.isNamePart, rest.dropWhile Token.isNamePart)

/-- A text takes some token. -/
theorem readText_length {tokens text left : List Token}
    (found : readText tokens = some (text, left)) : left.length < tokens.length := by
  cases tokens with
  | nil => simp [readText] at found
  | cons token rest =>
    have whole := congrArg List.length (throughBrace_append 0 rest)
    simp only [readText] at found
    split at found
    · simp only [Option.some.injEq, Prod.mk.injEq] at found
      simp only [List.length_append] at whole
      simp only [← found.2, List.length_cons]
      omega
    · cases found

/-- No more is left behind an attribute list than was there. -/
theorem readAttributeList_length {tokens left : List Token} {found : List AttributeTokens}
    (read : readAttributeList tokens = .ok (found, left)) : left.length ≤ tokens.length := by
  fun_induction readAttributeList tokens generalizing found left with
  | case1 => simp_all
  | case2 => cases read
  | case3 => cases read
  | case4 token rest first between readFirst others left' readRest ih =>
    have shorter := readAttribute_length readFirst
    have notLonger := ih readRest
    simp only [Except.ok.injEq, Prod.mk.injEq] at read
    simp only [← read.2]
    omega
  | case5 token rest none' closing =>
    simp only [Except.ok.injEq, Prod.mk.injEq] at read
    simp [← read.2]
  | case6 token rest none' notClosing space ih =>
    have notLonger := ih read
    simp only [List.length_cons]
    omega
  | case7 => cases read

/-- No more items are left than there were. -/
theorem length_dropWhile_le {α : Type} (test : α → Bool) (items : List α) :
    (items.dropWhile test).length ≤ items.length :=
  (List.dropWhile_sublist test).length_le

/-- A class or an id takes some token. -/
theorem readShortAttribute_length {jsx : Bool} {operator : Operator} {name : String}
    {tokens left : List Token} {found : AttributeTokens}
    (read : readShortAttribute jsx operator name tokens = some (found, left)) :
    left.length < tokens.length := by
  have whole := congrArg List.length
    (List.takeWhile_append_dropWhile (p := Token.isOperator operator) (l := tokens))
  simp only [List.length_append] at whole
  unfold readShortAttribute at read
  simp only at read
  split at read
  · cases read
  · rename_i nonempty
    have positive : 0 < (tokens.takeWhile (Token.isOperator operator)).length := by
      cases marks : tokens.takeWhile (Token.isOperator operator) with
      | nil => simp [marks] at nonempty
      | cons => simp
    split at read
    · rename_i value left' readValue
      simp only [Option.some.injEq, Prod.mk.injEq] at read
      have shorter : left'.length < (tokens.dropWhile (Token.isOperator operator)).length := by
        cases jsx
        · simp at readValue
        · exact readText_length (by simpa using readValue)
      simp only [← read.2]
      omega
    · have notLonger := readLiteral_length false 0 0 0
        (tokens.dropWhile (Token.isOperator operator))
      split at read
      · simp only [Option.some.injEq, Prod.mk.injEq] at read
        simp only [← read.2]
        omega
      · rename_i readValue
        simp only [Option.some.injEq, Prod.mk.injEq] at read
        simp only [readValue] at notLonger
        simp only [← read.2]
        omega

/-- Attributes take some token. -/
theorem readAttributes_length {jsx : Bool} {tokens left : List Token}
    {found : List AttributeTokens}
    (read : readAttributes jsx tokens = .ok (some (found, left))) :
    left.length < tokens.length := by
  unfold readAttributes at read
  split at read
  · rename_i readIdentifier
    simp only [Except.ok.injEq, Option.some.injEq, Prod.mk.injEq] at read
    simp only [← read.2]
    exact readShortAttribute_length readIdentifier
  · split at read
    · rename_i readClass
      simp only [Except.ok.injEq, Option.some.injEq, Prod.mk.injEq] at read
      simp only [← read.2]
      exact readShortAttribute_length readClass
    · split at read
      · simp at read
      · split at read
        · split at read
          · cases read
          · rename_i readList
            simp only [Except.ok.injEq, Option.some.injEq] at read
            have notLonger := readAttributeList_length (read ▸ readList)
            simp only [List.length_cons]
            omega
        · simp at read

/-- Read what may follow in an element whose beginning is known: one repeater once the
element carries something, one text, attributes, and a closing slash at the end. -/
def extendHead (jsx : Bool) (head : Head) (tokens : List Token) :
    Except Notice (Head × List Token) :=
  match tokens with
  | [] => .ok (head, [])
  | token :: rest =>
    match if head.repetition.isNone && !head.isEmpty then token.repeat? else none with
    | some repetition => extendHead jsx { head with repetition := some repetition } rest
    | none =>
      match _foundText : if head.value.isNone then readText (token :: rest) else none with
      | some (text, left) => extendHead jsx { head with value := some text } left
      | none =>
        match _foundAttributes : readAttributes jsx (token :: rest) with
        | .error fault => .error fault
        | .ok (some (added, left)) => extendHead jsx (head.addAttributes added) left
        | .ok none =>
          if !head.isEmpty && token.isOperator .close then
            match head.repetition with
            | some _ => .ok ({ head with isSelfClosing := true }, rest)
            | none =>
              let (repetition, left) := readRepeat rest
              .ok ({ head with isSelfClosing := true, repetition }, left)
          else
            .ok (head, token :: rest)
termination_by tokens.length
decreasing_by
  · simp
  · cases empty : head.value.isNone
    · simp [empty] at _foundText
    · exact readText_length (by simpa [empty] using _foundText)
  · exact readAttributes_length _foundAttributes

/-- Read an element without the statements below it, if one begins here. -/
def readHead (jsx : Bool) (tokens : List Token) : Except Notice (Option (Head × List Token)) :=
  let (name, rest) := readName jsx tokens
  let named := if name.isEmpty then Head.empty else { Head.empty with name := some name }
  match extendHead jsx named rest with
  | .error fault => .error fault
  | .ok (head, left) => if head.isEmpty then .ok none else .ok (some (head, left))

end Shorthand.Markup
