import Shorthand.Proofs.Markup.Statement.Findings
import Shorthand.Proofs.Markup.TokenCover
import Shorthand.Proofs.Refusals

/-!
# Where a markup abbreviation is refused

What the lexer notices, it notices inside of the abbreviation or right behind it. A reader leaves a
suffix of the tokens that it is given, and fails at a place among them.
-/

namespace Shorthand.Markup

/-! ### The lexer -/

/-- An open brace is noticed inside of the input or behind it. -/
theorem scanToken_error {depths : Depths} {previous : Option Char} {input : List Char}
    {distance : Nat} (scanned : scanToken depths previous input = .error distance) :
    distance ≤ input.length := by
  unfold scanToken at scanned
  split at scanned
  · split at scanned
    · next failed =>
      cases scanned
      exact FieldMark.scan_error failed
    · cases scanned
    · cases scanned
  · cases scanned

/-- The lexer's faults lie within the source. -/
theorem offset_le_of_tokensFrom {depths : Depths} {previous : Option Char} {offset : Nat}
    {source input : List Char} {notice : Notice} (remains : Remains source offset input)
    (failed : tokensFrom depths previous offset input = .error notice) :
    notice.offset ≤ source.length := by
  fun_induction tokensFrom depths previous offset input with
  | case1 => cases failed
  | case2 depths previous offset first rest distance scanned =>
    cases failed
    exact (remains.drop (scanToken_error scanned)).bounded
  | case3 depths previous offset first rest kind more changed scanned stop =>
    rename_i ih
    have behind : Remains source stop (rest.drop more) := remains.drop (scanToken_begins scanned).le
    generalize readMore : tokensFrom _ _ stop (rest.drop more) = others at failed
    cases others with
    | ok others => cases failed
    | error noticed =>
      cases failed
      exact ih behind readMore
  | case4 =>
    cases failed
    exact remains.bounded

/-! ### What the readers leave -/

section Suffixes

variable {tokens left : List Token}

/-- A repeater is read from the front of the tokens. -/
theorem readRepeat_suffix (tokens : List Token) : (readRepeat tokens).2 <:+ tokens := by
  generalize found : readRepeat tokens = answer
  obtain ⟨repetition, left⟩ := answer
  obtain ⟨-, rfl⟩ | ⟨token, _, -, -, rfl⟩ := readRepeat_finds found
  · exact List.suffix_rfl
  · exact List.suffix_cons token left

/-- A text is read from the front of the tokens. -/
theorem readText_suffix {text : List Token} (read : readText tokens = some (text, left)) :
    left <:+ tokens := by
  obtain ⟨opening, rest, -, rfl, -, rfl⟩ := readText_finds read
  exact List.IsSuffix.trans ⟨_, throughBrace_append 0 rest⟩ (List.suffix_cons opening rest)

/-- A literal is read from the front of the tokens. -/
theorem readLiteral_suffix (allowBrackets : Bool) (attributes groups expressions : Nat)
    (tokens : List Token) :
    (readLiteral allowBrackets attributes groups expressions tokens).2 <:+ tokens :=
  ⟨_, readLiteral_append allowBrackets attributes groups expressions tokens⟩

/-- A quoted value is read from the front of the tokens. -/
theorem readQuoted_suffix {taken : List Token}
    (read : readQuoted tokens = .ok (some (taken, left))) : left <:+ tokens := by
  obtain ⟨_, _, _, _, -, -, -, -, rfl⟩ := readQuoted_finds read
  exact List.suffix_append taken left

/-- A value is read from the front of the tokens. -/
theorem readValue_suffix {value : Option (List Token)}
    (read : readValue tokens = .ok (value, left)) : left <:+ tokens := by
  obtain quoted | literal := readValue_finds read
  · exact readQuoted_suffix quoted
  · have suffix := readLiteral_suffix true 0 0 0 tokens
    rwa [literal] at suffix

/-- An attribute is read from the front of the tokens. -/
theorem readAttribute_suffix {written : AttributeTokens}
    (read : readAttribute tokens = .ok (some (written, left))) : left <:+ tokens := by
  obtain ⟨value, -, quoted⟩ | ⟨name, value, behind, -, -, literal, ended⟩ :=
    readAttribute_finds read
  · exact readQuoted_suffix quoted
  · have suffix := readLiteral_suffix true 0 0 0 tokens
    rw [literal] at suffix
    obtain ⟨-, rfl⟩ | ⟨next, rest, -, rfl, assigned⟩ := ended
    · exact suffix
    · exact ((readValue_suffix assigned).trans (List.suffix_cons next rest)).trans suffix

/-- An attribute list is read from the front of the tokens. -/
theorem readAttributeList_suffix {found : List AttributeTokens}
    (read : readAttributeList tokens = .ok (found, left)) : left <:+ tokens := by
  fun_induction readAttributeList tokens generalizing found left with
  | case1 =>
    cases read
    exact List.suffix_rfl
  | case2 | case3 | case7 => cases read
  | case4 token rest first between readFirst others left' readRest ih =>
    cases read
    exact (ih readRest).trans (readAttribute_suffix readFirst)
  | case5 token rest none' isClosing =>
    cases read
    exact List.suffix_cons token rest
  | case6 token rest none' notClosing isBlank ih =>
    exact (ih read).trans (List.suffix_cons token rest)

/-- A class or an id is read from the front of the tokens. -/
theorem readShortAttribute_suffix {jsx : Bool} {operator : Operator} {name : String}
    {written : AttributeTokens}
    (read : readShortAttribute jsx operator name tokens = some (written, left)) :
    left <:+ tokens := by
  obtain ⟨-, marks, rest, -, -, rfl, ⟨-, text⟩ | literal⟩ := readShortAttribute_finds read
  · exact (readText_suffix text).trans (List.suffix_append marks rest)
  · have suffix := readLiteral_suffix false 0 0 0 rest
    rw [literal] at suffix
    exact suffix.trans (List.suffix_append marks rest)

/-- Attributes are read from the front of the tokens. -/
theorem readAttributes_suffix {jsx : Bool} {found : List AttributeTokens}
    (read : readAttributes jsx tokens = .ok (some (found, left))) : left <:+ tokens := by
  obtain ⟨_, _, _, -, -, short⟩ | ⟨opening, rest, -, rfl, listed⟩ := readAttributes_finds read
  · exact readShortAttribute_suffix short
  · exact (readAttributeList_suffix listed).trans (List.suffix_cons opening rest)

/-- What follows in an element is read from the front of the tokens. -/
theorem Extension.suffix {jsx : Bool} {head extended : Head}
    (extension : Extension jsx head tokens extended left) : left <:+ tokens := by
  induction extension with
  | ends => exact List.suffix_rfl
  | @closes head close rest left _ _ repetition behind =>
    obtain rfl | repeated := behind
    · exact List.suffix_cons close left
    · have suffix := readRepeat_suffix rest
      rw [repeated] at suffix
      exact suffix.trans (List.suffix_cons close rest)
  | @repeated _ _ token rest _ _ _ _ _ ih => exact ih.trans (List.suffix_cons token rest)
  | text _ isText _ ih => exact ih.trans (readText_suffix isText)
  | attributes areAttributes _ ih => exact ih.trans (readAttributes_suffix areAttributes)

/-- An element is read from the front of the tokens. -/
theorem readHead_suffix {jsx : Bool} {head : Head}
    (read : readHead jsx tokens = .ok (some (head, left))) : left <:+ tokens := by
  obtain ⟨-, name, rest, named, extension⟩ := readHead_finds read
  have whole := readName_append jsx tokens
  rw [named] at whole
  exact extension.suffix.trans ⟨name, whole⟩

/-- The operator behind a statement is read from the front of the tokens. -/
theorem Place.put_suffix (place : Place) (statement : Statement) (tokens : List Token) :
    (place.put statement tokens).2 <:+ tokens := by
  cases tokens with
  | nil => exact List.suffix_rfl
  | cons token rest =>
    rw [Place.put]
    split
    · exact List.suffix_cons token rest
    · split
      · exact List.suffix_cons token rest
      · exact List.dropWhile_suffix _

/-- The end of a group is read from the front of the tokens. -/
theorem readGroupEnd_suffix (token : Token) (rest : List Token) :
    (readGroupEnd token rest).2 <:+ rest := by
  rw [readGroupEnd]
  split
  · exact readRepeat_suffix rest
  · exact List.suffix_rfl

/-- Statements are read from the front of the tokens. -/
theorem readStatements_suffix {jsx : Bool} {place : Place} {outer : List Place}
    {found : List Statement} (read : readStatements jsx place outer tokens = .ok (found, left)) :
    left <:+ tokens := by
  fun_induction readStatements jsx place outer tokens with
  | case1 =>
    cases read
    exact List.suffix_rfl
  | case2 place around outer ih => exact ih read
  | case3 => cases read
  | case4 place outer token rest head behind readFirst ih =>
    exact ((ih read).trans (place.put_suffix _ behind)).trans (readHead_suffix readFirst)
  | case5 place outer token rest none' isOpening ih =>
    exact (ih read).trans (List.suffix_cons token rest)
  | case6 =>
    cases read
    exact List.suffix_rfl
  | case7 place token rest none' notOpening around outer statement ih =>
    exact (((ih read).trans (around.put_suffix statement _)).trans
      (readGroupEnd_suffix token rest)).trans (List.suffix_cons token rest)

end Suffixes

/-! ### Where the readers fail -/

section Failures

variable {jsx : Bool} {size : Nat}

/-- A quoted value fails at its opening quote. -/
theorem readQuoted_fails (tokens : List Token) :
    FailsIn Token.span size tokens (readQuoted tokens) := by
  cases tokens with
  | nil => exact .ok [] none
  | cons token rest =>
    rw [readQuoted]
    split
    · split
      · exact .ok _ _
      · exact .here (token :: rest) .unclosedQuote
    · exact .ok _ _

/-- A value fails where its quotes do. -/
theorem readValue_fails (tokens : List Token) :
    FailsIn Token.span size tokens (readValue tokens) := by
  rw [readValue]
  split
  · next failed => exact (readQuoted_fails tokens).passedOn failed
  · exact .ok _ _
  · split <;> exact .ok _ _

/-- An attribute fails where its value does. -/
theorem readAttribute_fails (tokens : List Token) :
    FailsIn Token.span size tokens (readAttribute tokens) := by
  rw [readAttribute]
  split
  · next failed => exact (readQuoted_fails tokens).passedOn failed
  · exact .ok _ _
  · split
    · exact .ok _ _
    · exact .ok _ _
    · next name next behind _ read =>
      have literal := readLiteral_suffix true 0 0 0 tokens
      rw [read] at literal
      have led : behind <:+ tokens := (List.suffix_cons next behind).trans literal
      split
      · split
        · next failed => exact ((readValue_fails behind).behind led).passedOn failed
        · exact .ok _ _
      · exact .ok _ _

/-- An attribute list fails in one of its attributes or at a token that is none. -/
theorem readAttributeList_fails (tokens : List Token) :
    FailsIn Token.span size tokens (readAttributeList tokens) := by
  fun_induction readAttributeList tokens with
  | case1 => exact .ok _ _
  | case2 token rest fault failed => exact (readAttribute_fails _).passedOn failed
  | case3 token rest first behind readFirst fault failed ih =>
    exact (ih.behind (readAttribute_suffix readFirst)).passedOn failed
  | case4 => exact .ok _ _
  | case5 => exact .ok _ _
  | case6 token rest none' notClosing isBlank ih => exact ih.behind (List.suffix_cons token rest)
  | case7 token rest none' notClosing notBlank => exact .here (token :: rest) _

/-- Attributes fail in an attribute list. -/
theorem readAttributes_fails (tokens : List Token) :
    FailsIn Token.span size tokens (readAttributes jsx tokens) := by
  unfold readAttributes
  split
  · exact .ok _ _
  · split
    · exact .ok _ _
    · split
      · exact .ok _ _
      · next token rest _ _ =>
        split
        · split
          · next failed =>
            exact ((readAttributeList_fails rest).behind (List.suffix_cons token rest)).passedOn
              failed
          · exact .ok _ _
        · exact .ok _ _

/-- What follows in an element fails in its attributes. -/
theorem extendHead_fails (head : Head) (tokens : List Token) :
    FailsIn Token.span size tokens (extendHead jsx head tokens) := by
  fun_induction extendHead jsx head tokens with
  | case1 | case6 | case7 | case8 => exact .ok _ _
  | case2 head token rest repetition found ih => exact ih.behind (List.suffix_cons token rest)
  | case3 head token rest notRepeated text behind found ih =>
    split at found
    case isTrue => exact ih.behind (readText_suffix found)
    case isFalse => cases found
  | case4 head token rest notRepeated noText fault failed =>
    exact (readAttributes_fails _).passedOn failed
  | case5 head token rest notRepeated noText added behind found ih =>
    exact ih.behind (readAttributes_suffix found)

/-- An element fails in what follows its name. -/
theorem readHead_fails (tokens : List Token) :
    FailsIn Token.span size tokens (readHead jsx tokens) := by
  have led : (readName jsx tokens).2 <:+ tokens := ⟨_, readName_append jsx tokens⟩
  rw [readHead]
  generalize readName jsx tokens = found at led
  obtain ⟨name, rest⟩ := found
  dsimp only at led ⊢
  split
  · next failed => exact ((extendHead_fails _ rest).behind led).passedOn failed
  · split <;> exact .ok _ _

/-- Statements fail in one of their elements. -/
theorem readStatements_fails (place : Place) (outer : List Place) (tokens : List Token) :
    FailsIn Token.span size tokens
      (readStatements jsx place outer tokens) := by
  fun_induction readStatements jsx place outer tokens with
  | case1 => exact .ok _ _
  | case2 place around outer ih => exact ih
  | case3 place outer token rest fault failed => exact (readHead_fails _).passedOn failed
  | case4 place outer token rest head behind readFirst ih =>
    exact ih.behind ((place.put_suffix _ behind).trans (readHead_suffix readFirst))
  | case5 place outer token rest none' isOpening ih =>
    exact ih.behind (List.suffix_cons token rest)
  | case6 => exact .ok _ _
  | case7 place token rest none' notOpening around outer statement ih =>
    exact ih.behind (((around.put_suffix statement _).trans (readGroupEnd_suffix token rest)).trans
      (List.suffix_cons token rest))

/-- The reader of statements fails at a place of the tokens. -/
theorem statementsOfTokens_fails (jsx : Bool) (tokens : List Token) :
    FailsIn Token.span size tokens (statementsOfTokens jsx tokens) := by
  have fails : FailsIn Token.span size tokens (readStatements jsx .top [] tokens) :=
    readStatements_fails .top [] tokens
  unfold statementsOfTokens
  split
  · next failed => exact fails.passedOn failed
  · exact .ok _ _
  · next token rest read =>
    exact (FailsIn.here (token :: rest) .unexpectedCharacter).behind (readStatements_suffix read)

end Failures

end Shorthand.Markup
