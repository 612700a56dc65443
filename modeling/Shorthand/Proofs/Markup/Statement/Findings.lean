import Mathlib.Data.List.TakeWhile
import Shorthand.Markup.Statement.Nesting

/-!
# What the readers of statements find

For every reader that does not call itself: what the tokens in front looked like if it found
something, and which part of them is left.
-/

namespace Shorthand.Markup

/-! ### Kinds of tokens -/

namespace Token

/-- A bracket is a token of its kind. -/
theorem kind_of_isBracket {enclosure : Enclosure} {isOpen : Bool} {token : Token}
    (isBracket : token.isBracket enclosure isOpen) : token.kind = .bracket isOpen enclosure :=
  beq_iff_eq.mp isBracket

/-- An operator is a token of its kind. -/
theorem kind_of_isOperator {operator : Operator} {token : Token}
    (isOperator : token.isOperator operator) : token.kind = .operator operator :=
  beq_iff_eq.mp isOperator

/-- White space is a token of its kind. -/
theorem kind_of_isWhiteSpace {token : Token} (isWhiteSpace : token.isWhiteSpace) :
    ∃ blanks, token.kind = .whiteSpace blanks := by
  rw [Token.isWhiteSpace] at isWhiteSpace
  split at isWhiteSpace
  · exact ⟨_, ‹_›⟩
  · cases isWhiteSpace

/-- A repeater is a token of its kind. -/
theorem kind_of_repeat? {token : Token} {repetition : Repeat}
    (found : token.repeat? = some repetition) :
    token.kind = .repeater repetition.count repetition.isImplicit := by
  unfold Token.repeat? at found
  split at found
  · cases found
    assumption
  · cases found

end Token

/-! ### Repeaters, texts and quotes -/

/-- A repeater is the next token, or there is none. -/
theorem readRepeat_finds {tokens left : List Token} {repetition : Option Repeat}
    (read : readRepeat tokens = (repetition, left)) :
    repetition = none ∧ left = tokens ∨
      ∃ token found, token.repeat? = some found ∧ repetition = some found ∧
        tokens = token :: left := by
  cases tokens with
  | nil =>
    cases read
    exact .inl ⟨rfl, rfl⟩
  | cons token rest =>
    rw [readRepeat] at read
    split at read
    case h_1 found isRepeat =>
      cases read
      exact .inr ⟨token, found, isRepeat, rfl, rfl⟩
    case h_2 =>
      cases read
      exact .inl ⟨rfl, rfl⟩

/-- A text begins with an opening brace and goes on to the brace that closes it. -/
theorem readText_finds {tokens text left : List Token}
    (read : readText tokens = some (text, left)) :
    ∃ opening rest, opening.isBracket .expression true ∧ tokens = opening :: rest ∧
      text = dropFinalBrace (throughBrace 0 rest).1 ∧ left = (throughBrace 0 rest).2 := by
  cases tokens with
  | nil => cases read
  | cons opening rest =>
    rw [readText] at read
    split at read
    case isTrue isOpening =>
      cases read
      exact ⟨opening, rest, isOpening, rfl, rfl, rfl⟩
    case isFalse => cases read

/-- What is gone through ends with the first token of the kind. -/
theorem through?_finds {kind : Token.Kind} {tokens taken left : List Token}
    (found : through? kind tokens = some (taken, left)) :
    ∃ inner closing, (∀ token ∈ inner, token.kind ≠ kind) ∧ closing.kind = kind ∧
      taken = inner ++ [closing] ∧ tokens = inner ++ closing :: left := by
  induction tokens generalizing taken with
  | nil => cases found
  | cons token rest ih =>
    unfold through? at found
    split at found
    case isTrue same =>
      cases found
      exact ⟨[], token, List.forall_mem_nil _, same, rfl, rfl⟩
    case isFalse other =>
      obtain ⟨⟨more, behind⟩, foundMore, same⟩ := Option.map_eq_some_iff.mp found
      cases same
      obtain ⟨inner, closing, others, isKind, rfl, rfl⟩ := ih foundMore
      exact ⟨token :: inner, closing, List.forall_mem_cons.mpr ⟨other, others⟩, isKind, rfl, rfl⟩

/-- A quoted value stands between two quotes of one kind. -/
theorem readQuoted_finds {tokens taken left : List Token}
    (read : readQuoted tokens = .ok (some (taken, left))) :
    ∃ isSingle opening inner closing, opening.kind = .quote isSingle ∧
      closing.kind = .quote isSingle ∧ (∀ token ∈ inner, token.kind ≠ .quote isSingle) ∧
      taken = opening :: (inner ++ [closing]) ∧ tokens = taken ++ left := by
  cases tokens with
  | nil => cases read
  | cons opening rest =>
    rw [readQuoted] at read
    split at read
    case h_1 isSingle isQuote =>
      split at read
      case h_1 quoted behind found =>
        cases read
        obtain ⟨inner, closing, others, isClosing, rfl, rfl⟩ := through?_finds found
        exact ⟨isSingle, opening, inner, closing, isQuote, isClosing, others, rfl, by simp⟩
      case h_2 => cases read
    case h_2 => cases read

/-! ### Values and attributes -/

/-- A value is quoted or a literal, which may be empty. -/
theorem readValue_finds {tokens left : List Token} {value : Option (List Token)}
    (read : readValue tokens = .ok (value, left)) :
    readQuoted tokens = .ok (some (value.getD [], left)) ∨
      readLiteral true 0 0 0 tokens = (value.getD [], left) := by
  rw [readValue] at read
  split at read
  case h_1 => cases read
  case h_2 quoted =>
    cases read
    exact .inl quoted
  case h_3 =>
    split at read
    case h_1 behind literal =>
      cases read
      have whole := readLiteral_append true 0 0 0 tokens
      rw [literal] at whole ⊢
      exact .inr (congrArg _ whole)
    case h_2 literal =>
      cases read
      exact .inr literal

/-- An attribute is a quoted value, or a literal that may be followed by an equals sign and a
value. -/
theorem readAttribute_finds {tokens left : List Token} {written : AttributeTokens}
    (read : readAttribute tokens = .ok (some (written, left))) :
    (∃ value, written = ⟨none, some value, false, false⟩ ∧
      readQuoted tokens = .ok (some (value, left))) ∨
    ∃ name value behind, name ≠ [] ∧ written = ⟨some name, value, false, false⟩ ∧
      readLiteral true 0 0 0 tokens = (name, behind) ∧
      (value = none ∧ left = behind ∨
        ∃ next rest, next.isOperator .equal ∧ behind = next :: rest ∧
          readValue rest = .ok (value, left)) := by
  rw [readAttribute] at read
  split at read
  case h_1 => cases read
  case h_2 value behind quoted =>
    cases read
    exact .inl ⟨value, rfl, quoted⟩
  case h_3 =>
    split at read
    case h_1 => cases read
    case h_2 name filled literal =>
      cases read
      exact .inr ⟨name, none, [], fun empty => filled empty, rfl, literal, .inl ⟨rfl, rfl⟩⟩
    case h_3 name next rest filled literal =>
      split at read
      case isTrue isEqual =>
        split at read
        case h_1 => cases read
        case h_2 value behind readRest =>
          cases read
          exact .inr ⟨name, value, next :: rest, fun empty => filled empty, rfl, literal,
            .inr ⟨next, rest, isEqual, rfl, readRest⟩⟩
      case isFalse =>
        cases read
        exact .inr ⟨name, none, next :: rest, fun empty => filled empty, rfl, literal,
          .inl ⟨rfl, rfl⟩⟩

/-- A short attribute is one or more marks with a text, where that is allowed, or a literal
behind them, which may be empty. -/
theorem readShortAttribute_finds {jsx : Bool} {operator : Operator} {name : String}
    {tokens left : List Token} {written : AttributeTokens}
    (read : readShortAttribute jsx operator name tokens = some (written, left)) :
    written.name = some [impliedLiteral name] ∧
    ∃ marks rest, marks ≠ [] ∧ (∀ mark ∈ marks, mark.isOperator operator) ∧
      tokens = marks ++ rest ∧
      (jsx ∧ readText rest = some (written.value.getD [], left) ∨
        readLiteral false 0 0 0 rest = (written.value.getD [], left)) := by
  rw [readShortAttribute] at read
  have whole : tokens = tokens.takeWhile (Token.isOperator operator) ++
      tokens.dropWhile (Token.isOperator operator) := List.takeWhile_append_dropWhile.symm
  have marks : ∀ mark ∈ tokens.takeWhile (Token.isOperator operator), mark.isOperator operator :=
    fun mark member => List.mem_takeWhile_imp member
  generalize tokens.takeWhile (Token.isOperator operator) = taken at read whole marks
  generalize tokens.dropWhile (Token.isOperator operator) = rest at read whole
  dsimp only at read
  split at read
  case isTrue => cases read
  case isFalse filled =>
    have isFilled : taken ≠ [] := fun empty => filled (List.isEmpty_iff.mpr empty)
    split at read
    case h_1 value behind text =>
      cases read
      cases jsx with
      | false => cases text
      | true => exact ⟨rfl, taken, rest, isFilled, marks, whole, .inl ⟨rfl, text⟩⟩
    case h_2 =>
      split at read
      case h_1 behind literal =>
        cases read
        have same := readLiteral_append false 0 0 0 left
        rw [literal] at same
        refine ⟨rfl, taken, left, isFilled, marks, whole, .inr ?_⟩
        rw [literal]
        exact congrArg _ same
      case h_2 literal =>
        cases read
        exact ⟨rfl, taken, rest, isFilled, marks, whole, .inr literal⟩

/-- Attributes are an id, a class or a list in brackets. -/
theorem readAttributes_finds {jsx : Bool} {tokens left : List Token}
    {found : List AttributeTokens} (read : readAttributes jsx tokens = .ok (some (found, left))) :
    (∃ operator name written,
      (operator, name) ∈ [(Operator.identifier, "id"), (.className, "class")] ∧
        found = [written] ∧
        readShortAttribute jsx operator name tokens = some (written, left)) ∨
    ∃ opening rest, opening.isBracket .attributes true ∧ tokens = opening :: rest ∧
      readAttributeList rest = .ok (found, left) := by
  unfold readAttributes at read
  split at read
  case h_1 written behind short =>
    cases read
    exact .inl ⟨.identifier, "id", written, by simp, rfl, short⟩
  case h_2 =>
    split at read
    case h_1 written behind short =>
      cases read
      exact .inl ⟨.className, "class", written, by simp, rfl, short⟩
    case h_2 =>
      split at read
      case h_1 => cases read
      case h_2 opening rest _ _ =>
        split at read
        case isTrue isOpening =>
          split at read
          case h_1 => cases read
          case h_2 listed =>
            cases read
            exact .inr ⟨opening, rest, isOpening, rfl, listed⟩
        case isFalse => cases read

/-! ### Elements -/

/-- A name is a component, where that is allowed, with plain parts behind it. -/
theorem readName_finds (jsx : Bool) (tokens : List Token) :
    ∃ component behind, readName jsx tokens =
        (component ++ behind.takeWhile Token.isNamePart, behind.dropWhile Token.isNamePart) ∧
      (component = [] ∧ behind = tokens ∨
        jsx ∧ ∃ first rest, first.isCapitalized ∧ tokens = first :: rest ∧
          component = first :: (readDottedNames rest).1 ∧ behind = (readDottedNames rest).2) := by
  cases tokens with
  | nil => exact ⟨[], [], rfl, .inl ⟨rfl, rfl⟩⟩
  | cons token rest =>
    cases isComponent : jsx && token.isCapitalized with
    | false => exact ⟨[], token :: rest, by simp only [readName, isComponent]; rfl, .inl ⟨rfl, rfl⟩⟩
    | true =>
      obtain ⟨isJsx, isCapitalized⟩ := Bool.and_eq_true_iff.mp isComponent
      refine ⟨token :: (readDottedNames rest).1, (readDottedNames rest).2, ?_,
        .inr ⟨isJsx, token, rest, isCapitalized, rfl, rfl, rfl⟩⟩
      simp only [readName, isComponent, if_true]

/-- How an element is extended by the tokens behind its beginning. -/
inductive Extension (jsx : Bool) : Head → List Token → Head → List Token → Prop where
  | ends {head : Head} {tokens : List Token} (noText : head.value.isNone → readText tokens = none)
      (noAttributes : readAttributes jsx tokens = .ok none) : Extension jsx head tokens head tokens
  | closes {head : Head} {close : Token} {rest left : List Token} (filled : head.isEmpty = false)
      (isClose : close.isOperator .close) (repetition : Option Repeat)
      (behind : left = rest ∨ readRepeat rest = (repetition, left)) :
      Extension jsx head (close :: rest) { head with isSelfClosing := true, repetition } left
  | repeated {head extended : Head} {token : Token} {rest left : List Token} {repetition : Repeat}
      (filled : head.isEmpty = false) (isRepeat : token.repeat? = some repetition)
      (others : Extension jsx { head with repetition := some repetition } rest extended left) :
      Extension jsx head (token :: rest) extended left
  | text {head extended : Head} {tokens text rest left : List Token} (noValue : head.value.isNone)
      (isText : readText tokens = some (text, rest))
      (others : Extension jsx { head with value := some text } rest extended left) :
      Extension jsx head tokens extended left
  | attributes {head extended : Head} {tokens rest left : List Token}
      {added : List AttributeTokens}
      (areAttributes : readAttributes jsx tokens = .ok (some (added, rest)))
      (others : Extension jsx (head.addAttributes added) rest extended left) :
      Extension jsx head tokens extended left

/-- What follows in an element extends it step by step. -/
theorem extension_of_extendHead {jsx : Bool} {head extended : Head} {tokens left : List Token}
    (read : extendHead jsx head tokens = .ok (extended, left)) :
    Extension jsx head tokens extended left := by
  fun_induction extendHead jsx head tokens with
  | case1 head =>
    cases read
    exact .ends (fun _ => rfl) rfl
  | case2 head token rest repetition found ih =>
    split at found
    case isTrue mayRepeat =>
      have filled := (Bool.and_eq_true_iff.mp mayRepeat).2
      exact .repeated ((Bool.not_eq_true' _).mp filled) found (ih read)
    case isFalse => cases found
  | case3 head token rest notRepeated text behind found ih =>
    split at found
    case isTrue noValue => exact .text noValue found (ih read)
    case isFalse => cases found
  | case4 => cases read
  | case5 head token rest notRepeated noText added behind found ih =>
    exact .attributes found (ih read)
  | case6 head token rest notRepeated noText noAttributes closing repetition present =>
    cases read
    obtain ⟨filled, isClose⟩ := Bool.and_eq_true_iff.mp closing
    exact .closes ((Bool.not_eq_true' _).mp filled) isClose head.repetition (.inl rfl)
  | case7 head token rest notRepeated noText noAttributes closing absent repetition behind found =>
    cases read
    obtain ⟨filled, isClose⟩ := Bool.and_eq_true_iff.mp closing
    exact .closes ((Bool.not_eq_true' _).mp filled) isClose repetition (.inr found)
  | case8 head token rest notRepeated noText noAttributes notClosing =>
    cases read
    exact .ends (fun noValue => by rwa [dif_pos noValue] at noText) noAttributes

/-- An element that carries nothing in the end began with nothing, and nothing follows. -/
theorem Extension.nothing {jsx : Bool} {head extended : Head} {tokens left : List Token}
    (extension : Extension jsx head tokens extended left) (empty : extended.isEmpty) :
    head.isEmpty ∧ readText tokens = none ∧ readAttributes jsx tokens = .ok none := by
  induction extension with
  | @ends head tokens noText noAttributes =>
    have noValue : head.value.isNone := by
      rw [Head.isEmpty, Bool.and_eq_true, Bool.and_eq_true] at empty
      exact empty.1.2
    exact ⟨empty, noText noValue, noAttributes⟩
  | closes filled => exact absurd empty (Bool.eq_false_iff.mp filled)
  | repeated filled _ _ ih => exact absurd (ih empty).1 (Bool.eq_false_iff.mp filled)
  | text _ _ _ ih =>
    have filled := (ih empty).1
    simp [Head.isEmpty] at filled
  | attributes _ _ ih =>
    have filled := (ih empty).1
    simp [Head.isEmpty, Head.addAttributes] at filled

/-- An element is extended from its name, if it has one, and carries something. -/
theorem readHead_finds {jsx : Bool} {tokens left : List Token} {head : Head}
    (read : readHead jsx tokens = .ok (some (head, left))) :
    head.isEmpty = false ∧ ∃ name rest, readName jsx tokens = (name, rest) ∧
      Extension jsx { Head.empty with name := if name.isEmpty then none else some name } rest
        head left := by
  unfold readHead at read
  generalize named : readName jsx tokens = found at read
  obtain ⟨name, rest⟩ := found
  have start : (if name.isEmpty then Head.empty else { Head.empty with name := some name }) =
      { Head.empty with name := if name.isEmpty then none else some name } := by
    split <;> rfl
  dsimp only at read
  rw [start] at read
  split at read
  case h_1 => cases read
  case h_2 extended behind extension =>
    split at read
    case isTrue => cases read
    case isFalse filled =>
      cases read
      exact ⟨Bool.eq_false_iff.mpr filled, name, rest, rfl, extension_of_extendHead extension⟩

/-- A source is read if all of its tokens are. -/
theorem statements_finds {jsx : Bool} {source : String} {found : List Statement}
    (read : statements jsx source = .ok found) :
    ∃ written, tokens source = .ok written ∧
      readStatements jsx .top [] written = .ok (found, []) := by
  unfold statements at read
  cases readTokens : tokens source with
  | error fault =>
    rw [readTokens] at read
    cases read
  | ok written =>
    refine ⟨written, rfl, ?_⟩
    rw [readTokens] at read
    have readAll : statementsOfTokens jsx written = .ok found :=
      mapError_within_eq_ok_iff.mp read
    unfold statementsOfTokens at readAll
    split at readAll
    case h_1 => cases readAll
    case h_2 whole =>
      cases readAll
      exact whole
    case h_3 => cases readAll

/-! ### Where no element begins -/

/-- Whether an element can begin with a token: with a part of its name, with a text or with an
attribute. -/
def Token.beginsElement (token : Token) : Bool :=
  token.isNamePart || token.isBracket .expression true || token.isBracket .attributes true ||
    token.isOperator .identifier || token.isOperator .className

/-- Where no class or id is read its mark does not stand. -/
theorem readShortAttribute_none {jsx : Bool} {operator : Operator} {name : String} {token : Token}
    {rest : List Token} (read : readShortAttribute jsx operator name (token :: rest) = none) :
    token.isOperator operator = false := by
  refine Bool.eq_false_iff.mpr fun isMark => ?_
  simp only [readShortAttribute, List.takeWhile_cons, isMark, if_true, List.isEmpty_cons,
    Bool.false_eq_true, if_false] at read
  split at read
  · cases read
  · split at read <;> cases read

/-- Where no attributes are read nothing stands that begins some. -/
theorem readAttributes_none {jsx : Bool} {token : Token} {rest : List Token}
    (read : readAttributes jsx (token :: rest) = .ok none) :
    token.isOperator .identifier = false ∧ token.isOperator .className = false ∧
      token.isBracket .attributes true = false := by
  unfold readAttributes at read
  split at read
  case h_1 => cases read
  case h_2 noId =>
    split at read
    case h_1 => cases read
    case h_2 noClass =>
      refine ⟨readShortAttribute_none noId, readShortAttribute_none noClass, ?_⟩
      dsimp only at read
      split at read
      case isTrue =>
        split at read <;> cases read
      case isFalse notOpening => exact Bool.eq_false_iff.mpr notOpening

/-- Where no text is read no brace opens. -/
theorem readText_none {token : Token} {rest : List Token} (read : readText (token :: rest) = none) :
    token.isBracket .expression true = false := by
  rw [readText] at read
  split at read
  case isTrue => cases read
  case isFalse notOpening => exact Bool.eq_false_iff.mpr notOpening

/-- Where no name is read no content token stands. -/
theorem readName_nil {jsx : Bool} {token : Token} {rest behind : List Token}
    (read : readName jsx (token :: rest) = ([], behind)) :
    token.isNamePart = false ∧ behind = token :: rest := by
  obtain ⟨component, other, found, ⟨-, same⟩ | ⟨-, first, more, -, -, isComponent, -⟩⟩ :=
    readName_finds jsx (token :: rest)
  · rw [same, read, Prod.mk.injEq] at found
    have noPart := List.append_eq_nil_iff.mp found.1.symm
    have notNamePart : token.isNamePart = false := by
      refine Bool.eq_false_iff.mpr fun isNamePart => ?_
      simp [isNamePart] at noPart
    refine ⟨notNamePart, ?_⟩
    rw [found.2, List.dropWhile_cons_of_neg (by simp [notNamePart])]
  · rw [read, isComponent, Prod.mk.injEq] at found
    cases found.1

/-- Where no element is read, none begins. -/
theorem not_beginsElement_of_readHead {jsx : Bool} {token : Token} {rest : List Token}
    (read : readHead jsx (token :: rest) = .ok none) : token.beginsElement = false := by
  unfold readHead at read
  generalize named : readName jsx (token :: rest) = found at read
  obtain ⟨name, behind⟩ := found
  dsimp only at read
  split at read
  case h_1 => cases read
  case h_2 extended left extension =>
    split at read
    case isFalse => cases read
    case isTrue empty =>
      obtain ⟨noName, noText, noAttributes⟩ := (extension_of_extendHead extension).nothing empty
      cases name with
      | cons first others => simp [Head.isEmpty] at noName
      | nil =>
        obtain ⟨notNamePart, rfl⟩ := readName_nil named
        obtain ⟨noId, noClass, noList⟩ := readAttributes_none noAttributes
        simp [Token.beginsElement, notNamePart, readText_none noText, noId, noClass, noList]

end Shorthand.Markup
