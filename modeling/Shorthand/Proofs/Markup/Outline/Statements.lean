import Mathlib.Data.List.Forall2
import Shorthand.Proofs.Markup.Outline.Tokens

/-!
# The statements of a written outline

Statements keep the tokens they were read from, so what an outline is read as is fixed up to
the places of tokens: `Outline.ReadAs` compares kinds alone. An element among others stands
in a group of its own. `reads_joined` follows the reader of statements over the tokens of
outlines: it adds them, in order, at the place where it stands.
-/

namespace Shorthand.Markup

/-! ### What outlines are read as -/

/-- The repeat that a count of copies is read as. -/
def CopyCount.repetition (count : CopyCount) : Repeat := ⟨count.value, false⟩

/-- The tokens of an attribute, in their places. -/
structure OutlineAttribute.ReadAs (written : OutlineAttribute) (found : AttributeTokens) :
    Prop where
  name : found.name.map (List.map Token.kind) = some [.literal written.name]
  value : found.value.map (List.map Token.kind) =
    some (.quote false :: (literalKinds written.value ++ [.quote false]))
  raw : found.isExpression = false
  single : found.isMultiple = false

/-- The tokens of an element, in their places. -/
structure OutlineHead.ReadAs (head : OutlineHead) (found : Head) : Prop where
  name : found.name.map (List.map Token.kind) = some [.literal head.name]
  attributes : List.Forall₂ OutlineAttribute.ReadAs head.attributes (found.attributes.getD [])
  value : found.value.map (List.map Token.kind) = head.text.map literalKinds
  repetition : found.repetition = head.count.map CopyCount.repetition
  notClosing : found.isSelfClosing = false

/-- An element among others is read as a group of its own. -/
def Outline.encloseStatement (outline : Outline) (found : Statement) : Statement :=
  match outline with
  | .element _ _ => .group [found] none
  | .group _ _ => found

mutual

/-- A statement holds the tokens of an outline in their places. -/
def Outline.ReadAs : Outline → Statement → Prop
  | .element head children, statement =>
    ∃ found statements, statement = .element found statements ∧ head.ReadAs found ∧
      ReadAllAs children statements
  | .group members count, statement =>
    ∃ statements, statement = .group statements (count.map CopyCount.repetition) ∧
      ReadAllAs members statements

/-- Statements hold the tokens of outlines, one by one. -/
def ReadAllAs : List Outline → List Statement → Prop
  | [], statements => statements = []
  | first :: rest, statements =>
    ∃ found others, statements = first.encloseStatement found :: others ∧ first.ReadAs found ∧
      ReadAllAs rest others

end

/-! ### Attributes -/

/-- Reading up to the first token of a kind passes over tokens of other kinds. -/
theorem through?_passes {kind : Token.Kind} {passed : List Token} {closing : Token}
    (rest : List Token) (others : ∀ token ∈ passed, token.kind ≠ kind)
    (closes : closing.kind = kind) :
    through? kind (passed ++ closing :: rest) = some (passed ++ [closing], rest) := by
  induction passed with
  | nil => simp [through?, closes]
  | cons token passed ih =>
    have read := ih fun other member => others other (List.mem_cons_of_mem token member)
    simp [through?, others token List.mem_cons_self, read]

/-- The literal of a text is no quote and no brace. -/
theorem literal_of_literalKinds {tokens : List Token} {text : String}
    (same : tokens.map Token.kind = literalKinds text) :
    ∀ token ∈ tokens, token.kind = .literal text := by
  intro token member
  have kept : token.kind ∈ literalKinds text := same ▸ List.mem_map_of_mem member
  rw [literalKinds] at kept
  split at kept
  · cases kept
  · exact List.mem_singleton.mp kept

/-- A name, an equals sign and a value in double quotes are read as one attribute. -/
theorem readAttribute_assigned {name equal opening closing : Token} {text : String}
    {value : List Token} (isName : name.kind = .literal text)
    (isEqual : equal.kind = .operator .equal) (opens : opening.kind = .quote false)
    (others : ∀ token ∈ value, token.kind ≠ .quote false) (closes : closing.kind = .quote false)
    (rest : List Token) :
    readAttribute (name :: equal :: opening :: (value ++ closing :: rest)) =
      .ok (some (⟨some [name], some (opening :: (value ++ [closing])), false, false⟩, rest)) := by
  have quoted : readQuoted (opening :: (value ++ closing :: rest)) =
      .ok (some (opening :: (value ++ [closing]), rest)) := by
    simp [readQuoted, opens, through?_passes rest others closes]
  have noQuote : readQuoted (name :: equal :: opening :: (value ++ closing :: rest)) =
      .ok none := by
    simp [readQuoted, isName]
  have readName : readLiteral true 0 0 0 (name :: equal :: opening :: (value ++ closing :: rest))
      = ([name], equal :: opening :: (value ++ closing :: rest)) := by
    simp [readLiteral, Token.separatesLiterals, isName, isEqual]
  have readIt : readValue (opening :: (value ++ closing :: rest)) =
      .ok (some (opening :: (value ++ [closing])), rest) := by
    simp [readValue, quoted]
  simp [readAttribute, noQuote, readName, readIt, Token.isOperator, isEqual]

/-- An attribute is read with the tokens that its written form has. -/
theorem readAttribute_written (written : OutlineAttribute) {tokens : List Token}
    (same : tokens.map Token.kind = written.kinds) :
    ∃ found, written.ReadAs found ∧
      ∀ rest, readAttribute (tokens ++ rest) = .ok (some (found, rest)) := by
  simp only [OutlineAttribute.kinds, List.cons_append, List.nil_append,
    List.map_eq_cons_iff, List.map_eq_append_iff, List.map_eq_nil_iff] at same
  obtain ⟨name, _, rfl, isName, equal, _, rfl, isEqual, opening, _, rfl, opens, value, _, rfl,
    sameValue, closing, _, rfl, closes, rfl⟩ := same
  refine ⟨⟨some [name], some (opening :: (value ++ [closing])), false, false⟩, ?_, ?_⟩
  · exact ⟨by simp [isName], by simp [opens, sameValue, closes], rfl, rfl⟩
  · intro rest
    have others : ∀ token ∈ value, token.kind ≠ .quote false := by
      intro token member
      rw [literal_of_literalKinds sameValue token member]
      exact Token.Kind.noConfusion
    simpa using readAttribute_assigned isName isEqual opens others closes rest

/-- Blanks between attributes are passed over. -/
theorem readAttributeList_blank {blank : Token} {text : String} (rest : List Token)
    (isBlank : blank.kind = .whiteSpace text) :
    readAttributeList (blank :: rest) = readAttributeList rest := by
  have noAttribute : readAttribute (blank :: rest) = .ok none := by
    simp [readAttribute, readQuoted, readLiteral, Token.separatesLiterals, isBlank]
  rw [readAttributeList]
  split
  · simp_all
  · simp_all
  · simp [Token.isBracket, Token.isWhiteSpace, isBlank]

/-- An attribute in front is the first of the list. -/
theorem readAttributeList_cons {tokens left behind : List Token} {first : AttributeTokens}
    {others : List AttributeTokens} (readFirst : readAttribute tokens = .ok (some (first, left)))
    (readOthers : readAttributeList left = .ok (others, behind)) :
    readAttributeList tokens = .ok (first :: others, behind) := by
  cases tokens with
  | nil => cases readFirst
  | cons token rest =>
    rw [readAttributeList]
    split
    · simp_all
    · simp_all
    · simp_all

/-- The closing bracket ends the list. -/
theorem readAttributeList_closing {closing : Token} (rest : List Token)
    (closes : closing.kind = .bracket false .attributes) :
    readAttributeList (closing :: rest) = .ok ([], rest) := by
  have noAttribute : readAttribute (closing :: rest) = .ok none := by
    simp [readAttribute, readQuoted, readLiteral, Token.separatesLiterals, closes]
  rw [readAttributeList]
  split
  · simp_all
  · simp_all
  · simp [Token.isBracket, closes]

/-- Further attributes are read up to the closing bracket. -/
theorem readAttributeList_more (attributes : List OutlineAttribute) {tokens : List Token}
    (same : tokens.map Token.kind = moreAttributeKinds attributes) :
    ∃ found, List.Forall₂ OutlineAttribute.ReadAs attributes found ∧
      ∀ closing rest, closing.kind = .bracket false .attributes →
        readAttributeList (tokens ++ closing :: rest) = .ok (found, rest) := by
  induction attributes generalizing tokens with
  | nil =>
    simp only [moreAttributeKinds, List.flatMap_nil, List.map_eq_nil_iff] at same
    subst same
    exact ⟨[], .nil, fun closing rest closes => readAttributeList_closing rest closes⟩
  | cons first others ih =>
    simp only [moreAttributeKinds, List.flatMap_cons, List.cons_append, List.map_eq_cons_iff,
      List.map_eq_append_iff] at same
    obtain ⟨blank, _, rfl, isBlank, own, further, rfl, sameOwn, sameFurther⟩ := same
    obtain ⟨found, readAs, read⟩ := readAttribute_written first sameOwn
    obtain ⟨more, moreReadAs, readMore⟩ := ih sameFurther
    refine ⟨found :: more, .cons readAs moreReadAs, fun closing rest closes => ?_⟩
    rw [List.cons_append, readAttributeList_blank _ isBlank, List.append_assoc]
    exact readAttributeList_cons (read _) (readMore closing rest closes)

/-! ### Elements -/

/-- What stands here begins or ends statements and belongs to no element before it. -/
def Ends (rest : List Token) : Prop :=
  ∀ token ∈ rest.head?, token.kind = .operator .child ∨ token.kind = .operator .sibling ∨
    token.kind = .operator .climb ∨ token.kind = .bracket false .group

/-- A repeat goes to an element that carries something and has none. -/
theorem extendHead_repeat {jsx : Bool} {head : Head} {token : Token} {repetition : Repeat}
    (rest : List Token) (unrepeated : head.repetition = none) (carries : head.isEmpty = false)
    (repeats : token.repeat? = some repetition) :
    extendHead jsx head (token :: rest) =
      extendHead jsx { head with repetition := some repetition } rest := by
  rw [extendHead]
  simp [unrepeated, carries, repeats]

/-- A text goes to an element that has none. -/
theorem extendHead_text {jsx : Bool} {head : Head} {token : Token} {rest text left : List Token}
    (unfilled : head.value = none) (unrepeated : token.repeat? = none)
    (read : readText (token :: rest) = some (text, left)) :
    extendHead jsx head (token :: rest) =
      extendHead jsx { head with value := some text } left := by
  rw [extendHead]
  simp only [unrepeated, ite_self]
  split
  · next found => simp_all
  · next found => simp_all

/-- Attributes go behind those that the element has. -/
theorem extendHead_attributes {jsx : Bool} (head : Head) {token : Token}
    {rest left : List Token} {added : List AttributeTokens} (unrepeated : token.repeat? = none)
    (noText : readText (token :: rest) = none)
    (read : readAttributes jsx (token :: rest) = .ok (some (added, left))) :
    extendHead jsx head (token :: rest) = extendHead jsx (head.addAttributes added) left := by
  rw [extendHead]
  simp only [unrepeated, ite_self]
  split
  · next found => simp_all
  · split
    · next found => simp_all
    · next found => simp_all
    · next found => simp_all

/-- Nothing else goes to an element. -/
theorem extendHead_stop {jsx : Bool} {head : Head} {token : Token} (rest : List Token)
    (unrepeated : (if head.repetition.isNone && !head.isEmpty then token.repeat? else none) = none)
    (noText : readText (token :: rest) = none)
    (noAttributes : readAttributes jsx (token :: rest) = .ok none)
    (notClosing : token.isOperator .close = false) :
    extendHead jsx head (token :: rest) = .ok (head, token :: rest) := by
  rw [extendHead]
  simp only [unrepeated, notClosing]
  split
  · next found => simp_all
  · split
    · next found => simp_all
    · next found => simp_all
    · simp

/-- Reading up to the closing brace passes over tokens that are no braces. -/
theorem throughBrace_passes {passed : List Token} {closing : Token} (rest : List Token)
    (others : ∀ token ∈ passed, ∀ isOpen, token.isBracket .expression isOpen = false)
    (closes : closing.kind = .bracket false .expression) :
    throughBrace 0 (passed ++ closing :: rest) = (passed ++ [closing], rest) := by
  induction passed with
  | nil => simp [throughBrace, Token.isBracket, closes]
  | cons token passed ih =>
    have read := ih fun other member => others other (List.mem_cons_of_mem token member)
    have notBrace := others token List.mem_cons_self
    simp [throughBrace, notBrace, read]

/-- A text in braces goes to an element that has none. -/
theorem extendHead_braced {jsx : Bool} {head : Head} {opening closing : Token}
    {value : List Token} (unfilled : head.value = none)
    (opens : opening.kind = .bracket true .expression)
    (others : ∀ token ∈ value, ∀ isOpen, token.isBracket .expression isOpen = false)
    (closes : closing.kind = .bracket false .expression) (rest : List Token) :
    extendHead jsx head (opening :: (value ++ closing :: rest)) =
      extendHead jsx { head with value := some value } rest := by
  have read : readText (opening :: (value ++ closing :: rest)) = some (value, rest) := by
    simp [readText, Token.isBracket, opens, closes, dropFinalBrace,
      throughBrace_passes rest others closes]
  exact extendHead_text unfilled (by simp [Token.repeat?, opens]) read

/-- A list of attributes in square brackets goes behind those that the element has. -/
theorem extendHead_bracketed {jsx : Bool} (head : Head) {opening : Token}
    {tokens rest : List Token} {added : List AttributeTokens}
    (opens : opening.kind = .bracket true .attributes)
    (read : readAttributeList tokens = .ok (added, rest)) :
    extendHead jsx head (opening :: tokens) = extendHead jsx (head.addAttributes added) rest := by
  have attributesRead : readAttributes jsx (opening :: tokens) = .ok (some (added, rest)) := by
    simp [readAttributes, readShortAttribute, Token.isOperator, Token.isBracket, opens, read]
  exact extendHead_attributes head (by simp [Token.repeat?, opens])
    (by simp [readText, Token.isBracket, opens]) attributesRead

/-- The attributes of an element are read, if it has any. -/
theorem extendHead_writtenAttributes (attributes : List OutlineAttribute) {tokens : List Token}
    (same : tokens.map Token.kind = attributesKinds attributes) :
    ∃ found : Option (List AttributeTokens),
      List.Forall₂ OutlineAttribute.ReadAs attributes (found.getD []) ∧
      ∀ (head : Head) (rest : List Token), head.attributes = none →
        extendHead false head (tokens ++ rest) =
          extendHead false { head with attributes := found } rest := by
  cases attributes with
  | nil =>
    simp only [attributesKinds, List.map_eq_nil_iff] at same
    subst same
    refine ⟨none, .nil, fun head rest unattributed => ?_⟩
    rw [← unattributed]
    rfl
  | cons first others =>
    simp only [attributesKinds, List.map_eq_cons_iff, List.map_eq_append_iff,
      List.map_eq_nil_iff] at same
    obtain ⟨opening, _, rfl, opens, _, _, rfl, ⟨own, further, rfl, sameOwn, sameFurther⟩, closing,
      _, rfl, closes, rfl⟩ := same
    obtain ⟨found, readAs, read⟩ := readAttribute_written first sameOwn
    obtain ⟨more, moreReadAs, readMore⟩ := readAttributeList_more others sameFurther
    refine ⟨some (found :: more), .cons readAs moreReadAs, fun head rest unattributed => ?_⟩
    have listRead : readAttributeList (own ++ (further ++ closing :: rest)) =
        .ok (found :: more, rest) :=
      readAttributeList_cons (read _) (readMore closing rest closes)
    have step : extendHead false head (opening :: (own ++ (further ++ closing :: rest))) =
        extendHead false (head.addAttributes (found :: more)) rest :=
      extendHead_bracketed head opens listRead
    simpa [Head.addAttributes, unattributed] using step

/-- The text of an element is read, if it has one. -/
theorem extendHead_writtenText (text : Option String) {tokens : List Token}
    (same : tokens.map Token.kind = textKinds text) :
    ∃ found : Option (List Token), found.map (List.map Token.kind) = text.map literalKinds ∧
      ∀ (head : Head) (rest : List Token), head.value = none →
        extendHead false head (tokens ++ rest) =
          extendHead false { head with value := found } rest := by
  cases text with
  | none =>
    simp only [textKinds, List.map_eq_nil_iff] at same
    subst same
    refine ⟨none, rfl, fun head rest unfilled => ?_⟩
    rw [← unfilled]
    rfl
  | some text =>
    simp only [textKinds, List.map_eq_cons_iff, List.map_eq_append_iff,
      List.map_eq_nil_iff] at same
    obtain ⟨opening, _, rfl, opens, value, _, rfl, sameValue, closing, _, rfl, closes, rfl⟩ := same
    refine ⟨some value, by simp [sameValue], fun head rest unfilled => ?_⟩
    have others : ∀ token ∈ value, ∀ isOpen, token.isBracket .expression isOpen = false := by
      intro token member isOpen
      simp [Token.isBracket, literal_of_literalKinds sameValue token member]
    simpa using extendHead_braced unfilled opens others closes rest

/-- The count of an element is read, if it has one. -/
theorem extendHead_writtenCount (count : Option CopyCount) {tokens : List Token}
    (same : tokens.map Token.kind = countKinds count) {head : Head} (rest : List Token)
    (unrepeated : head.repetition = none) (carries : head.isEmpty = false) :
    extendHead false head (tokens ++ rest) =
      extendHead false { head with repetition := count.map CopyCount.repetition } rest := by
  cases count with
  | none =>
    simp only [countKinds, List.map_eq_nil_iff] at same
    subst same
    rw [Option.map_none, ← unrepeated]
    rfl
  | some count =>
    simp only [countKinds, List.map_eq_cons_iff, List.map_eq_nil_iff] at same
    obtain ⟨token, _, rfl, repeats, rfl⟩ := same
    exact extendHead_repeat rest unrepeated carries (by simp [Token.repeat?, repeats]; rfl)

/-- In front of what ends an element nothing more goes to it. -/
theorem extendHead_ends {jsx : Bool} {rest : List Token} (ends : Ends rest) (head : Head) :
    extendHead jsx head rest = .ok (head, rest) := by
  cases rest with
  | nil => simp [extendHead]
  | cons token rest =>
    have kind := ends token rfl
    refine extendHead_stop rest ?_ ?_ ?_ ?_
    all_goals
      rcases kind with kind | kind | kind | kind <;>
        simp [Token.repeat?, readText, readAttributes, readShortAttribute, Token.isBracket,
          Token.isOperator, kind]

/-- No part of an element name stands here. -/
def Apart (rest : List Token) : Prop := ∀ token ∈ rest.head?, token.isNamePart = false

/-- What ends a statement stands apart from its name. -/
theorem Ends.apart {rest : List Token} (ends : Ends rest) : Apart rest := by
  intro token first
  rcases ends token first with kind | kind | kind | kind <;> simp [Token.isNamePart, kind]

/-- Tokens that begin with no content token stand apart. -/
theorem apart_append {tokens rest : List Token} {kinds : List Token.Kind}
    (same : tokens.map Token.kind = kinds)
    (others : ∀ kind ∈ kinds.head?, ∀ span, Token.isNamePart ⟨kind, span⟩ = false)
    (behind : Apart rest) : Apart (tokens ++ rest) := by
  cases tokens with
  | nil => exact behind
  | cons token tokens =>
    subst same
    intro first isFirst
    simp only [List.cons_append, List.head?_cons, Option.mem_def, Option.some.injEq] at isFirst
    exact isFirst ▸ others token.kind rfl token.span

/-- A literal in front of what is no part of a name is the whole name, unless it may be a
component. -/
theorem readName_literal {jsx : Bool} {name : Token} {text : String} {rest : List Token}
    (noComponent : (jsx && name.isCapitalized) = false) (isName : name.kind = .literal text)
    (apart : Apart rest) : readName jsx (name :: rest) = ([name], rest) := by
  have part : name.isNamePart = true := by simp [Token.isNamePart, isName]
  have none : rest.takeWhile Token.isNamePart = [] ∧ rest.dropWhile Token.isNamePart = rest := by
    cases rest with
    | nil => exact ⟨rfl, rfl⟩
    | cons token rest => simp [apart token rfl]
  simp [readName, noComponent, part, none]

/-- Without a dot in front no dotted names are read. -/
theorem readDottedNames_none {tokens : List Token}
    (noDot : ∀ token ∈ tokens.head?, token.isOperator .className = false) :
    readDottedNames tokens = ([], tokens) := by
  cases tokens with
  | nil => rfl
  | cons dot rest =>
    cases rest with
    | nil => rfl
    | cons name rest => simp [readDottedNames, noDot dot rfl]

/-- An element is read with the tokens that its written form has. -/
theorem readHead_written (head : OutlineHead) {tokens : List Token}
    (same : tokens.map Token.kind = head.kinds) :
    ∃ found, head.ReadAs found ∧
      ∀ rest, Ends rest → readHead false (tokens ++ rest) = .ok (some (found, rest)) := by
  simp only [OutlineHead.kinds, List.map_eq_cons_iff, List.map_eq_append_iff] at same
  obtain ⟨name, _, rfl, isName, _, counted, rfl, ⟨attributed, filled, rfl, sameAttributes,
    sameText⟩, sameCount⟩ := same
  obtain ⟨attributes, attributesReadAs, readAttributes'⟩ :=
    extendHead_writtenAttributes head.attributes sameAttributes
  obtain ⟨value, sameValue, readText'⟩ := extendHead_writtenText head.text sameText
  refine ⟨⟨some [name], attributes, value, head.count.map CopyCount.repetition, false⟩, ?_, ?_⟩
  · exact ⟨by simp [isName], attributesReadAs, sameValue, rfl, rfl⟩
  · intro rest ends
    have behindText : Apart (counted ++ rest) :=
      apart_append sameCount (by cases head.count <;> simp [countKinds, Token.isNamePart])
        ends.apart
    have behindAttributes : Apart (filled ++ (counted ++ rest)) :=
      apart_append sameText (by cases head.text <;> simp [textKinds, Token.isNamePart]) behindText
    have apart : Apart (attributed ++ (filled ++ (counted ++ rest))) :=
      apart_append sameAttributes
        (by cases head.attributes <;> simp [attributesKinds, Token.isNamePart]) behindAttributes
    have extended : extendHead false { Head.empty with name := some [name] }
        (attributed ++ (filled ++ (counted ++ rest))) = .ok (⟨some [name], attributes, value,
          head.count.map CopyCount.repetition, false⟩, rest) := by
      rw [readAttributes' _ _ rfl, readText' _ _ rfl,
        extendHead_writtenCount head.count sameCount rest rfl rfl, extendHead_ends ends]
      rfl
    simp only [List.cons_append, List.append_assoc, readHead,
      readName_literal (Bool.false_and _) isName apart, List.isEmpty_cons, Bool.false_eq_true,
      if_false, extended]
    rfl

/-! ### Statements -/

/-- The abbreviation or the group around ends here. -/
def Closes (rest : List Token) : Prop := ∀ token ∈ rest.head?, token.kind = .bracket false .group

/-- What closes a group ends its last statement. -/
theorem Closes.ends {rest : List Token} (closes : Closes rest) : Ends rest :=
  fun token first => .inr (.inr (.inr (closes token first)))

/-- A closing bracket closes a group. -/
theorem closes_cons {closing : Token} (rest : List Token)
    (closes : closing.kind = .bracket false .group) : Closes (closing :: rest) := by
  intro token first
  simp only [List.head?_cons, Option.mem_def, Option.some.injEq] at first
  exact first ▸ closes

/-- No element begins at a round bracket. -/
theorem readHead_bracket {jsx : Bool} {bracket : Token} {isOpen : Bool} (rest : List Token)
    (isBracket : bracket.kind = .bracket isOpen .group) :
    readHead jsx (bracket :: rest) = .ok none := by
  have apart : bracket.isNamePart = false := by simp [Token.isNamePart, isBracket]
  have uncapitalized : bracket.isCapitalized = false := by simp [Token.isCapitalized, isBracket]
  have nameless : readName jsx (bracket :: rest) = ([], bracket :: rest) := by
    simp [readName, apart, uncapitalized]
  have stops : extendHead jsx Head.empty (bracket :: rest) =
      .ok (Head.empty, bracket :: rest) := by
    refine extendHead_stop rest ?_ ?_ ?_ ?_ <;>
      simp [Token.repeat?, readText, readAttributes, readShortAttribute, Token.isBracket,
        Token.isOperator, isBracket]
  simp only [readHead, nameless, List.isEmpty_nil, if_true, stops]
  rfl

/-- An opening round bracket begins a group. -/
theorem readStatements_opening {jsx : Bool} {opening : Token} (place : Place)
    (outer : List Place) (rest : List Token) (opens : opening.kind = .bracket true .group) :
    readStatements jsx place outer (opening :: rest) =
      readStatements jsx .top (place :: outer) rest := by
  rw [readStatements.eq_def]
  dsimp only
  split
  · simp_all [readHead_bracket rest opens]
  · simp_all [readHead_bracket rest opens]
  · simp [Token.isBracket, opens]

/-- A closing round bracket ends the group and is followed by its repeat. -/
theorem readStatements_closing {jsx : Bool} {closing : Token} (place around : Place)
    (outer : List Place) (rest : List Token) (closes : closing.kind = .bracket false .group) :
    readStatements jsx place (around :: outer) (closing :: rest) =
      let ending := readRepeat rest
      readStatements jsx (around.put (.group place.close ending.1) ending.2).1 outer
        (around.put (.group place.close ending.1) ending.2).2 := by
  rw [readStatements]
  split
  · simp_all [readHead_bracket rest closes]
  · simp_all [readHead_bracket rest closes]
  · simp [Token.isBracket, closes, readGroupEnd]

/-- An element in front goes to the place, and the operator behind it leads on. -/
theorem readStatements_head {jsx : Bool} {tokens left : List Token} {head : Head} (place : Place)
    (outer : List Place) (read : readHead jsx tokens = .ok (some (head, left))) :
    readStatements jsx place outer tokens =
      readStatements jsx (place.put (.element head []) left).1 outer
        (place.put (.element head []) left).2 := by
  cases tokens with
  | nil => simp [readHead, readName, extendHead, Head.isEmpty, Head.empty] at read
  | cons token rest =>
    rw [readStatements.eq_def]
    dsimp only
    split
    · simp_all
    · simp_all
    · simp_all

/-- Where the statements end, a statement is only added. -/
theorem put_closes {rest : List Token} (closes : Closes rest) (place : Place)
    (statement : Statement) : place.put statement rest = (place.add statement, rest) := by
  cases rest with
  | nil => rfl
  | cons token rest =>
    have kind := closes token rfl
    simp [Place.put, Token.isOperator, kind, Place.climbs]

/-- A plus sign leads to the place behind the statement. -/
theorem put_sibling {sibling : Token} (rest : List Token) (place : Place) (statement : Statement)
    (isSibling : sibling.kind = .operator .sibling) :
    place.put statement (sibling :: rest) = (place.add statement, rest) := by
  simp [Place.put, Token.isOperator, isSibling]

/-- A greater-than sign leads into the statement. -/
theorem put_child {child : Token} (rest : List Token) (place : Place) (statement : Statement)
    (isChild : child.kind = .operator .child) :
    place.put statement (child :: rest) = (place.descend statement, rest) := by
  simp [Place.put, Token.isOperator, isChild]

/-- No repeat stands in front of what ends a statement. -/
theorem readRepeat_ends {rest : List Token} (ends : Ends rest) :
    readRepeat rest = (none, rest) := by
  cases rest with
  | nil => rfl
  | cons token rest =>
    rcases ends token rfl with kind | kind | kind | kind <;>
      simp [readRepeat, Token.repeat?, kind]

/-- The repeat of a group is its count. -/
theorem readRepeat_count (count : Option CopyCount) {tokens rest : List Token}
    (same : tokens.map Token.kind = countKinds count) (ends : Ends rest) :
    readRepeat (tokens ++ rest) = (count.map CopyCount.repetition, rest) := by
  cases count with
  | none =>
    simp only [countKinds, List.map_eq_nil_iff] at same
    subst same
    exact readRepeat_ends ends
  | some count =>
    simp only [countKinds, List.map_eq_cons_iff, List.map_eq_nil_iff] at same
    obtain ⟨token, _, rfl, repeats, rfl⟩ := same
    simp [readRepeat, Token.repeat?, repeats, CopyCount.repetition]

/-- Joined outlines begin with what leads them, unless there are none. -/
theorem kindsJoined_lead (lead : List Token.Kind) {outlines : List Outline}
    (some : outlines ≠ []) : kindsJoined lead outlines = lead ++ kindsJoined [] outlines := by
  cases outlines with
  | nil => exact absurd rfl some
  | cons first others => simp [kindsJoined]

mutual

/-- An outline among others is read as one statement at the place where it stands. -/
theorem Outline.reads (outline : Outline) {tokens : List Token}
    (same : tokens.map Token.kind = outline.encloseKinds outline.kinds) :
    ∃ found, outline.ReadAs found ∧ ∀ (place : Place) (outer : List Place) (rest : List Token),
      Ends rest →
        readStatements false place outer (tokens ++ rest) =
          readStatements false (place.put (outline.encloseStatement found) rest).1 outer
            (place.put (outline.encloseStatement found) rest).2 := by
  cases outline with
  | element head children =>
    simp only [Outline.encloseKinds, Outline.kinds, List.map_eq_cons_iff, List.map_eq_append_iff,
      List.map_eq_nil_iff] at same
    obtain ⟨opening, _, rfl, opens, _, _, rfl, ⟨own, below, rfl, sameOwn, sameBelow⟩, closing, _,
      rfl, closes, rfl⟩ := same
    obtain ⟨found, readAs, read⟩ := readHead_written head sameOwn
    by_cases childless : children = []
    · -- The closing bracket follows the element itself.
      subst childless
      simp only [kindsJoined, List.map_eq_nil_iff] at sameBelow
      subst sameBelow
      refine ⟨.element found [], ⟨found, [], rfl, readAs, rfl⟩, fun place outer rest ends => ?_⟩
      have closesNext := closes_cons rest closes
      simp only [List.append_nil, List.cons_append, List.append_assoc, List.nil_append]
      rw [readStatements_opening _ _ _ opens, readStatements_head _ _ (read _ closesNext.ends),
        put_closes closesNext, readStatements_closing _ _ _ _ closes]
      simp only [readRepeat_ends ends]
      rfl
    · -- The statements below the element stand at a place inside of it.
      rw [kindsJoined_lead _ childless, List.map_eq_append_iff] at sameBelow
      obtain ⟨lead, inner, rfl, sameLead, sameInner⟩ := sameBelow
      simp only [List.map_eq_cons_iff, List.map_eq_nil_iff] at sameLead
      obtain ⟨child, _, rfl, isChild, rfl⟩ := sameLead
      obtain ⟨statements, allReadAs, readAll⟩ := reads_joined children sameInner
      refine ⟨.element found statements, ⟨found, statements, rfl, readAs, allReadAs⟩,
        fun place outer rest ends => ?_⟩
      have leads : Ends (child :: (inner ++ closing :: rest)) := by
        intro token first
        simp only [List.head?_cons, Option.mem_def, Option.some.injEq] at first
        exact .inl (first ▸ isChild)
      simp only [List.cons_append, List.append_assoc, List.nil_append]
      rw [readStatements_opening _ _ _ opens, readStatements_head _ _ (read _ leads),
        put_child _ _ _ isChild, readAll _ _ _ (closes_cons rest closes),
        readStatements_closing _ _ _ _ closes]
      simp only [readRepeat_ends ends]
      rfl
  | group members count =>
    simp only [Outline.encloseKinds, Outline.kinds, List.map_eq_cons_iff,
      List.map_eq_append_iff] at same
    obtain ⟨opening, _, rfl, opens, inner, _, rfl, sameInner, closing, counted, rfl, closes,
      sameCount⟩ := same
    obtain ⟨statements, allReadAs, readAll⟩ := reads_joined members sameInner
    refine ⟨.group statements (count.map CopyCount.repetition), ⟨statements, rfl, allReadAs⟩,
      fun place outer rest ends => ?_⟩
    simp only [List.cons_append, List.append_assoc]
    rw [readStatements_opening _ _ _ opens, readAll _ _ _ (closes_cons _ closes),
      readStatements_closing _ _ _ _ closes]
    simp only [readRepeat_count count sameCount ends]
    rfl

/-- Joined outlines are read as statements that are added one after the other. -/
theorem reads_joined (outlines : List Outline) {tokens : List Token}
    (same : tokens.map Token.kind = kindsJoined [] outlines) :
    ∃ found, ReadAllAs outlines found ∧
      ∀ (place : Place) (outer : List Place) (rest : List Token), Closes rest →
        readStatements false place outer (tokens ++ rest) =
          readStatements false ⟨place.statements ++ found, place.levels⟩ outer rest := by
  cases outlines with
  | nil =>
    simp only [kindsJoined, List.map_eq_nil_iff] at same
    subst same
    refine ⟨[], rfl, fun place outer rest closes => ?_⟩
    rw [List.append_nil]
    rfl
  | cons first others =>
    simp only [kindsJoined, List.nil_append, List.map_eq_append_iff] at same
    obtain ⟨own, further, rfl, sameOwn, sameFurther⟩ := same
    obtain ⟨found, readAs, read⟩ := first.reads sameOwn
    -- The last outline is ended by what closes its parent, and every other one by a sibling mark.
    by_cases alone : others = []
    · subst alone
      simp only [kindsJoined, List.map_eq_nil_iff] at sameFurther
      subst sameFurther
      refine ⟨[first.encloseStatement found], ⟨found, [], rfl, readAs, rfl⟩,
        fun place outer rest closes => ?_⟩
      rw [List.append_nil, read _ _ _ closes.ends, put_closes closes]
      rfl
    · rw [kindsJoined_lead _ alone, List.map_eq_append_iff] at sameFurther
      obtain ⟨lead, more, rfl, sameLead, sameMore⟩ := sameFurther
      simp only [List.map_eq_cons_iff, List.map_eq_nil_iff] at sameLead
      obtain ⟨sibling, _, rfl, isSibling, rfl⟩ := sameLead
      obtain ⟨statements, allReadAs, readAll⟩ := reads_joined others sameMore
      refine ⟨first.encloseStatement found :: statements,
        ⟨found, statements, rfl, readAs, allReadAs⟩, fun place outer rest closes => ?_⟩
      have leads : Ends (sibling :: (more ++ rest)) := by
        intro token isFirst
        simp only [List.head?_cons, Option.mem_def, Option.some.injEq] at isFirst
        exact .inr (.inl (isFirst ▸ isSibling))
      simp only [List.cons_append, List.append_assoc, List.nil_append]
      rw [read _ _ _ leads, put_sibling _ _ _ isSibling, readAll _ _ _ closes]
      simp [Place.add]

end

/-- The statements that written outlines are read as. -/
theorem statements_printAll (outlines : List Outline) :
    ∃ found, ReadAllAs outlines found ∧ statements false (printAll outlines) = .ok found := by
  obtain ⟨written, sameKinds, lexed⟩ := tokens_printAll outlines
  obtain ⟨found, allReadAs, readAll⟩ := reads_joined outlines sameKinds
  have read := readAll .top [] [] (by intro token first; cases first)
  rw [List.append_nil] at read
  have ended : readStatements false ⟨Place.top.statements ++ found, Place.top.levels⟩ [] [] =
      .ok (found, []) := by
    rw [readStatements]
    rfl
  refine ⟨found, allReadAs, ?_⟩
  rw [statements_eq lexed, mapError_within_eq_ok_iff]
  simp [statementsOfTokens, read, ended]

end Shorthand.Markup
