import Mathlib.Tactic.Tauto
import Shorthand.Proofs.Markup.Outline
import Shorthand.Proofs.Text.Run

/-!
# The tokens of a written outline

`Lexes` says that the reader of tokens, standing at some depths before a stretch of the
abbreviation, finds tokens of given kinds there and goes on behind the stretch at other
depths. `Lexes.append` puts stretches together; `lexes_joined` follows the written form of
outlines piece by piece. What stands behind a stretch matters, because literals and counts
end only where something else begins.
-/

namespace Shorthand.Markup

/-- From the depths `before`, the characters `text` in front of `rest` are tokens of the given
kinds, and reading goes on in `rest` at the depths `after`. -/
def Lexes (before : Depths) (text rest : List Char) (kinds : List Token.Kind)
    (after : Depths) : Prop :=
  ∀ previous offset, ∃ tokens previous' offset', tokens.map Token.kind = kinds ∧
    tokensFrom before previous offset (text ++ rest) =
      (tokensFrom after previous' offset' rest).map (tokens ++ ·)

/-- Nothing is read as no token. -/
theorem Lexes.nil (depths : Depths) (rest : List Char) : Lexes depths [] rest [] depths := by
  intro previous offset
  refine ⟨[], previous, offset, rfl, ?_⟩
  rw [List.nil_append]
  cases tokensFrom depths previous offset rest <;> rfl

/-- Two stretches that meet at the same depths are read one after the other. -/
theorem Lexes.append {before between after : Depths} {first behind second rest : List Char}
    {kinds moreKinds : List Token.Kind} (reads : Lexes before first behind kinds between)
    (readsMore : Lexes between second rest moreKinds after)
    (meets : behind = second ++ rest := by
      simp only [List.append_assoc, List.cons_append, List.nil_append]) :
    Lexes before (first ++ second) rest (kinds ++ moreKinds) after := by
  subst meets
  intro previous offset
  obtain ⟨tokens, previous', offset', sameKinds, read⟩ := reads previous offset
  obtain ⟨more, previous'', offset'', sameMore, readMore⟩ := readsMore previous' offset'
  refine ⟨tokens ++ more, previous'', offset'', by rw [List.map_append, sameKinds, sameMore], ?_⟩
  rw [List.append_assoc, read, readMore]
  cases tokensFrom after previous'' offset'' rest <;> simp [Except.map]

/-- One token, found whatever stands before it. -/
theorem Lexes.token {before changed : Depths} {first : Char} {text rest : List Char}
    {kind : Token.Kind}
    (scanned : ∀ previous, scanToken before previous (first :: (text ++ rest)) =
      .ok (some (⟨kind, text.length + 1⟩, changed))) :
    Lexes before (first :: text) rest [kind] (changed.after first kind) := by
  intro previous offset
  let stop := offset + (text.length + 1)
  refine ⟨[⟨kind, ⟨offset, stop⟩⟩], (first :: (text ++ rest))[text.length]?, stop, rfl, ?_⟩
  rw [List.cons_append, tokensFrom, scanned previous]
  simp only [bind, Except.bind, pure, Except.pure, List.drop_left]
  generalize tokensFrom _ _ _ rest = others
  cases others <;> rfl

/-! ### What the recognisers find -/

/-- The reader stands inside of groups only. -/
def inGroups (depth : Int) : Depths := ⟨depth, 0, 0, none⟩

/-- The reader stands between the square brackets of an element inside of groups. -/
def inAttributes (depth : Int) : Depths := ⟨depth, 1, 0, none⟩

/-- The reader stands inside of double quotes between square brackets. -/
def inQuotes (depth : Int) : Depths := ⟨depth, 1, 0, some '"'⟩

/-- The reader stands inside of the text of an element inside of groups. -/
def inText (depth : Int) : Depths := ⟨depth, 0, 1, none⟩

/-- No literal begins in front of these characters, and one that began ends there. -/
def EndsLiteral (depths : Depths) (rest : List Char) : Prop :=
  ∀ previous, literalRun depths.expression depths previous rest = ⟨[], 0, depths.expression⟩

/-- A character begins neither a field, a number, a count nor white space. -/
def isUnmarked (c : Char) : Bool := c != '$' && c != '*' && !CharClass.space c

/-- Fields, numbers and the place of the wrapped text begin with a dollar sign. -/
theorem scan_other {c : Char} (rest : List Char) (other : c ≠ '$') :
    FieldMark.scan (c :: rest) = .ok none ∧ scanPlaceholder (c :: rest) = none ∧
      scanNumber (c :: rest) = none := by
  refine ⟨?_, ?_, by simp [scanNumber, other]⟩
  · unfold FieldMark.scan
    split
    · simp_all
    · rfl
  · unfold scanPlaceholder
    split
    · simp_all
    · rfl

/-- Counts begin with an asterisk. -/
theorem scanRepeater_other {c : Char} {rest : List Char} (other : c ≠ '*') :
    scanRepeater (c :: rest) = none := by
  unfold scanRepeater
  split
  · simp_all
  · rfl

/-- In front of a character other than a dollar sign stands no field. -/
theorem scanToken_other {depths : Depths} {previous : Option Char} {c : Char} {rest : List Char}
    (other : c ≠ '$') :
    scanToken depths previous (c :: rest) = .ok (scanPlain depths previous (c :: rest)) := by
  unfold scanToken
  rw [(scan_other rest other).1]
  split <;> rfl

/-- In front of an unmarked character none of the first recognisers finds a token. -/
theorem scanToken_unmarked {depths : Depths} {previous : Option Char} {c : Char}
    {rest : List Char} (unmarked : isUnmarked c) :
    scanToken depths previous (c :: rest) =
      let run := literalRun depths.expression depths previous (c :: rest)
      .ok (if run.width ≠ 0 then
        some (⟨.literal (String.ofList run.text), run.width⟩,
          { depths with expression := run.expression })
      else
        (scanMark (c :: rest)).map fun piece => (piece, depths)) := by
  simp only [isUnmarked, Bool.and_eq_true, bne_iff_ne, ne_eq, Bool.not_eq_true'] at unmarked
  obtain ⟨⟨notDollar, notStar⟩, notSpace⟩ := unmarked
  obtain ⟨_, noPlaceholder, noNumber⟩ := scan_other rest notDollar
  have noSpace : scanWhiteSpace (c :: rest) = none := by
    simp [scanWhiteSpace, notSpace]
  rw [scanToken_other notDollar]
  simp only [scanPlain, noPlaceholder, noNumber, scanRepeater_other notStar, noSpace]
  rfl

/-- A count is one token, with all the digits that follow its asterisk. -/
theorem Lexes.repeater {depths : Depths} {digits rest : List Char}
    (decimal : ∀ c ∈ digits, CharClass.digit c)
    (ends : ∀ c ∈ rest.head?, CharClass.digit c = false) :
    Lexes depths ('*' :: digits) rest
      [.repeater ((Digits.word? digits).getD 1) digits.isEmpty] depths := by
  have scanned : scanRepeater ('*' :: (digits ++ rest)) =
      some ⟨.repeater ((Digits.word? digits).getD 1) digits.isEmpty, digits.length + 1⟩ := by
    simp only [scanRepeater, takeWhile_run decimal ends]
    cases digits with
    | nil => rfl
    | cons first others => simp [Nat.add_comm]
  obtain ⟨_, noPlaceholder, noNumber⟩ := scan_other (c := '*') (digits ++ rest) (by decide)
  refine Lexes.token fun previous => ?_
  rw [scanToken_other (by decide)]
  simp [scanPlain, noPlaceholder, noNumber, scanned]

/-- A run of blanks is one token. -/
theorem Lexes.blanks {depths : Depths} {c : Char} {blanks rest : List Char}
    (blank : ∀ other ∈ c :: blanks, CharClass.space other)
    (ends : ∀ other ∈ rest.head?, CharClass.space other = false) :
    Lexes depths (c :: blanks) rest [.whiteSpace (String.ofList (c :: blanks))] depths := by
  have run := takeWhile_run blank ends
  have different : ∀ mark, CharClass.space mark = false → c ≠ mark := by
    rintro mark notBlank rfl
    exact absurd (blank c List.mem_cons_self) (by simp [notBlank])
  obtain ⟨_, noPlaceholder, noNumber⟩ := scan_other (blanks ++ rest) (different '$' rfl)
  rw [List.cons_append] at run
  refine Lexes.token fun previous => ?_
  rw [scanToken_other (different '$' rfl)]
  simp [scanPlain, noPlaceholder, noNumber, scanRepeater_other (different '*' rfl),
    scanWhiteSpace, run]

/-- A mark of one character. -/
theorem Lexes.mark {depths : Depths} {c : Char} {rest : List Char} {kind : Token.Kind}
    (unmarked : isUnmarked c) (ends : EndsLiteral depths (c :: rest))
    (marks : scanMark (c :: rest) = some ⟨kind, 1⟩) :
    Lexes depths [c] rest [kind] (depths.after c kind) := by
  refine Lexes.token fun previous => ?_
  rw [List.nil_append, scanToken_unmarked unmarked]
  simp [ends previous, marks]

/-- A dollar sign that begins no field begins the place of the wrapped text or a number. -/
theorem Lexes.dollar {depths : Depths} {text rest : List Char} {kind : Token.Kind}
    (noField : FieldMark.scan ('$' :: (text ++ rest)) = .ok none)
    (scanned : (scanPlaceholder ('$' :: (text ++ rest)) <|> scanNumber ('$' :: (text ++ rest))) =
      some ⟨kind, text.length + 1⟩) :
    Lexes depths ('$' :: text) rest [kind] (depths.after '$' kind) := by
  refine Lexes.token fun previous => ?_
  have plain : scanPlain depths previous ('$' :: (text ++ rest)) =
      some (⟨kind, text.length + 1⟩, depths) := by
    unfold scanPlain
    cases placed : scanPlaceholder ('$' :: (text ++ rest)) <;> simp_all
  unfold scanToken
  rw [noField, plain]
  split <;> rfl

/-- A literal that ends in front of `rest`, at a depth of braces that it leads to. -/
theorem Lexes.literalTo {depths : Depths} {c : Char} {text rest value : List Char}
    {expression : Int} (unmarked : isUnmarked c)
    (run : ∀ previous, literalRun depths.expression depths previous (c :: (text ++ rest)) =
      ⟨value, text.length + 1, expression⟩) :
    Lexes depths (c :: text) rest [.literal (String.ofList value)]
      { depths with expression } := by
  have scanned : ∀ previous, scanToken depths previous (c :: (text ++ rest)) =
      .ok (some (⟨.literal (String.ofList value), text.length + 1⟩,
        { depths with expression })) := by
    intro previous
    rw [scanToken_unmarked unmarked]
    simp [run previous]
  exact Lexes.token scanned

/-- A literal that ends in front of `rest` and leaves the depths as they are. -/
theorem Lexes.literal {depths : Depths} {c : Char} {text rest value : List Char}
    (unmarked : isUnmarked c)
    (run : ∀ previous, literalRun depths.expression depths previous (c :: (text ++ rest)) =
      ⟨value, text.length + 1, depths.expression⟩) :
    Lexes depths (c :: text) rest [.literal (String.ofList value)] depths :=
  Lexes.literalTo unmarked run

/-! ### Runs of a literal -/

/-- A character that ends the literals of the depths at hand stands in front. -/
theorem endsLiteral_cons {depths : Depths} {c : Char} (rest : List Char) (notEscape : c ≠ '\\')
    (notSlash : c ≠ '/')
    (ends : endsLiteral depths c = true ∨ (0 < depths.expression ∧ c = '}') ∨
      (depths.expression = 0 ∧ endsPlainLiteral depths c = true)) :
    EndsLiteral depths (c :: rest) := by
  intro previous
  rw [literalRun.eq_def]
  rcases ends with ends | ⟨deep, rfl⟩ | ⟨flat, ends⟩
  · simp [notEscape, notSlash, ends]
  · simp [deep]
  · simp [notEscape, notSlash, flat, ends]

/-- A plain name character is no mark. -/
theorem not_mark_of_plain {c : Char} (plain : isPlainNameChar c) :
    Operator.ofChar? c = none ∧ Enclosure.ofChar? c = none ∧ CharClass.quote c = false ∧
      CharClass.space c = false ∧ c ≠ '\\' ∧ c ≠ '/' ∧ c ≠ '$' ∧ c ≠ '*' := by
  have different : ∀ mark, isPlainNameChar mark = false → c ≠ mark := by
    rintro mark notPlain rfl
    rw [notPlain] at plain
    cases plain
  refine ⟨?_, ?_, ?_, ?_, different _ rfl, different _ rfl, different _ rfl, different _ rfl⟩
  · unfold Operator.ofChar?
    split <;> first | rfl | exact absurd rfl (different _ rfl)
  · unfold Enclosure.ofChar?
    split <;> first | rfl | exact absurd rfl (different _ rfl)
  · simp [CharClass.quote, different '"' rfl, different '\'' rfl]
  · simp [CharClass.space, different ' ' rfl, different '\t' rfl, different '\u00a0' rfl]

/-- A plain name character begins no other token. -/
theorem isUnmarked_of_plain {c : Char} (plain : isPlainNameChar c) : isUnmarked c := by
  obtain ⟨_, _, _, notSpace, _, _, notDollar, notStar⟩ := not_mark_of_plain plain
  simp [isUnmarked, notDollar, notStar, notSpace]

/-- A plain name is one run of a literal outside of texts and quotes. -/
theorem literalRun_plain {depths : Depths} {name rest : List Char} (flat : depths.expression = 0)
    (unquoted : depths.quote = none) (plain : ∀ c ∈ name, isPlainNameChar c)
    (ends : EndsLiteral depths rest) (previous : Option Char) :
    literalRun depths.expression depths previous (name ++ rest) =
      ⟨name, name.length, depths.expression⟩ := by
  induction name generalizing previous with
  | nil => exact ends previous
  | cons c name ih =>
    have plainFirst := plain c List.mem_cons_self
    obtain ⟨noOperator, noBracket, noQuote, notSpace, notEscape, notSlash, notDollar, notStar⟩ :=
      not_mark_of_plain plainFirst
    have goesOn : endsLiteral depths c = false := by
      simp [endsLiteral, Depths.admitsOperator, noOperator, unquoted, notDollar]
    have isName : isNameChar c = true := by
      simp only [isPlainNameChar, Bool.or_eq_true, beq_iff_eq] at plainFirst
      simp only [isNameChar, Bool.or_eq_true, beq_iff_eq]
      tauto
    have goesOnPlain : endsPlainLiteral depths c = false := by
      simp [endsPlainLiteral, isName, notSpace, notStar, noQuote, noBracket]
    have read := ih (fun other member => plain other (List.mem_cons_of_mem c member)) (some c)
    rw [flat] at read ⊢
    rw [List.cons_append, literalRun.eq_def]
    simp [notEscape, notSlash, goesOn, goesOnPlain, read, LiteralRun.cons]

/-- A text with backslashes is one run of a literal at any depths. -/
theorem literalRun_escaped {depths : Depths} {rest : List Char} (text : List Char)
    (ends : EndsLiteral depths rest) (previous : Option Char) :
    literalRun depths.expression depths previous (escaped text ++ rest) =
      ⟨text, (escaped text).length, depths.expression⟩ := by
  induction text generalizing previous with
  | nil => exact ends previous
  | cons c text ih =>
    have read := ih (some c)
    simp only [escaped, List.flatMap_cons, List.cons_append, List.nil_append] at read ⊢
    rw [literalRun, if_pos rfl, read]
    simp [LiteralRun.cons]

/-! ### The kinds of the tokens -/

/-- A literal, unless its text is empty. -/
def literalKinds (text : String) : List Token.Kind :=
  if text.toList = [] then [] else [.literal text]

/-- The tokens of a count of copies. -/
def countKinds : Option CopyCount → List Token.Kind
  | none => []
  | some count => [.repeater count.value false]

/-- The tokens of a text in braces. -/
def textKinds : Option String → List Token.Kind
  | none => []
  | some text => .bracket true .expression :: (literalKinds text ++ [.bracket false .expression])

/-- The tokens of an attribute. -/
def OutlineAttribute.kinds (written : OutlineAttribute) : List Token.Kind :=
  [.literal written.name, .operator .equal, .quote false] ++ literalKinds written.value ++
    [.quote false]

/-- The tokens of further attributes, each behind a blank. -/
def moreAttributeKinds (attributes : List OutlineAttribute) : List Token.Kind :=
  attributes.flatMap fun written => .whiteSpace " " :: written.kinds

/-- The tokens of attributes in square brackets. -/
def attributesKinds : List OutlineAttribute → List Token.Kind
  | [] => []
  | first :: rest =>
    .bracket true .attributes ::
      (first.kinds ++ moreAttributeKinds rest ++ [.bracket false .attributes])

/-- The tokens of an element without the statements below it. -/
def OutlineHead.kinds (head : OutlineHead) : List Token.Kind :=
  .literal head.name ::
    (attributesKinds head.attributes ++ textKinds head.text ++ countKinds head.count)

/-- The tokens of an outline among others. -/
def Outline.encloseKinds (outline : Outline) (kinds : List Token.Kind) : List Token.Kind :=
  match outline with
  | .element _ _ => .bracket true .group :: (kinds ++ [.bracket false .group])
  | .group _ _ => kinds

mutual

/-- The tokens of an outline. -/
def Outline.kinds : Outline → List Token.Kind
  | .element head children => head.kinds ++ kindsJoined [.operator .child] children
  | .group members count =>
    .bracket true .group :: (kindsJoined [] members ++ .bracket false .group :: countKinds count)

/-- The tokens of outlines joined by plus signs. -/
def kindsJoined (lead : List Token.Kind) : List Outline → List Token.Kind
  | [] => []
  | first :: rest =>
    lead ++ first.encloseKinds first.kinds ++ kindsJoined [.operator .sibling] rest

end

/-! ### Reading piece by piece -/

/-- What stands here ends a plain name and a number. -/
def Borders (rest : List Char) : Prop := ∀ c ∈ rest.head?, c ∈ ['[', '{', '*', '>', '+', ')']

/-- The end of the source borders on every name. -/
theorem borders_nil : Borders [] := by
  simp [Borders]

/-- The characters that end a name border on it. -/
theorem borders_cons {c : Char} (rest : List Char) (border : c ∈ ['[', '{', '*', '>', '+', ')']) :
    Borders (c :: rest) := by
  intro other same
  simp only [List.head?_cons, Option.mem_def, Option.some.injEq] at same
  exact same ▸ border

/-- A count borders on a name. -/
theorem borders_count (count : Option CopyCount) {rest : List Char} (border : Borders rest) :
    Borders (printCount count ++ rest) := by
  cases count with
  | none => exact border
  | some count => exact borders_cons _ (by decide)

/-- A text borders on a name. -/
theorem borders_text (text : Option String) {rest : List Char} (border : Borders rest) :
    Borders (printText text ++ rest) := by
  cases text with
  | none => exact border
  | some text => exact borders_cons _ (by decide)

/-- Attributes border on a name. -/
theorem borders_attributes (attributes : List OutlineAttribute) {rest : List Char}
    (border : Borders rest) : Borders (printAttributes attributes ++ rest) := by
  cases attributes with
  | nil => exact border
  | cons first others => exact borders_cons _ (by decide)

/-- A border ends a literal inside of groups. -/
theorem Borders.endsLiteral {rest : List Char} (border : Borders rest) (depth : Int) :
    EndsLiteral (inGroups depth) rest := by
  cases rest with
  | nil => exact fun previous => rfl
  | cons c rest =>
    have mark := border c rfl
    simp only [List.mem_cons, List.not_mem_nil, or_false] at mark
    rcases mark with rfl | rfl | rfl | rfl | rfl | rfl <;>
      exact endsLiteral_cons rest (by decide) (by decide) (.inr (.inr ⟨rfl, rfl⟩))

/-- A border is no digit. -/
theorem Borders.notDigit {rest : List Char} (border : Borders rest) :
    ∀ c ∈ rest.head?, CharClass.digit c = false := by
  intro c first
  have mark := border c first
  simp only [List.mem_cons, List.not_mem_nil, or_false] at mark
  rcases mark with rfl | rfl | rfl | rfl | rfl | rfl <;> rfl

/-- A count of copies is one token. -/
theorem lexes_count (depth : Int) (count : Option CopyCount) {rest : List Char}
    (border : Borders rest) :
    Lexes (inGroups depth) (printCount count) rest (countKinds count) (inGroups depth) := by
  cases count with
  | none => exact Lexes.nil _ _
  | some count =>
    have decimal : ∀ c ∈ Nat.toDigits 10 count.value, CharClass.digit c :=
      fun c member => Digits.digit_of_mem_toDigits member
    have filled : (Nat.toDigits 10 count.value).isEmpty = false := by
      simp [Nat.toDigits_ne_nil]
    have read : Lexes (inGroups depth) ('*' :: Nat.toDigits 10 count.value) rest
        [.repeater ((Digits.word? (Nat.toDigits 10 count.value)).getD 1)
          (Nat.toDigits 10 count.value).isEmpty] (inGroups depth) :=
      .repeater decimal border.notDigit
    rwa [Digits.word?_toDigits count.bounded, filled] at read

/-- A text with backslashes is one literal, or nothing when it is empty. -/
theorem lexes_escaped {depths : Depths} {rest : List Char} (text : String)
    (ends : EndsLiteral depths rest) :
    Lexes depths (escaped text.toList) rest (literalKinds text) depths := by
  have run := literalRun_escaped text.toList ends
  cases split : text.toList with
  | nil =>
    rw [literalKinds, if_pos split]
    exact Lexes.nil depths rest
  | cons c others =>
    rw [split] at run
    rw [literalKinds, if_neg (by rw [split]; exact List.cons_ne_nil c others),
      ← String.ofList_toList (s := text), split]
    exact Lexes.literal (by decide) run

/-- A plain name is one literal outside of texts and quotes. -/
theorem lexes_plain {depths : Depths} {name : String} {rest : List Char}
    (flat : depths.expression = 0) (unquoted : depths.quote = none)
    (named : name.toList ≠ []) (plain : ∀ c ∈ name.toList, isPlainNameChar c)
    (ends : EndsLiteral depths rest) :
    Lexes depths name.toList rest [.literal name] depths := by
  have run := literalRun_plain flat unquoted plain ends
  have value : name = String.ofList name.toList := String.ofList_toList.symm
  cases split : name.toList with
  | nil => exact absurd split named
  | cons c others =>
    rw [split] at run plain value
    rw [value]
    exact Lexes.literal (isUnmarked_of_plain (plain c List.mem_cons_self)) run

/-- Braces around a stretch that is read as a text. -/
theorem Lexes.braced {depth : Int} {text rest : List Char} {kinds : List Token.Kind}
    (inside : Lexes (inText depth) text ('}' :: rest) kinds (inText depth)) :
    Lexes (inGroups depth) ('{' :: (text ++ ['}'])) rest
      (.bracket true .expression :: (kinds ++ [.bracket false .expression])) (inGroups depth) := by
  have opening : Lexes (inGroups depth) ['{'] (text ++ ['}'] ++ rest) [.bracket true .expression]
      (inText depth) :=
    Lexes.mark rfl (endsLiteral_cons _ (by decide) (by decide) (.inr (.inr ⟨rfl, rfl⟩))) rfl
  have closing : Lexes (inText depth) ['}'] rest [.bracket false .expression]
      (inGroups depth) :=
    Lexes.mark rfl
      (endsLiteral_cons rest (by decide) (by decide) (.inr (.inl ⟨Int.one_pos, rfl⟩))) rfl
  have whole := opening.append (inside.append closing rfl)
  simpa using whole

/-- A text in braces. -/
theorem lexes_text (depth : Int) (text : Option String) (rest : List Char) :
    Lexes (inGroups depth) (printText text) rest (textKinds text) (inGroups depth) := by
  cases text with
  | none => exact Lexes.nil _ _
  | some text =>
    exact (lexes_escaped text
      (endsLiteral_cons rest (by decide) (by decide) (.inr (.inl ⟨Int.one_pos, rfl⟩)))).braced

/-- The letters of an attribute name are plain. -/
theorem OutlineAttribute.plain (written : OutlineAttribute) :
    ∀ c ∈ written.name.toList, isPlainNameChar c := by
  intro c member
  have letter := written.letters c member
  simp [isPlainNameChar, CharClass.wordOrDigit, CharClass.wordLetter, letter]

/-- Quotes around a stretch that is read as the value of an attribute, behind its name. -/
theorem Lexes.assigned {depth : Int} {name : String} {text rest : List Char}
    {kinds : List Token.Kind} (named : name.toList ≠ [])
    (plain : ∀ c ∈ name.toList, isPlainNameChar c)
    (inside : Lexes (inQuotes depth) text ('"' :: rest) kinds (inQuotes depth)) :
    Lexes (inAttributes depth) (name.toList ++ '=' :: '"' :: (text ++ ['"'])) rest
      (.literal name :: .operator .equal :: .quote false :: (kinds ++ [.quote false]))
      (inAttributes depth) := by
  have ownName : Lexes (inAttributes depth) name.toList ('=' :: '"' :: (text ++ ['"']) ++ rest)
      [.literal name] (inAttributes depth) :=
    lexes_plain rfl rfl named plain (endsLiteral_cons _ (by decide) (by decide) (.inl rfl))
  have equal : Lexes (inAttributes depth) ['='] ('"' :: (text ++ ['"']) ++ rest)
      [.operator .equal] (inAttributes depth) :=
    Lexes.mark rfl (endsLiteral_cons _ (by decide) (by decide) (.inl rfl)) rfl
  have opening : Lexes (inAttributes depth) ['"'] (text ++ ['"'] ++ rest) [.quote false]
      (inQuotes depth) :=
    Lexes.mark rfl (endsLiteral_cons _ (by decide) (by decide) (.inr (.inr ⟨rfl, rfl⟩))) rfl
  have closing : Lexes (inQuotes depth) ['"'] rest [.quote false] (inAttributes depth) :=
    Lexes.mark rfl (endsLiteral_cons rest (by decide) (by decide) (.inl rfl)) rfl
  have whole := ownName.append (equal.append (opening.append (inside.append closing rfl)))
  simpa using whole

/-- An attribute between square brackets. -/
theorem lexes_attribute (depth : Int) (written : OutlineAttribute) (rest : List Char) :
    Lexes (inAttributes depth) written.print rest written.kinds (inAttributes depth) := by
  have inside : Lexes (inQuotes depth) (escaped written.value.toList) ('"' :: rest)
      (literalKinds written.value) (inQuotes depth) :=
    lexes_escaped written.value (endsLiteral_cons rest (by decide) (by decide) (.inl rfl))
  exact inside.assigned written.named written.plain

/-- A blank in front of an attribute. -/
theorem lexes_blank (depth : Int) (written : OutlineAttribute) (rest : List Char) :
    Lexes (inAttributes depth) [' '] (written.print ++ rest) [.whiteSpace " "]
      (inAttributes depth) := by
  refine Lexes.blanks (by simp [CharClass.space]) fun c first => ?_
  cases split : written.name.toList with
  | nil => exact absurd split written.named
  | cons initial others =>
    have plain := written.plain initial (by rw [split]; exact List.mem_cons_self)
    obtain ⟨_, _, _, notSpace, _⟩ := not_mark_of_plain plain
    simp only [OutlineAttribute.print, split, List.cons_append, List.head?_cons, Option.mem_def,
      Option.some.injEq] at first
    exact first ▸ notSpace

/-- Further attributes, each behind a blank. -/
theorem lexes_moreAttributes (depth : Int) (attributes : List OutlineAttribute)
    (rest : List Char) :
    Lexes (inAttributes depth) (printMoreAttributes attributes) rest
      (moreAttributeKinds attributes) (inAttributes depth) := by
  induction attributes with
  | nil => exact Lexes.nil _ _
  | cons first others ih =>
    have blank := lexes_blank depth first (printMoreAttributes others ++ rest)
    have read := lexes_attribute depth first (printMoreAttributes others ++ rest)
    have whole := blank.append (read.append ih)
    simpa [printMoreAttributes, moreAttributeKinds] using whole

/-- Square brackets around a stretch that is read as attributes. -/
theorem Lexes.bracketed {depth : Int} {text rest : List Char} {kinds : List Token.Kind}
    (inside : Lexes (inAttributes depth) text (']' :: rest) kinds (inAttributes depth)) :
    Lexes (inGroups depth) ('[' :: (text ++ [']'])) rest
      (.bracket true .attributes :: (kinds ++ [.bracket false .attributes])) (inGroups depth) := by
  have opening : Lexes (inGroups depth) ['['] (text ++ [']'] ++ rest) [.bracket true .attributes]
      (inAttributes depth) :=
    Lexes.mark rfl (endsLiteral_cons _ (by decide) (by decide) (.inr (.inr ⟨rfl, rfl⟩))) rfl
  have closing : Lexes (inAttributes depth) [']'] rest [.bracket false .attributes]
      (inGroups depth) :=
    Lexes.mark rfl (endsLiteral_cons _ (by decide) (by decide) (.inr (.inr ⟨rfl, rfl⟩))) rfl
  have whole := opening.append (inside.append closing rfl)
  simpa using whole

/-- The attributes of an element. -/
theorem lexes_attributes (depth : Int) (attributes : List OutlineAttribute) (rest : List Char) :
    Lexes (inGroups depth) (printAttributes attributes) rest (attributesKinds attributes)
      (inGroups depth) := by
  cases attributes with
  | nil => exact Lexes.nil _ _
  | cons first others =>
    have read := lexes_attribute depth first (printMoreAttributes others ++ (']' :: rest))
    have readMore := lexes_moreAttributes depth others (']' :: rest)
    exact (read.append readMore rfl).bracketed

/-- An element without the statements below it. -/
theorem lexes_head (depth : Int) (head : OutlineHead) {rest : List Char}
    (border : Borders rest) :
    Lexes (inGroups depth) head.print rest head.kinds (inGroups depth) := by
  have behindCount := borders_count head.count border
  have behindText := borders_text head.text behindCount
  have behindAttributes := borders_attributes head.attributes behindText
  have name := lexes_plain rfl rfl head.named head.plain (behindAttributes.endsLiteral depth)
  have attributes := lexes_attributes depth head.attributes
    (printText head.text ++ (printCount head.count ++ rest))
  have text := lexes_text depth head.text (printCount head.count ++ rest)
  have count := lexes_count depth head.count border
  have whole := name.append (attributes.append (text.append count))
  simpa [OutlineHead.print, OutlineHead.kinds] using whole

/-- What follows an outline among others ends its last name or number. -/
theorem borders_joined {c : Char} (border : c ∈ ['[', '{', '*', '>', '+', ')'])
    (outlines : List Outline) {rest : List Char} (behind : Borders rest) :
    Borders (printJoined [c] outlines ++ rest) := by
  cases outlines with
  | nil => exact behind
  | cons first others => exact borders_cons _ border

/-- Round brackets around a stretch that is read one group deeper. -/
theorem Lexes.enclosed {depth : Int} {text rest : List Char} {kinds : List Token.Kind}
    (inside : Lexes (inGroups (depth + 1)) text (')' :: rest) kinds (inGroups (depth + 1))) :
    Lexes (inGroups depth) ('(' :: (text ++ [')'])) rest
      (.bracket true .group :: (kinds ++ [.bracket false .group])) (inGroups depth) := by
  have opening : Lexes (inGroups depth) ['('] (text ++ [')'] ++ rest) [.bracket true .group]
      (inGroups (depth + 1)) :=
    Lexes.mark rfl (endsLiteral_cons _ (by decide) (by decide) (.inr (.inr ⟨rfl, rfl⟩))) rfl
  have closing : Lexes (inGroups (depth + 1)) [')'] rest [.bracket false .group]
      (inGroups (depth + 1 + -1)) :=
    Lexes.mark rfl (endsLiteral_cons rest (by decide) (by decide) (.inr (.inr ⟨rfl, rfl⟩))) rfl
  have back : depth + 1 + -1 = depth := by omega
  rw [back] at closing
  have whole := opening.append (inside.append closing rfl)
  simpa using whole

mutual

/-- An outline is read as its tokens, at any depth of groups. -/
theorem Outline.lexes (outline : Outline) (depth : Int) {rest : List Char}
    (border : Borders rest) :
    Lexes (inGroups depth) outline.print rest outline.kinds (inGroups depth) := by
  cases outline with
  | element head children =>
    have child (behind : List Char) : Lexes (inGroups depth) ['>'] behind [.operator .child]
        (inGroups depth) :=
      Lexes.mark rfl (endsLiteral_cons behind (by decide) (by decide) (.inl rfl)) rfl
    have own := lexes_head depth head (borders_joined (c := '>') (by decide) children border)
    have below := lexes_joined children depth child border
    have whole := own.append below
    simpa only [Outline.print, Outline.kinds] using whole
  | group members count =>
    have inside := lexes_joined members (depth + 1) (Lexes.nil _)
      (borders_cons (c := ')') (printCount count ++ rest) (by decide))
    have whole := inside.enclosed.append (lexes_count depth count border)
    simpa [Outline.print, Outline.kinds] using whole

/-- Joined outlines are read as their tokens, given how what leads them is read. -/
theorem lexes_joined (outlines : List Outline) (depth : Int) {lead rest : List Char}
    {leadKinds : List Token.Kind}
    (leads : ∀ behind, Lexes (inGroups depth) lead behind leadKinds (inGroups depth))
    (border : Borders rest) :
    Lexes (inGroups depth) (printJoined lead outlines) rest (kindsJoined leadKinds outlines)
      (inGroups depth) := by
  cases outlines with
  | nil => exact Lexes.nil _ _
  | cons first others =>
    have sibling (behind : List Char) : Lexes (inGroups depth) ['+'] behind
        [.operator .sibling] (inGroups depth) :=
      Lexes.mark rfl (endsLiteral_cons behind (by decide) (by decide) (.inl rfl)) rfl
    have behindFirst := borders_joined (c := '+') (by decide) others border
    have readFirst : Lexes (inGroups depth) (first.enclose first.print)
        (printJoined ['+'] others ++ rest) (first.encloseKinds first.kinds) (inGroups depth) := by
      cases first with
      | element head children =>
        have inside := (Outline.element head children).lexes (depth + 1)
          (borders_cons (c := ')') (printJoined ['+'] others ++ rest) (by decide))
        exact inside.enclosed
      | group members count => exact (Outline.group members count).lexes depth behindFirst
    have readOthers := lexes_joined others depth sibling border
    have whole := (leads _).append (readFirst.append readOthers) rfl
    simpa [printJoined, kindsJoined] using whole

end

/-- A stretch that is the whole abbreviation is read as its tokens. -/
theorem Lexes.tokens {text : List Char} {kinds : List Token.Kind} {after : Depths}
    (read : Lexes .outside text [] kinds after) :
    ∃ found, found.map Token.kind = kinds ∧ tokens (String.ofList text) = .ok found := by
  obtain ⟨found, previous, offset, sameKinds, read⟩ := read none 0
  refine ⟨found, sameKinds, ?_⟩
  rw [List.append_nil] at read
  rw [Markup.tokens, mapError_within_eq_ok_iff, String.toList_ofList, read]
  simp [tokensFrom, Except.map]

/-- The tokens of written outlines, up to their places. -/
theorem tokens_printAll (outlines : List Outline) :
    ∃ found, found.map Token.kind = kindsJoined [] outlines ∧
      tokens (printAll outlines) = .ok found :=
  (lexes_joined outlines 0 (Lexes.nil _) borders_nil).tokens

end Shorthand.Markup
