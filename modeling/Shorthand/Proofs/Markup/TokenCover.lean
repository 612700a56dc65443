import Shorthand.Markup.Token.Lexer
import Shorthand.Proofs.FieldMark
import Shorthand.Proofs.Span

/-!
# Tokens of a markup abbreviation cover it

Nothing of an abbreviation is lost in its tokens: their spans tile it, and every token is
`WrittenAs` the characters it covers. Each recogniser is looked at once, for what it says
about the characters in front of it; the reader only puts their findings side by side.
-/

namespace Shorthand.Markup

/-- A text without its escapes: a backslash goes, and the character behind it stays. -/
def unescaped : List Char → List Char
  | [] => []
  | c :: rest =>
    if c = '\\' then
      match rest with
      | [] => []
      | escaped :: rest => escaped :: unescaped rest
    else
      c :: unescaped rest

/-- A character that is no escape stands for itself. -/
theorem unescaped_plain {c : Char} (rest : List Char) (notEscape : c ≠ '\\') :
    unescaped (c :: rest) = c :: unescaped rest := by
  rw [unescaped.eq_def]
  exact if_neg notEscape

/-- The number that digits write. It is one without digits and beyond a machine word. -/
def countOf (digits : List Char) : Nat :=
  if digits ≠ [] ∧ Digits.natOf digits < Digits.wordLimit then Digits.natOf digits else 1

/-- How each kind of token is written. -/
inductive Token.Kind.WrittenAs : Token.Kind → List Char → Prop where
  | literal (text : List Char) : WrittenAs (.literal (String.ofList (unescaped text))) text
  | whiteSpace (text : List Char) : WrittenAs (.whiteSpace (String.ofList text)) text
  | quote (isSingle : Bool) : WrittenAs (.quote isSingle) [if isSingle then '\'' else '"']
  | bracket (isOpen : Bool) (enclosure : Enclosure) :
      WrittenAs (.bracket isOpen enclosure) [enclosure.char isOpen]
  | operator (operator : Operator) : WrittenAs (.operator operator) [operator.char]
  | repeater {digits : List Char} (decimal : ∀ c ∈ digits, CharClass.digit c) :
      WrittenAs (.repeater (countOf digits) digits.isEmpty) ('*' :: digits)
  | number {size : Nat} (filled : 0 < size) :
      WrittenAs (.repeaterNumber size false 1 0) (List.replicate size '$')
  | numberFrom {size parent : Nat} {isReverse : Bool} {digits : List Char} (filled : 0 < size)
      (decimal : ∀ c ∈ digits, CharClass.digit c) :
      WrittenAs (.repeaterNumber size isReverse (countOf digits) parent)
        (List.replicate size '$' ++ '@' :: (List.replicate parent '^' ++
          ((if isReverse then ['-'] else []) ++ digits)))
  | placeholder : WrittenAs .repeaterPlaceholder ['$', '#']
  | field {mark : FieldMark} {text : List Char} (spells : mark.Spells text) :
      WrittenAs (.field mark.index mark.name) text

/-! ### What the recognisers find -/

/-- The place of the repeated text is written as it stands in the source. -/
theorem scanPlaceholder_begins {input : List Char} {piece : Piece}
    (scanned : scanPlaceholder input = some piece) :
    Begins piece.width piece.kind.WrittenAs input := by
  unfold scanPlaceholder at scanned
  split at scanned
  · next rest =>
    cases scanned
    exact ⟨['$', '#'], rest, rfl, rfl, .placeholder⟩
  · cases scanned

/-- A count without digits is one, like a count that is too large. -/
theorem countOf_eq (digits : List Char) (decimal : ∀ c ∈ digits, CharClass.digit c) :
    countOf digits = (Digits.word? digits).getD 1 := by
  have all : digits.all CharClass.digit = true := List.all_eq_true.mpr decimal
  cases digits with
  | nil => rfl
  | cons first rest =>
    simp only [countOf, Digits.word?, all, List.isEmpty_cons, ne_eq, reduceCtorEq,
      not_false_eq_true, true_and, Bool.not_true, Bool.or_self, Bool.false_eq_true, if_false]
    split <;> rfl

/-- A repeater is written as it stands in the source. -/
theorem scanRepeater_begins {input : List Char} {piece : Piece}
    (scanned : scanRepeater input = some piece) :
    Begins piece.width piece.kind.WrittenAs input := by
  unfold scanRepeater at scanned
  split at scanned
  case h_2 => cases scanned
  case h_1 rest =>
    have decimal : ∀ c ∈ rest.takeWhile CharClass.digit, CharClass.digit c :=
      fun c member => List.mem_takeWhile_imp member
    have whole := List.takeWhile_append_dropWhile (p := CharClass.digit) (l := rest)
    have written := Token.Kind.WrittenAs.repeater decimal
    rw [countOf_eq _ decimal] at written
    generalize rest.takeWhile CharClass.digit = digits at *
    refine ⟨'*' :: digits, rest.dropWhile CharClass.digit, by rw [List.cons_append, whole], ?_⟩
    dsimp only at scanned
    split at scanned
    case isTrue empty =>
      rw [List.isEmpty_iff] at empty
      subst empty
      cases scanned
      exact ⟨rfl, written⟩
    case isFalse filled =>
      rw [Bool.not_eq_true] at filled
      rw [filled] at written
      cases scanned
      exact ⟨Nat.add_comm _ 1, written⟩

/-- White space is written as it stands in the source. -/
theorem scanWhiteSpace_begins {input : List Char} {piece : Piece}
    (scanned : scanWhiteSpace input = some piece) :
    Begins piece.width piece.kind.WrittenAs input := by
  simp only [scanWhiteSpace] at scanned
  split at scanned
  · cases scanned
  · cases scanned
    exact ⟨_, _, List.takeWhile_append_dropWhile.symm, rfl, .whiteSpace _⟩

/-- A list is what it begins with of one character, and the rest. -/
theorem replicate_append_drop (c : Char) (input : List Char) :
    List.replicate (input.takeWhile (· == c)).length c ++
      input.drop (input.takeWhile (· == c)).length = input := by
  have same : input.takeWhile (· == c) = List.replicate (input.takeWhile (· == c)).length c :=
    List.eq_replicate_iff.mpr ⟨rfl, fun other member => by
      simpa using List.mem_takeWhile_imp member⟩
  rw [← same]
  exact List.prefix_iff_eq_append.mp (List.takeWhile_prefix _)

/-- A dash is passed over if it stands in front. -/
theorem dash_append_drop (input : List Char) :
    (if input.head? == some '-' then ['-'] else []) ++
      input.drop (if input.head? == some '-' then 1 else 0) = input := by
  split
  case isTrue isDash =>
    cases input with
    | nil => cases isDash
    | cons c rest =>
      simp only [List.head?_cons, beq_iff_eq, Option.some.injEq] at isDash
      simp [isDash]
  case isFalse => rfl

/-- A number of a copy is written as it stands in the source. -/
theorem scanNumber_begins {input : List Char} {piece : Piece}
    (scanned : scanNumber input = some piece) :
    Begins piece.width piece.kind.WrittenAs input := by
  have dollars := replicate_append_drop '$' input
  simp only [scanNumber] at scanned
  generalize (input.takeWhile (· == '$')).length = size at *
  split at scanned
  case isTrue => cases scanned
  case isFalse filled =>
    have filled : 0 < size := Nat.pos_of_ne_zero filled
    split at scanned
    case h_2 =>
      cases scanned
      exact ⟨List.replicate size '$', input.drop size, dollars.symm, List.length_replicate,
        .number filled⟩
    case h_1 rest isAt =>
      rw [isAt] at dollars
      have carets := replicate_append_drop '^' rest
      generalize (rest.takeWhile (· == '^')).length = parent at *
      have dash := dash_append_drop (rest.drop parent)
      generalize rest.drop parent = behind at *
      generalize (behind.head? == some '-') = isReverse at *
      have behindDash : (behind.drop (if isReverse then 1 else 0)).takeWhile CharClass.digit ++
          (behind.drop (if isReverse then 1 else 0)).dropWhile CharClass.digit =
            behind.drop (if isReverse then 1 else 0) := List.takeWhile_append_dropWhile
      have decimal : ∀ c ∈ (behind.drop (if isReverse then 1 else 0)).takeWhile CharClass.digit,
          CharClass.digit c := fun c member => List.mem_takeWhile_imp member
      generalize (behind.drop (if isReverse then 1 else 0)).takeWhile CharClass.digit = digits at *
      generalize (behind.drop (if isReverse then 1 else 0)).dropWhile CharClass.digit = rest at *
      -- The count that is read is the number the digits stand for, and one if there are none.
      have count : (if digits.isEmpty then 1 else (Digits.word? digits).getD 1) =
          countOf digits := by
        rw [countOf_eq digits decimal]
        cases digits <;> rfl
      rw [count] at scanned
      cases scanned
      refine ⟨List.replicate size '$' ++ '@' :: (List.replicate parent '^' ++
          ((if isReverse then ['-'] else []) ++ digits)), rest, ?_, ?_, .numberFrom filled decimal⟩
      · simp only [List.append_assoc, List.cons_append, behindDash, dash, carets, dollars]
      · cases isReverse <;>
          simp only [List.length_append, List.length_cons, List.length_replicate,
            List.length_nil, if_true, if_false, Bool.false_eq_true] <;> omega

/-! ### Literals and marks -/

/-- A literal that is read is what it covers without the escapes. -/
def LiteralRun.Reads (run : LiteralRun) (input : List Char) : Prop :=
  Begins run.width (fun text => run.text = unescaped text) input

/-- The empty literal reads no characters. -/
theorem LiteralRun.reads_nil (expression : Int) (input : List Char) :
    (⟨[], 0, expression⟩ : LiteralRun).Reads input :=
  ⟨[], input, rfl, rfl, rfl⟩

/-- A character that is no escape is read as itself. -/
theorem LiteralRun.Reads.plain {run : LiteralRun} {c : Char} {rest : List Char}
    (reads : run.Reads rest) (notEscape : c ≠ '\\') : (run.cons c 1).Reads (c :: rest) := by
  obtain ⟨text, behind, rfl, width, same⟩ := reads
  refine ⟨c :: text, behind, rfl, by simp [cons, width], ?_⟩
  simp only [cons, unescaped_plain text notEscape, same]

/-- A character behind an escape is read as itself. -/
theorem LiteralRun.Reads.escaped {run : LiteralRun} {rest : List Char} (reads : run.Reads rest)
    (c : Char) : (run.cons c 2).Reads ('\\' :: c :: rest) := by
  obtain ⟨text, behind, rfl, width, same⟩ := reads
  exact ⟨'\\' :: c :: text, behind, rfl, by simp [cons, width], by simp [cons, unescaped, same]⟩

/-- The characters of a literal are those of the source without the escapes. -/
theorem literalRun_reads (base : Int) (depths : Depths) (previous : Option Char)
    (input : List Char) : (literalRun base depths previous input).Reads input := by
  fun_induction literalRun base depths previous input with
  | case1 | case5 | case8 | case10 => exact LiteralRun.reads_nil _ _
  | case2 => exact ⟨['\\'], [], rfl, rfl, rfl⟩
  | case3 depths previous c rest ih => exact ih.escaped c
  | case4 depths previous c rest notEscape slash ih => exact ih.plain notEscape
  | case6 depths previous rest inText deeper notEscape noSlash goesOn ih => exact ih.plain notEscape
  | case7 depths previous rest inText inBraces shallower notEscape noSlash goesOn notOpen ih =>
    exact ih.plain notEscape
  | case9 depths previous c rest notEscape noSlash goesOn inText notOpen notClosed ih =>
    exact ih.plain notEscape
  | case11 depths previous c rest notEscape noSlash goesOn notInText goesOnPlain ih =>
    exact ih.plain notEscape

/-- An operator is written with the character that it is read from. -/
theorem Operator.char_of_ofChar? {c : Char} {operator : Operator}
    (writes : Operator.ofChar? c = some operator) : operator.char = c := by
  unfold Operator.ofChar? at writes
  split at writes <;> cases writes <;> rfl

/-- A bracket is written with the character that it is read from. -/
theorem Enclosure.char_of_ofChar? {c : Char} {enclosure : Enclosure}
    (writes : Enclosure.ofChar? c = some enclosure) :
    enclosure.char (c == '(' || c == '[' || c == '{') = c := by
  unfold Enclosure.ofChar? at writes
  split at writes <;> cases writes <;> rfl

/-- An operator, a quote or a bracket is written as it stands in the source. -/
theorem scanMark_begins {input : List Char} {piece : Piece}
    (scanned : scanMark input = some piece) :
    Begins piece.width piece.kind.WrittenAs input := by
  unfold scanMark at scanned
  split at scanned
  case h_1 => cases scanned
  case h_2 c rest =>
    refine ⟨[c], rest, rfl, ?_⟩
    split at scanned
    · next operator writes =>
      cases scanned
      rw [← Operator.char_of_ofChar? writes]
      exact ⟨rfl, .operator operator⟩
    · split at scanned
      · next quotes =>
        simp only [CharClass.quote, Bool.or_eq_true, beq_iff_eq] at quotes
        cases scanned
        obtain rfl | rfl := quotes
        · exact ⟨rfl, .quote false⟩
        · exact ⟨rfl, .quote true⟩
      · obtain ⟨enclosure, writes, rfl⟩ := Option.map_eq_some_iff.mp scanned
        refine ⟨rfl, ?_⟩
        have written := Token.Kind.WrittenAs.bracket (c == '(' || c == '[' || c == '{') enclosure
        rw [Enclosure.char_of_ofChar? writes] at written
        exact written

/-! ### The reader -/

/-- A token other than a field is written as it stands in the source. -/
theorem scanPlain_begins {depths changed : Depths} {previous : Option Char} {input : List Char}
    {piece : Piece} (scanned : scanPlain depths previous input = some (piece, changed)) :
    Begins piece.width piece.kind.WrittenAs input := by
  simp only [scanPlain] at scanned
  split at scanned
  case h_1 found first =>
    cases scanned
    simp only [Option.orElse_eq_orElse, Option.orElse_eq_or, Option.or_eq_some_iff] at first
    obtain found | ⟨_, found | ⟨_, found | ⟨_, found⟩⟩⟩ := first
    · exact scanPlaceholder_begins found
    · exact scanNumber_begins found
    · exact scanRepeater_begins found
    · exact scanWhiteSpace_begins found
  case h_2 =>
    split at scanned
    case isTrue =>
      cases scanned
      obtain ⟨text, rest, rfl, width, same⟩ :=
        literalRun_reads depths.expression depths previous input
      refine ⟨text, rest, rfl, width, ?_⟩
      rw [same]
      exact .literal text
    case isFalse =>
      obtain ⟨mark, found, same⟩ := Option.map_eq_some_iff.mp scanned
      cases same
      exact scanMark_begins found

/-- Every token is written as it stands in the source. -/
theorem scanToken_begins {depths changed : Depths} {previous : Option Char} {input : List Char}
    {piece : Piece} (scanned : scanToken depths previous input = .ok (some (piece, changed))) :
    Begins piece.width piece.kind.WrittenAs input := by
  unfold scanToken at scanned
  split at scanned
  · split at scanned
    · cases scanned
    · next mark width found =>
      cases scanned
      obtain ⟨text, rest, rfl, rfl, spells⟩ := FieldMark.spells_of_scan found
      exact ⟨text, rest, rfl, rfl, .field spells⟩
    · exact scanPlain_begins (Except.ok.inj scanned)
  · exact scanPlain_begins (Except.ok.inj scanned)

/-- The tokens that are read from an offset on tile the source from there, and each is written
by its piece. -/
theorem tokensFrom_cover {depths : Depths} {previous : Option Char} {offset : Nat}
    {source input : List Char} {found : List Token}
    (read : tokensFrom depths previous offset input = .ok found)
    (remains : Remains source offset input) :
    Tile offset (found.map Token.span) source.length ∧
      ∀ token ∈ found, token.kind.WrittenAs (token.span.piece source) := by
  fun_induction tokensFrom depths previous offset input generalizing found with
  | case1 =>
    cases read
    rw [remains.stop]
    exact ⟨.nil _, by simp⟩
  | case2 => cases read
  | case3 depths previous offset first rest kind more changed scanned stop =>
    rename_i ih
    obtain ⟨behind, written⟩ := remains.pass (scanToken_begins scanned)
    generalize readMore : tokensFrom _ _ stop (rest.drop more) = others at read
    cases others with
    | error fault => cases read
    | ok others =>
      cases read
      obtain ⟨tiles, pieces⟩ := ih readMore behind
      exact ⟨.cons (by omega) tiles, List.forall_mem_cons.mpr ⟨written, pieces⟩⟩
  | case4 => cases read

/-- The tokens of an abbreviation tile it from its first to its last character, and each is
written by the characters that it covers. -/
theorem tokens_writtenAs {source : String} {found : List Token}
    (read : tokens source = .ok found) :
    Tile 0 (found.map Token.span) source.length ∧
      ∀ token ∈ found, token.kind.WrittenAs (token.span.piece source.toList) := by
  have covered := tokensFrom_cover (mapError_within_eq_ok_iff.mp read) (.start source.toList)
  rwa [String.length_toList] at covered

/-- A number, a count, an escaped bracket and a field stand side by side. -/
theorem tokens_writtenAs_mixed :
    let source := "$@^-3*02[\\]$\x7b1:\x7b\x7d\x7d"
    let found : List Token :=
      [⟨.repeaterNumber 1 true 3 1, ⟨0, 5⟩⟩, ⟨.repeater 2 false, ⟨5, 8⟩⟩,
        ⟨.bracket true .attributes, ⟨8, 9⟩⟩, ⟨.literal "]", ⟨9, 11⟩⟩,
        ⟨.field (some 1) "\x7b\x7d", ⟨11, 18⟩⟩]
    tokens source = .ok found ∧ Tile 0 (found.map Token.span) source.length ∧
      ∀ token ∈ found, token.kind.WrittenAs (token.span.piece source.toList) := by
  intro source found
  have read : tokens source = .ok found := by decide +kernel
  exact ⟨read, tokens_writtenAs read⟩

end Shorthand.Markup
