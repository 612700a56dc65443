import Shorthand.Proofs.FieldMark
import Shorthand.Proofs.Span
import Shorthand.Stylesheet.Token.Lexer

/-!
# Tokens of a stylesheet abbreviation cover it

Nothing of an abbreviation is lost in its tokens: their spans tile it, every token is
`WrittenAs` the characters it covers, and no beginning of the tokens closes more brackets than
it opens. `Reads` says so of the tokens that are read so far; the reader keeps it when it adds
a token and when it merges the parts of a call name.
-/

namespace Shorthand.Stylesheet

open Pairing

/-- How each kind of token is written. A quoted string that is not closed ends without its
second mark. -/
inductive Token.Kind.WrittenAs : Token.Kind → List Char → Prop where
  | literal (text : List Char) : WrittenAs (.literal (String.ofList text)) text
  | customProperty (text : List Char) : WrittenAs (.customProperty (String.ofList text)) text
  | number (value : Float) (raw unit : List Char) :
      WrittenAs (.number value (String.ofList raw) (String.ofList unit)) (raw ++ unit)
  | color (color : Color) : WrittenAs (.color color) ('#' :: color.raw.toList)
  | quoted {mark : Char} {text : List Char} (isClosed : Bool) (quotes : CharClass.quote mark)
      (free : ∀ c ∈ text, c ≠ mark) :
      WrittenAs (.quoted (String.ofList text) (mark == '\''))
        (mark :: (text ++ if isClosed then [mark] else []))
  | bracket (isOpen : Bool) : WrittenAs (.bracket isOpen) [if isOpen then '(' else ')']
  | operator (operator : Operator) : WrittenAs (.operator operator) [operator.char]
  | whiteSpace {text : List Char} (blank : ∀ c ∈ text, CharClass.space c) :
      WrittenAs .whiteSpace text
  | field {mark : FieldMark} {text : List Char} (spells : mark.Spells text) :
      WrittenAs (.field mark.index mark.name) text

/-! ### What the recognisers find -/

/-- A custom property is written as it stands in the source. -/
theorem scanCustomProperty_begins {input : List Char} {piece : Piece}
    (scanned : scanCustomProperty input = some piece) :
    Begins piece.width piece.kind.WrittenAs input := by
  unfold scanCustomProperty at scanned
  split at scanned
  case h_2 => cases scanned
  case h_1 rest =>
    cases scanned
    refine ⟨'-' :: '-' :: rest.takeWhile isKeywordChar, rest.dropWhile isKeywordChar, ?_, ?_,
      .customProperty _⟩
    · simp only [List.cons_append, List.takeWhile_append_dropWhile]
    · exact Nat.add_comm _ 2

/-- The characters that satisfy a test are at most all. -/
theorem length_takeWhile_le (test : Char → Bool) (input : List Char) :
    (input.takeWhile test).length ≤ input.length :=
  (List.takeWhile_sublist test).length_le

/-- A number without a sign ends within the source. -/
theorem unsignedWidth_le (input : List Char) : unsignedWidth input ≤ input.length := by
  have bounded := length_takeWhile_le CharClass.digit input
  simp only [unsignedWidth]
  split
  · next rest pointed =>
    have more := length_takeWhile_le CharClass.digit rest
    have left := congrArg List.length pointed
    simp only [List.length_drop, List.length_cons] at left
    split <;> omega
  · exact bounded

/-- A number ends within the source. -/
theorem numberWidth_le (input : List Char) : numberWidth input ≤ input.length := by
  unfold numberWidth
  split
  · next rest =>
    have bounded := unsignedWidth_le rest
    simp only [List.length_cons]
    split <;> omega
  · exact unsignedWidth_le input

/-- A unit stands at the beginning of what it is read from. -/
theorem scanUnit_begins (input : List Char) : scanUnit input <+: input := by
  unfold scanUnit
  split
  · exact ⟨_, rfl⟩
  · exact List.takeWhile_prefix _

/-- A number is written as it stands in the source. -/
theorem scanNumber_begins {input : List Char} {piece : Piece}
    (scanned : scanNumber input = some piece) :
    Begins piece.width piece.kind.WrittenAs input := by
  simp only [scanNumber] at scanned
  split at scanned
  · cases scanned
  · cases scanned
    obtain ⟨rest, unit⟩ := scanUnit_begins (input.drop (numberWidth input))
    refine ⟨input.take (numberWidth input) ++ scanUnit (input.drop (numberWidth input)), rest,
      ?_, ?_, .number _ _ _⟩
    · rw [List.append_assoc, unit, List.take_append_drop]
    · rw [List.length_append, List.length_take, Nat.min_eq_left (numberWidth_le input)]

/-- An opacity ends within the source. -/
theorem scanOpacity_le (input : List Char) : (scanOpacity input).2 ≤ input.length := by
  unfold scanOpacity
  split
  · next rest =>
    have bounded := length_takeWhile_le CharClass.digit rest
    simp only [List.length_cons]
    split
    · exact Nat.le_add_left 1 _
    · simp only
      omega
  · exact Nat.zero_le _

/-- A color keeps what was written. -/
theorem Color.ofText_raw (digits alpha raw : String) :
    (Color.ofText digits alpha raw).raw = raw := by
  simp only [Color.ofText]
  split <;> rfl

/-- A color whose text is taken from behind the hash. -/
theorem color_begins {rest : List Char} (width : Nat) (digits alpha : String)
    (bounded : width ≤ rest.length) :
    Begins (1 + width)
      (Token.Kind.color (Color.ofText digits alpha (String.ofList (rest.take width)))).WrittenAs
      ('#' :: rest) := by
  have written := Token.Kind.WrittenAs.color
    (Color.ofText digits alpha (String.ofList (rest.take width)))
  rw [Color.ofText_raw, String.toList_ofList] at written
  refine ⟨'#' :: rest.take width, rest.drop width, ?_, ?_, written⟩
  · rw [List.cons_append, List.take_append_drop]
  · rw [List.length_cons, List.length_take, Nat.min_eq_left bounded, Nat.add_comm]

/-- A color is written as it stands in the source. -/
theorem scanColor_begins {input : List Char} {piece : Piece}
    (scanned : scanColor input = some piece) :
    Begins piece.width piece.kind.WrittenAs input := by
  unfold scanColor at scanned
  split at scanned
  case h_2 => cases scanned
  case h_1 rest =>
    simp only at scanned
    split at scanned
    case isTrue =>
      cases scanned
      refine color_begins _ _ _ ?_
      have bounded := length_takeWhile_le CharClass.hexDigit rest
      have more := scanOpacity_le (rest.drop (rest.takeWhile CharClass.hexDigit).length)
      rw [List.length_drop] at more
      omega
    case isFalse =>
      split at scanned
      · next behind _ =>
        cases scanned
        have more := scanOpacity_le behind
        have bounded : 1 + (scanOpacity behind).2 ≤ ('t' :: behind).length := by
          rw [List.length_cons]
          omega
        have begins := color_begins _ "0"
          (if (scanOpacity behind).1.isEmpty then "0" else (scanOpacity behind).1) bounded
        rw [← Nat.add_assoc] at begins
        exact begins
      · split at scanned
        · cases scanned
          exact color_begins _ _ _ (scanOpacity_le _)
        · cases scanned
          exact ⟨['#'], _, rfl, rfl, .literal ['#']⟩

/-- A quoted text is written with its quotes, of which the last may be missing. -/
theorem scanQuoted_begins {input : List Char} {piece : Piece}
    (scanned : scanQuoted input = some piece) :
    Begins piece.width piece.kind.WrittenAs input := by
  unfold scanQuoted at scanned
  split at scanned
  case h_1 => cases scanned
  case h_2 mark rest =>
    split at scanned
    case isFalse => cases scanned
    case isTrue quotes =>
      have free : ∀ c ∈ rest.takeWhile (· != mark), c ≠ mark := by
        intro c member
        simpa using List.mem_takeWhile_imp member
      have whole := List.takeWhile_append_dropWhile (p := (· != mark)) (l := rest)
      have ends := List.head?_dropWhile_not (· != mark) rest
      generalize rest.takeWhile (· != mark) = value at *
      generalize rest.dropWhile (· != mark) = behind at *
      subst whole
      cases scanned
      cases behind with
      | nil => exact ⟨_, [], by simp, by simp; omega, .quoted false quotes free⟩
      | cons c behind =>
        obtain rfl : c = mark := by simpa using ends
        refine ⟨_, behind, ?_, ?_, .quoted true quotes free⟩
        · simp
        · simp
          omega

/-- A bracket is written as it stands in the source. -/
theorem scanBracket_begins {input : List Char} {piece : Piece}
    (scanned : scanBracket input = some piece) :
    Begins piece.width piece.kind.WrittenAs input := by
  unfold scanBracket at scanned
  split at scanned
  · cases scanned
    exact ⟨['('], _, rfl, rfl, .bracket true⟩
  · cases scanned
    exact ⟨[')'], _, rfl, rfl, .bracket false⟩
  · cases scanned

/-- An operator is written with the character that it is read from. -/
theorem Operator.char_of_ofChar? {c : Char} {operator : Operator}
    (writes : Operator.ofChar? c = some operator) : operator.char = c := by
  unfold Operator.ofChar? at writes
  split at writes <;> cases writes <;> rfl

/-- An operator is one character wide. -/
theorem scanOperator_some {input : List Char} {piece : Piece}
    (scanned : scanOperator input = some piece) :
    ∃ operator rest, input = Operator.char operator :: rest ∧ piece = ⟨.operator operator, 1⟩ := by
  unfold scanOperator at scanned
  split at scanned
  case h_1 => cases scanned
  case h_2 c rest =>
    obtain ⟨operator, writes, rfl⟩ := Option.map_eq_some_iff.mp scanned
    exact ⟨operator, rest, by rw [Operator.char_of_ofChar? writes], rfl⟩

/-- White space is any number of blanks. -/
theorem scanWhiteSpace_begins {input : List Char} {piece : Piece}
    (scanned : scanWhiteSpace input = some piece) :
    Begins piece.width piece.kind.WrittenAs input := by
  simp only [scanWhiteSpace] at scanned
  split at scanned
  · cases scanned
  · cases scanned
    exact ⟨_, _, List.takeWhile_append_dropWhile.symm, rfl,
      .whiteSpace fun c member => List.mem_takeWhile_imp member⟩

/-- A literal ends within the source. -/
theorem literalWidth_le (isShort isFirst : Bool) (input : List Char) :
    literalWidth isShort isFirst input ≤ input.length := by
  unfold literalWidth
  split
  · exact Nat.le_refl 0
  · next c rest =>
    have plain := length_takeWhile_le isLiteralChar rest
    have keyword := length_takeWhile_le isKeywordChar rest
    have own := length_takeWhile_le isLiteralChar (c :: rest)
    rw [List.length_cons] at own
    simp only [List.length_cons]
    repeat' split
    all_goals omega

/-- A literal is written as it stands in the source. -/
theorem scanLiteral_begins {isShort isFirst : Bool} {input : List Char} {piece : Piece}
    (scanned : scanLiteral isShort isFirst input = some piece) :
    Begins piece.width piece.kind.WrittenAs input := by
  simp only [scanLiteral] at scanned
  split at scanned
  · cases scanned
  · cases scanned
    refine ⟨_, _, (List.take_append_drop _ _).symm, ?_, .literal _⟩
    rw [List.length_take, Nat.min_eq_left (literalWidth_le isShort isFirst input)]

/-- Every token is written as it stands in the source. -/
theorem scanToken_begins {isShort isFirst : Bool} {input : List Char} {piece : Piece}
    (scanned : scanToken isShort isFirst input = .ok (some piece)) :
    Begins piece.width piece.kind.WrittenAs input := by
  unfold scanToken at scanned
  split at scanned
  · cases scanned
  · next mark width found =>
    cases scanned
    obtain ⟨text, rest, rfl, rfl, spells⟩ := FieldMark.spells_of_scan found
    exact ⟨text, rest, rfl, rfl, .field spells⟩
  · simp only [Option.orElse_eq_orElse, Option.orElse_eq_or, Except.ok.injEq,
      Option.or_eq_some_iff] at scanned
    obtain found | ⟨_, found | ⟨_, found | ⟨_, found | ⟨_, found | ⟨_, found | ⟨_, found |
      ⟨_, found⟩⟩⟩⟩⟩⟩⟩ := scanned
    · exact scanCustomProperty_begins found
    · exact scanNumber_begins found
    · exact scanColor_begins found
    · exact scanQuoted_begins found
    · exact scanBracket_begins found
    · obtain ⟨operator, rest, rfl, rfl⟩ := scanOperator_some found
      exact ⟨[operator.char], rest, rfl, rfl, .operator operator⟩
    · exact scanWhiteSpace_begins found
    · exact scanLiteral_begins found

/-! ### The reader -/

/-- How deep tokens lead into brackets. -/
def bracketDepth? (tokens : List Token) : Option Nat :=
  depthBehind? (Token.isBracket true) (Token.isBracket false) 0 tokens

/-- No token is both an opening and a closing bracket. -/
theorem isBracket_apart (token : Token) (isOpen : token.isBracket true) :
    token.isBracket false = false := by
  obtain ⟨kind, span⟩ := token
  cases kind with
  | bracket opens => cases opens <;> first | rfl | cases isOpen
  | _ => rfl

/-- What is known of the tokens that are read up to an offset, last first: they tile the source
up to there, each is written by its piece, and `depth` brackets are open behind them. -/
structure Reads (source : List Char) (depth offset : Nat) (read : List Token) : Prop where
  tiles : Tile 0 (read.reverse.map Token.span) offset
  written : ∀ token ∈ read, token.kind.WrittenAs (token.span.piece source)
  nested : bracketDepth? read.reverse = some depth

namespace Reads

variable {source : List Char} {depth after offset stop : Nat} {read : List Token}

/-- At the beginning nothing has been read. -/
theorem nil (source : List Char) : Reads source 0 0 [] := ⟨.nil 0, by simp, rfl⟩

/-- One more token is read. -/
theorem push {kind : Token.Kind} (reads : Reads source depth offset read) (filled : offset < stop)
    (written : kind.WrittenAs ((⟨offset, stop⟩ : Span).piece source))
    (nested : depthBehind? (Token.isBracket true) (Token.isBracket false) depth
      [⟨kind, ⟨offset, stop⟩⟩] = some after) :
    Reads source after stop (⟨kind, ⟨offset, stop⟩⟩ :: read) where
  tiles := by
    rw [List.reverse_cons, List.map_append]
    exact reads.tiles.snoc filled
  written := List.forall_mem_cons.mpr ⟨written, reads.written⟩
  nested := by
    have before := reads.nested
    rw [bracketDepth?] at before ⊢
    rw [List.reverse_cons, depthBehind?_append, before]
    exact nested

/-- The parts of a call name are no brackets. -/
theorem neutral_of_isCallNamePart {token : Token} (isPart : token.isCallNamePart) :
    token.isBracket true = false ∧ token.isBracket false = false := by
  obtain ⟨kind, span⟩ := token
  cases kind <;> first | exact ⟨rfl, rfl⟩ | cases isPart

/-- The parts of a call name become one literal. -/
theorem mergeCallName (reads : Reads source depth offset read) :
    Reads source depth offset (mergeCallName source read) := by
  have whole := List.takeWhile_append_dropWhile (p := Token.isCallNamePart) (l := read)
  have parts : ∀ token ∈ read.takeWhile Token.isCallNamePart, token.isCallNamePart :=
    fun token member => List.mem_takeWhile_imp member
  simp only [Stylesheet.mergeCallName]
  generalize read.takeWhile Token.isCallNamePart = name at *
  generalize read.dropWhile Token.isCallNamePart = others at *
  subst whole
  split
  case h_2 => exact reads
  case h_1 last first lastIs firstIs =>
    have reversed : (name ++ others).reverse = others.reverse ++ name.reverse :=
      List.reverse_append
    have tiles := reads.tiles
    have nested := reads.nested
    rw [reversed, List.map_append] at tiles
    rw [bracketDepth?, reversed, depthBehind?_append, Option.bind_eq_some_iff] at nested
    obtain ⟨start, tilesOthers, tilesName⟩ := tiles.cut
    obtain ⟨between, nestedOthers, nestedName⟩ := nested
    rw [depthBehind?_neutral between fun token member =>
      neutral_of_isCallNamePart (parts token (List.mem_reverse.mp member))] at nestedName
    cases nestedName
    have firstSpan : (name.reverse.map Token.span).head? = some first.span := by simp [firstIs]
    have lastSpan : (name.reverse.map Token.span).getLast? = some last.span := by simp [lastIs]
    obtain ⟨starts, stops, filled⟩ := tilesName.ends firstSpan lastSpan
    have known : Reads source depth start others :=
      ⟨tilesOthers, fun token member => reads.written token (List.mem_append_right name member),
        nestedOthers⟩
    rw [starts, stops]
    exact known.push filled (.literal _) rfl

end Reads

/-- A token that is no bracket leads no deeper. -/
theorem neutral_of_ne_bracket {kind : Token.Kind} (depth start stop : Nat)
    (notOpen : kind ≠ .bracket true) (notClosed : kind ≠ .bracket false) :
    depthBehind? (Token.isBracket true) (Token.isBracket false) depth [⟨kind, ⟨start, stop⟩⟩] =
      some depth := by
  refine depthBehind?_neutral depth (List.forall_mem_singleton.mpr ?_)
  cases kind with
  | bracket isOpen =>
    cases isOpen
    · exact absurd rfl notClosed
    · exact absurd rfl notOpen
  | _ => exact ⟨rfl, rfl⟩

/-- The reader keeps what is known of its tokens. -/
theorem tokensFrom_reads {isValue : Bool} {source : List Char} {depth offset : Nat}
    {read : List Token} {input : List Char} {found : List Token}
    (ends : tokensFrom isValue source depth offset read input = .ok found)
    (reads : Reads source depth offset read) (remains : Remains source offset input) :
    ∃ after, Reads source after source.length found.reverse := by
  -- What has been read covers the source up to the read position; every token, and an operator that
  -- is separated from it, extends the cover.
  fun_induction tokensFrom isValue source depth offset read input with
  | case1 depth offset read =>
    cases ends
    rw [← remains.stop, List.reverse_reverse]
    exact ⟨depth, reads⟩
  | case2 | case4 | case8 => cases ends
  | case3 depth offset read first rest more stop merged scanned token ih =>
    obtain ⟨behind, written⟩ := remains.pass (scanToken_begins scanned)
    have merges : Reads source depth offset merged := by
      simp only [merged]
      split
      · exact reads.mergeCallName
      · exact reads
    exact ih ends (merges.push (by omega) written rfl) behind
  | case5 depth offset read first rest more stop isOpen scanned token ih =>
    obtain ⟨behind, written⟩ := remains.pass (scanToken_begins scanned)
    have closes : depthBehind? (Token.isBracket true) (Token.isBracket false) depth [token] =
        some (depth - 1) := by
      cases depth with
      | zero => exact absurd rfl isOpen
      | succ outer => rfl
    exact ih ends (reads.push (by omega) written closes) behind
  | case6 depth offset read first rest kind more scanned stop token separator separates notOpen
      notClosed =>
    rename_i ih
    obtain ⟨behind, written⟩ := remains.pass (scanToken_begins scanned)
    have neutral := neutral_of_ne_bracket depth offset stop notOpen notClosed
    have filled : offset < stop := by omega
    have pushed := reads.push filled written neutral
    split at separates
    case isFalse => cases separates
    case isTrue =>
      obtain ⟨operator, left, same, rfl⟩ := scanOperator_some separates
      have begins : Begins 1 (Token.Kind.operator operator).WrittenAs (rest.drop more) :=
        ⟨[operator.char], left, same, rfl, .operator operator⟩
      obtain ⟨further, writtenToo⟩ := behind.pass begins
      have next : (rest.drop more).drop 1 = rest.drop (more + 1) := List.drop_drop
      refine ih ends (pushed.push (Nat.lt_succ_self stop) writtenToo rfl) ?_
      rw [← next]
      exact further
  | case7 depth offset read first rest kind more scanned stop token _ notOpen notClosed =>
    rename_i ih
    obtain ⟨behind, written⟩ := remains.pass (scanToken_begins scanned)
    have neutral := neutral_of_ne_bracket depth offset stop notOpen notClosed
    exact ih ends (reads.push (by omega) written neutral) behind

/-- The tokens of an abbreviation tile it from its first to its last character, each is written
by the characters that it covers, and no beginning of them closes more brackets than it
opens. -/
theorem tokens_nested {isValue : Bool} {source : String} {found : List Token}
    (read : tokens isValue source = .ok found) :
    Tile 0 (found.map Token.span) source.length ∧
      (∀ token ∈ found, token.kind.WrittenAs (token.span.piece source.toList)) ∧
      ∀ front, front <+: found →
        front.countP (Token.isBracket false) ≤ front.countP (Token.isBracket true) := by
  obtain ⟨depth, tiles, written, nested⟩ :=
    tokensFrom_reads (mapError_within_eq_ok_iff.mp read) (.nil source.toList)
      (.start source.toList)
  rw [List.reverse_reverse] at tiles nested
  rw [String.length_toList] at tiles
  refine ⟨tiles, fun token member => written token (List.mem_reverse.mpr member), ?_⟩
  exact fun front begins => countP_le_of_prefix isBracket_apart nested begins

/-- The name of a call is merged from two literals; the call and the quoted string in it are not
closed. -/
theorem tokens_nested_merged :
    let source := "p:a.b(#f.5-'x"
    let found : List Token :=
      [⟨.literal "p", ⟨0, 1⟩⟩, ⟨.operator .colon, ⟨1, 2⟩⟩, ⟨.literal "a.b", ⟨2, 5⟩⟩,
        ⟨.bracket true, ⟨5, 6⟩⟩,
        ⟨.color ⟨255, 255, 255, .decimal ⟨false, 5, -1⟩, "f.5"⟩, ⟨6, 10⟩⟩,
        ⟨.operator .dash, ⟨10, 11⟩⟩, ⟨.quoted "x" true, ⟨11, 13⟩⟩]
    tokens false source = .ok found ∧ Tile 0 (found.map Token.span) source.length ∧
      (∀ token ∈ found, token.kind.WrittenAs (token.span.piece source.toList)) ∧
      ∀ front, front <+: found →
        front.countP (Token.isBracket false) ≤ front.countP (Token.isBracket true) := by
  intro source found
  have characters : source.toList =
      ['p', ':', 'a', '.', 'b', '(', '#', 'f', '.', '5', '-', '\'', 'x'] := by decide +kernel
  have name :
      scanToken true true ['p', ':', 'a', '.', 'b', '(', '#', 'f', '.', '5', '-', '\'', 'x'] =
        .ok (some ⟨.literal "p", 1⟩) := rfl
  have colon : scanToken true false [':', 'a', '.', 'b', '(', '#', 'f', '.', '5', '-', '\'', 'x'] =
      .ok (some ⟨.operator .colon, 1⟩) := rfl
  have front : scanToken true false ['a', '.', 'b', '(', '#', 'f', '.', '5', '-', '\'', 'x'] =
      .ok (some ⟨.literal "a", 1⟩) := rfl
  have behind : scanToken true false ['.', 'b', '(', '#', 'f', '.', '5', '-', '\'', 'x'] =
      .ok (some ⟨.literal ".b", 2⟩) := rfl
  have opening : scanToken true false ['(', '#', 'f', '.', '5', '-', '\'', 'x'] =
      .ok (some ⟨.bracket true, 1⟩) := rfl
  have color : scanToken false false ['#', 'f', '.', '5', '-', '\'', 'x'] =
      .ok (some ⟨.color ⟨255, 255, 255, .decimal ⟨false, 5, -1⟩, "f.5"⟩, 4⟩) := rfl
  have dash : scanOperator ['-', '\'', 'x'] = some ⟨.operator .dash, 1⟩ := rfl
  have quoted : scanToken false false ['\'', 'x'] = .ok (some ⟨.quoted "x" true, 2⟩) := rfl
  have read : tokens false source = .ok found := by
    refine mapError_within_eq_ok_iff.mpr ?_
    rw [characters]
    simp [tokensFrom, name, colon, front, behind, opening, color, dash, quoted,
      Token.separatesOperator]
    rfl
  exact ⟨read, tokens_nested read⟩

end Shorthand.Stylesheet
