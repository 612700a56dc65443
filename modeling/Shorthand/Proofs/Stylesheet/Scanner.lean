import Shorthand.Proofs.Stylesheet.Scanner.Values

/-!
# The scanner of a stylesheet abbreviation

The recognisers of stylesheets as scanners that move a read position over the whole abbreviation
and back, and are checked at every move. Each `Finds` what its recogniser finds, and
`outcome_tokens` says that no check ever fails and that the tokens are those of the lexer.
-/

namespace Shorthand.Stylesheet.Scanner

open Scan

/-- Go on to the end of a string, and tell whether its quote is there. -/
def throughQuote (quote : Char) : Nat → Scan Bool
  | 0 => exhausted
  | steps + 1 => do
    match ← peek? with
    | none => return false
    | some _ =>
      if ← eat quote then
        return true
      else
        advance
        throughQuote quote steps

/-- Read a string. -/
def quoted : Scan (Option (Token.Kind × Span)) := do
  match (← peek?).filter CharClass.quote with
  | none => return none
  | some quote =>
    let start ← position
    advance
    let isClosed ← bounded (throughQuote quote)
    let stop ← position
    let value ← between (start + 1) (if isClosed then stop - 1 else stop)
    return some (.quoted value (quote == '\''), ⟨start, stop⟩)

/-- Read a round bracket. -/
def bracket : Scan (Option (Token.Kind × Span)) :=
  single fun c => if c == '(' || c == ')' then some (.bracket (c == '(')) else none

/-- Read an operator. -/
def operator : Scan (Option (Token.Kind × Span)) :=
  single fun c => (Operator.ofChar? c).map .operator

/-- Read a run of blanks. -/
def whiteSpace : Scan (Option (Token.Kind × Span)) := do
  let start ← position
  if ← eatWhile CharClass.space then
    return some (.whiteSpace, ⟨start, ← position⟩)
  else
    return none

/-- Pass over the characters of a literal. -/
def passLiteral (isShort : Bool) : Scan Bool := do
  let start ← position
  if ← eatIf (fun c => c == '@' || c == '$') then
    if 0 < start then eatWhile isKeywordChar else eatWhile isLiteralChar
  else if ← eatIf CharClass.wordLetter then
    if isShort then eatWhile isLiteralChar else eatWhile isKeywordChar
  else
    let _ ← eat '.'
    eatWhile isLiteralChar

/-- Read a literal. -/
def literal (isShort : Bool) : Scan (Option (Token.Kind × Span)) := do
  let start ← position
  let _ ← passLiteral isShort
  if start = (← position) then
    return none
  else
    markAt start
    return some (.literal (← current), ⟨start, ← position⟩)

/-- Read a token. -/
def token (isShort : Bool) : Scan (Option (Token.Kind × Span)) := do
  match ← fieldMark with
  | some (found, span) => return some (.field found.index found.name, span)
  | none =>
    orElse customProperty (orElse number (orElse color (orElse quoted (orElse bracket
      (orElse operator (orElse whiteSpace (literal isShort)))))))

/-- A token with the operator behind it, if that is a token of its own there; the last one
first. -/
def separated (token : Token) : Scan (List Token) := do
  if token.separatesOperator then
    match ← operator with
    | some (kind, span) => return [⟨kind, span⟩, token]
    | none => return [token]
  else
    return [token]

/-- Read all tokens that are left; `read` holds those before them, last first, and `depth` the
number of open brackets. -/
def tokensFrom (isValue : Bool) (depth : Nat) (read : List Token) : Nat → Scan (List Token)
  | 0 => exhausted
  | steps + 1 => do
    match ← peek? with
    | none => return read.reverse
    | some _ =>
      match ← token (depth == 0 && !isValue) with
      | none => throw ⟨.unexpectedCharacter, ← position⟩
      | some (.bracket true, span) =>
        let source ← characters
        let read := if depth = 0 then mergeCallName source read else read
        tokensFrom isValue (depth + 1) (⟨.bracket true, span⟩ :: read) steps
      | some (.bracket false, span) =>
        if depth = 0 then
          throw ⟨.unexpectedBracket, span.start⟩
        else
          tokensFrom isValue (depth - 1) (⟨.bracket false, span⟩ :: read) steps
      | some (kind, span) => tokensFrom isValue depth ((← separated ⟨kind, span⟩) ++ read) steps

/-- Read the tokens of an abbreviation. -/
def tokens (isValue : Bool) : Scan (List Token) := bounded (tokensFrom isValue 0 [])

/-! ### What the scanners find -/

section

variable {source input : List Char} {offset : Nat}

/-! ### Strings and marks -/

/-- A quoted text is passed over up to the quote that closes it. -/
theorem run_throughQuote {steps : Nat} (quote : Char) (remains : Remains source offset input)
    (mark : Nat) (enough : input.length < steps) :
    let value := input.takeWhile (· != quote)
    let isClosed := decide (value.length < input.length)
    (throughQuote quote steps).run (view source mark offset) =
      pure (isClosed, view source mark (offset + value.length + if isClosed then 1 else 0)) := by
  induction steps generalizing input offset with
  | zero => exact absurd enough (Nat.not_lt_zero _)
  | succ steps ih =>
    rw [throughQuote, run_bind, run_peek? remains, pure_bind]
    cases input with
    | nil => rfl
    | cons c rest =>
      have fewer : rest.length < steps := Nat.lt_of_succ_lt_succ enough
      dsimp only [List.head?_cons]
      rw [run_bind, eat, run_eatIf _ remains, pure_bind, List.takeWhile_cons]
      by_cases isQuote : c = quote
      · subst isQuote
        simp
      · have notQuote : (c == quote) = false := beq_false_of_ne isQuote
        have other : (c != quote) = true := bne_iff_ne.mpr isQuote
        simp only [List.head?_cons, Option.any_some, notQuote, other, Bool.false_eq_true, if_false,
          if_true, List.length_cons, Nat.add_lt_add_iff_right]
        rw [run_bind, run_advance remains, pure_bind]
        dsimp only
        rw [ih remains.behind_cons fewer, Nat.add_assoc offset 1, Nat.add_comm 1]

/-- A quoted text is found as from what is left. -/
theorem quoted_finds (remains : Remains source offset input) :
    Finds quoted source offset (scanQuoted input) := by
  intro mark
  rw [quoted, run_bind, run_peek? remains, pure_bind]
  cases input with
  | nil => exact ⟨mark, rfl⟩
  | cons c rest =>
    rw [scanQuoted]
    dsimp only [List.head?_cons, Option.filter]
    cases isQuote : CharClass.quote c with
    | false => exact ⟨mark, rfl⟩
    | true =>
      have inner := remains.behind_cons
      have text := take_length_takeWhile (· != c) rest
      simp only [if_true]
      rw [run_bind, run_position, pure_bind, run_bind, run_advance remains, pure_bind, run_bind,
        run_bounded, run_throughQuote c inner mark inner.length_lt, pure_bind]
      dsimp only
      rw [run_bind, run_position, pure_bind]
      dsimp only
      generalize rest.takeWhile (· != c) = value at *
      refine ⟨mark, ?_⟩
      by_cases isClosed : value.length < rest.length
      · simp only [isClosed, decide_true, if_true, Nat.add_sub_cancel]
        rw [run_bind, run_between inner, pure_bind, text]
        simp only [placed, Nat.add_assoc]
        rfl
      · simp only [isClosed, decide_false, Bool.false_eq_true, if_false, Nat.add_zero]
        rw [run_bind, run_between inner, pure_bind, text]
        simp only [placed, Nat.add_assoc]
        rfl

/-- A bracket is found as from what is left. -/
theorem bracket_finds (remains : Remains source offset input) :
    Finds bracket source offset (scanBracket input) := by
  have finds := single_finds
    (fun c => if c == '(' || c == ')' then some (Token.Kind.bracket (c == '(')) else none) remains
  refine cast (congrArg (Finds _ source offset) ?_) finds
  cases input with
  | nil => rfl
  | cons c rest =>
    by_cases isOpen : c = '('
    · subst isOpen
      rfl
    · by_cases isClosing : c = ')'
      · subst isClosing
        rfl
      · have other : scanBracket (c :: rest) = none := by
          unfold scanBracket
          split
          case h_1 same => exact absurd (List.cons.inj same).1 isOpen
          case h_2 same => exact absurd (List.cons.inj same).1 isClosing
          case h_3 => rfl
        have neither : (c == '(' || c == ')') = false := by simp [isOpen, isClosing]
        rw [other, List.head?_cons, Option.bind_some, neither]
        rfl

/-- An operator is found as from what is left. -/
theorem operator_finds (remains : Remains source offset input) :
    Finds operator source offset (scanOperator input) := by
  have finds := single_finds (fun c => (Operator.ofChar? c).map Token.Kind.operator) remains
  refine cast (congrArg (Finds _ source offset) ?_) finds
  cases input with
  | nil => rfl
  | cons c rest =>
    simp only [scanOperator, List.head?_cons, Option.bind_some]
    cases Operator.ofChar? c <;> rfl

/-- White space is found as from what is left. -/
theorem whiteSpace_finds (remains : Remains source offset input) :
    Finds whiteSpace source offset (scanWhiteSpace input) := by
  intro mark
  rw [whiteSpace, run_bind, run_position, pure_bind, run_bind, run_eatWhile _ remains, pure_bind,
    scanWhiteSpace]
  dsimp only
  generalize (input.takeWhile CharClass.space).length = width
  by_cases empty : width = 0
  · subst empty
    exact ⟨mark, rfl⟩
  · have filled : (width != 0) = true := bne_iff_ne.mpr empty
    rw [if_neg empty, if_pos filled]
    exact ⟨mark, rfl⟩

/-! ### Literals -/

/-- The characters of a literal are passed over; how many depends on whether it begins the
source. -/
theorem run_passLiteral (isShort : Bool) (remains : Remains source offset input) (mark : Nat) :
    ∃ found, (passLiteral isShort).run (view source mark offset) =
      pure (found, view source mark (offset + literalWidth isShort (offset == 0) input)) := by
  rw [passLiteral, run_bind, run_position, pure_bind, run_bind, run_eatIf _ remains, pure_bind]
  cases input with
  | nil =>
    dsimp only [List.head?_nil, Option.any_none]
    simp only [Bool.false_eq_true, if_false]
    rw [run_bind, run_eatIf _ remains, pure_bind]
    dsimp only [List.head?_nil, Option.any_none]
    simp only [Bool.false_eq_true, if_false]
    rw [run_bind, eat, run_eatIf _ remains, pure_bind]
    exact ⟨false, run_eatWhile _ remains mark⟩
  | cons c rest =>
    have behind := remains.behind_cons
    rw [literalWidth]
    dsimp only [List.head?_cons, Option.any_some]
    by_cases isVariable : (c == '@' || c == '$') = true
    · simp only [isVariable, if_true, ← Nat.add_assoc]
      -- Which characters a variable goes on with depends on whether it begins the source.
      by_cases isFirst : offset = 0
      · rw [if_neg (by omega), if_pos (by simpa using isFirst)]
        exact ⟨_, run_eatWhile _ behind mark⟩
      · rw [if_pos (by omega), if_neg (by simpa using isFirst)]
        exact ⟨_, run_eatWhile _ behind mark⟩
    · simp only [isVariable, Bool.false_eq_true, if_false]
      rw [run_bind, run_eatIf _ remains, pure_bind]
      dsimp only [List.head?_cons, Option.any_some]
      by_cases isLetter : CharClass.wordLetter c = true
      · simp only [isLetter, if_true, ← Nat.add_assoc]
        cases isShort <;> exact ⟨_, run_eatWhile _ behind mark⟩
      · simp only [isLetter, Bool.false_eq_true, if_false]
        rw [run_bind, eat, run_eatIf _ remains, pure_bind]
        dsimp only [List.head?_cons, Option.any_some]
        by_cases isPoint : (c == '.') = true
        · simp only [isPoint, if_true, ← Nat.add_assoc]
          exact ⟨_, run_eatWhile _ behind mark⟩
        · simp only [isPoint, Bool.false_eq_true, if_false]
          exact ⟨_, run_eatWhile _ remains mark⟩

/-- A literal is found as from what is left. -/
theorem literal_finds (isShort : Bool) (remains : Remains source offset input) :
    Finds (literal isShort) source offset (scanLiteral isShort (offset == 0) input) := by
  intro mark
  obtain ⟨found, passed⟩ := run_passLiteral isShort remains mark
  rw [literal, run_bind, run_position, pure_bind, run_bind, passed, pure_bind, run_bind,
    run_position, pure_bind, scanLiteral]
  dsimp only
  generalize literalWidth isShort (offset == 0) input = width
  by_cases empty : width = 0
  · subst empty
    rw [if_pos (Nat.add_zero offset).symm, if_pos rfl]
    exact ⟨mark, rfl⟩
  · rw [if_neg (by omega), if_neg empty, run_bind, run_markAt, pure_bind, run_bind,
      run_current remains, pure_bind]
    exact ⟨offset, rfl⟩

/-! ### Tokens -/

/-- A token is found where the lexer finds it, and the fault of a field where it sees it. -/
theorem run_token (isShort : Bool) (remains : Remains source offset input) (mark : Nat) :
    ∃ left, (token isShort).run (view source mark offset) =
      match scanToken isShort (offset == 0) input with
      | .error distance => throw ⟨.missingBrace, offset + distance⟩
      | .ok found => pure (placed source left offset found) := by
  obtain ⟨behindField, found⟩ := run_fieldMark remains mark
  rw [token, run_bind, found, scanToken]
  cases FieldMark.scan input with
  | error distance => exact ⟨0, rfl⟩
  | ok mark =>
    cases mark with
    | some mark => exact ⟨behindField, rfl⟩
    | none =>
      have finds := (customProperty_finds remains).orElse ((number_finds remains).orElse
        ((color_finds remains).orElse ((quoted_finds remains).orElse
          ((bracket_finds remains).orElse ((operator_finds remains).orElse
            ((whiteSpace_finds remains).orElse (literal_finds isShort remains)))))))
      exact finds behindField

/-- No color is empty. -/
theorem width_pos_of_scanColor {piece : Piece} (found : scanColor input = some piece) :
    0 < piece.width := by
  unfold scanColor at found
  split at found
  · dsimp only at found
    repeat' split at found
    all_goals cases found
    all_goals dsimp only; omega
  · cases found

/-- No quoted text is empty. -/
theorem width_pos_of_scanQuoted {piece : Piece} (found : scanQuoted input = some piece) :
    0 < piece.width := by
  unfold scanQuoted at found
  repeat' split at found
  all_goals cases found
  all_goals dsimp only; omega

/-- No token is empty. -/
theorem width_pos_of_scanToken {isShort isFirst : Bool} {piece : Piece}
    (scanned : scanToken isShort isFirst input = .ok (some piece)) : 0 < piece.width := by
  unfold scanToken at scanned
  split at scanned
  · cases scanned
  · next mark width found =>
    cases scanned
    obtain ⟨text, rest, _, rfl, spells⟩ := FieldMark.spells_of_scan found
    cases spells <;> exact Nat.succ_pos _
  · simp only [Except.ok.injEq, Option.orElse_eq_orElse, Option.orElse_eq_or,
      Option.or_eq_some_iff] at scanned
    obtain found | ⟨_, found | ⟨_, found | ⟨_, found | ⟨_, found | ⟨_, found | ⟨_, found |
      ⟨_, found⟩⟩⟩⟩⟩⟩⟩ := scanned
    · unfold scanCustomProperty at found
      split at found <;> cases found
      dsimp only
      omega
    · simp only [scanNumber] at found
      split at found <;> cases found
      dsimp only
      omega
    · exact width_pos_of_scanColor found
    · exact width_pos_of_scanQuoted found
    · unfold scanBracket at found
      split at found <;> cases found <;> exact Nat.one_pos
    · obtain ⟨_, _, _, rfl⟩ := scanOperator_some found
      exact Nat.one_pos
    · simp only [scanWhiteSpace] at found
      split at found <;> cases found
      dsimp only
      omega
    · simp only [scanLiteral] at found
      split at found <;> cases found
      dsimp only
      omega

/-- Behind a token that separates an operator from what follows, one is looked for. -/
theorem run_separated (token : Token) (remains : Remains source offset input) (mark : Nat) :
    ∃ left, (separated token).run (view source mark offset) =
      pure (match if token.separatesOperator then scanOperator input else none with
        | some separator =>
          ([⟨separator.kind, ⟨offset, offset + 1⟩⟩, token], view source left (offset + 1))
        | none => ([token], view source left offset)) := by
  rw [separated]
  split
  · obtain ⟨left, found⟩ := operator_finds remains mark
    rw [run_bind, found, pure_bind]
    cases scanned : scanOperator input with
    | none => exact ⟨left, rfl⟩
    | some separator =>
      obtain ⟨_, _, _, rfl⟩ := scanOperator_some scanned
      exact ⟨left, rfl⟩
  · exact ⟨mark, rfl⟩

/-- With so many steps, what is left of a source is scanned as the lexer reads it. -/
def Continues (isValue : Bool) (source input : List Char) (steps : Nat) : Prop :=
  ∀ depth offset read mark, Remains source offset input →
    ∃ left, (tokensFrom isValue depth read steps).run (view source mark offset) =
      .inRange ((Stylesheet.tokensFrom isValue source depth offset read input).map
        (·, view source left source.length))

/-- The tokens behind one that is no bracket begin behind the operator that is separated from it, if
there is one. -/
theorem run_behindSeparator {isValue : Bool} {steps : Nat} (depth : Nat) (read : List Token)
    (token : Token) (remains : Remains source offset input) (mark : Nat)
    (continues : ∀ rest, rest.length ≤ input.length → Continues isValue source rest steps) :
    ∃ left,
      (separated token >>= fun added => tokensFrom isValue depth (added ++ read) steps).run
          (view source mark offset) =
        .inRange ((match if token.separatesOperator then scanOperator input else none with
          | some separator =>
            Stylesheet.tokensFrom isValue source depth (offset + 1)
              (⟨separator.kind, ⟨offset, offset + 1⟩⟩ :: token :: read) (input.drop 1)
          | none => Stylesheet.tokensFrom isValue source depth offset (token :: read) input).map
            (·, view source left source.length)) := by
  obtain ⟨behindSeparator, added⟩ := run_separated token remains mark
  rw [run_bind, added, pure_bind]
  cases scanned : if token.separatesOperator then scanOperator input else none with
  | none =>
    exact continues input (Nat.le_refl _) depth offset (token :: read) behindSeparator remains
  | some separator =>
    have isOperator : scanOperator input = some separator := by
      split at scanned
      · exact scanned
      · cases scanned
    obtain ⟨operator, rest, rfl, -⟩ := scanOperator_some isOperator
    exact continues rest (Nat.le_succ _) depth (offset + 1) _ behindSeparator remains.behind_cons

/-- With enough steps the scanner goes on to the end. -/
theorem continues (isValue : Bool) {source input : List Char} {steps : Nat}
    (enough : input.length < steps) : Continues isValue source input steps := by
  induction steps generalizing input with
  | zero => exact absurd enough (Nat.not_lt_zero _)
  | succ steps ih =>
    intro depth offset read mark remains
    rw [tokensFrom, run_bind, run_peek? remains, pure_bind]
    cases input with
    | nil =>
      rw [remains.stop, Stylesheet.tokensFrom]
      exact ⟨mark, rfl⟩
    | cons first rest =>
      obtain ⟨behindToken, found⟩ := run_token (depth == 0 && !isValue) remains mark
      dsimp only [List.head?_cons]
      rw [run_bind, found, Stylesheet.tokensFrom.eq_def]
      dsimp only
      cases scanned : scanToken (depth == 0 && !isValue) (offset == 0) (first :: rest) with
      | error distance => exact ⟨0, rfl⟩
      | ok found =>
        cases found with
        | none => exact ⟨0, rfl⟩
        | some token =>
          obtain ⟨kind, width⟩ := token
          obtain ⟨more, rfl⟩ :=
            Nat.exists_eq_add_one_of_ne_zero (Nat.ne_of_gt (width_pos_of_scanToken scanned))
          have behind : Remains source (offset + (more + 1)) (rest.drop more) :=
            remains.drop (scanToken_begins scanned).le
          -- A dash that separates is a token of its own, so that the rest may be one character
          -- shorter.
          have shorter (left : List Char) (within : left.length ≤ (rest.drop more).length) :
              Continues isValue source left steps := by
            rw [List.length_cons] at enough
            rw [List.length_drop] at within
            exact ih (by omega)
          have goesOn := shorter (rest.drop more) (Nat.le_refl _)
          dsimp only [placed]
          rw [pure_bind]
          dsimp only
          cases kind with
          | bracket isOpen =>
            cases isOpen with
            | true => exact goesOn (depth + 1) _ _ behindToken behind
            | false =>
              dsimp only
              split
              · exact ⟨0, rfl⟩
              · exact goesOn (depth - 1) _ _ behindToken behind
          | _ =>
            rw [← List.drop_drop]
            exact run_behindSeparator depth read _ behind behindToken shorter

end

/-- The tokens of an abbreviation are scanned without leaving it, and they are those of the
lexer. -/
theorem outcome_tokens (isValue : Bool) (source : String) :
    (tokens isValue).outcome source = some (Stylesheet.tokens isValue source) := by
  obtain ⟨left, read⟩ :=
    continues isValue (Nat.lt_succ_self source.toList.length) 0 0 [] 0 (.start source.toList)
  exact outcome_eq read

end Shorthand.Stylesheet.Scanner
