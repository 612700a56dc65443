import Shorthand.Proofs.Markup.TokenCover
import Shorthand.Proofs.Scanning.FieldMark

/-!
# The scanner of a markup abbreviation

The recognisers of markup as scanners that move a read position over the whole abbreviation and
back, look behind and ahead of it, and are checked at every move. Each `Finds` what its recogniser
finds, and `outcome_tokens` says that no check ever fails and that the tokens are those of the
lexer.
-/

namespace Shorthand.Markup.Scanner

open Scan

/-- Read the place of the wrapped text. -/
def placeholder : Scan (Option (Token.Kind × Span)) := do
  let start ← position
  if ← eatBoth '$' '#' then
    return some (.repeaterPlaceholder, ⟨start, ← position⟩)
  else
    return none

/-- Read carets, and count them. -/
def carets : Nat → Scan Nat
  | 0 => exhausted
  | steps + 1 => do
    if ← eat '^' then return (← carets steps) + 1 else return 0

/-- Read digits: their number, and whether there are none. -/
def count : Scan (Nat × Bool) := do
  mark
  if ← eatWhile CharClass.digit then
    return ((Digits.word? (← current).toList).getD 1, false)
  else
    return (1, true)

/-- Read the number of a copy behind its at sign. -/
def numberFrom (start size : Nat) : Scan (Option (Token.Kind × Span)) := do
  let parent ← bounded carets
  let isReverse ← eat '-'
  let (base, _) ← count
  markAt start
  return some (.repeaterNumber size isReverse base parent, ⟨start, ← position⟩)

/-- Read the number of a copy. -/
def number : Scan (Option (Token.Kind × Span)) := do
  let start ← position
  if ← eatWhile (· == '$') then
    let size := (← position) - start
    if ← eat '@' then
      numberFrom start size
    else
      markAt start
      return some (.repeaterNumber size false 1 0, ⟨start, ← position⟩)
  else
    return none

/-- Read a repeat count. -/
def repeater : Scan (Option (Token.Kind × Span)) := do
  let start ← position
  if ← eat '*' then
    let (count, isImplicit) ← count
    return some (.repeater count isImplicit, ⟨start, ← position⟩)
  else
    return none

/-- Read a run of blanks. -/
def whiteSpace : Scan (Option (Token.Kind × Span)) := do
  let start ← position
  if ← eatWhile CharClass.space then
    let stop ← position
    return some (.whiteSpace (← between start stop), ⟨start, stop⟩)
  else
    return none

/-- Whether a character is a slash between two digits, outside of everything but groups. -/
def isJoint (depths : Depths) (c : Char) : Scan Bool := do
  let previous ← previous?
  let following ← charAt? ((← position) + 1)
  return c = '/' && depths.quote.isNone && depths.expression == 0 && depths.attributes == 0 &&
    previous.any CharClass.digit && following.any CharClass.digit

/-- The depths behind a character that belongs to a literal; none if it ends the literal. -/
def literalStep (base : Int) (depths : Depths) (c : Char) : Option Depths :=
  if endsLiteral depths c then
    none
  else if 0 < base then
    if c = '{' then
      some { depths with expression := depths.expression + 1 }
    else if c = '}' then
      if base < depths.expression then
        some { depths with expression := depths.expression - 1 }
      else
        none
    else
      some depths
  else if endsPlainLiteral depths c then
    none
  else
    some depths

/-- Read a literal that began at the depth `base` of braces: its text and the depth behind it. -/
def literalFrom (base : Int) (depths : Depths) : Nat → Scan (List Char × Int)
  | 0 => exhausted
  | steps + 1 => do
    match ← peek? with
    | none => return ([], depths.expression)
    | some c =>
      if c = '\\' then
        advance
        match ← next with
        | none => literalFrom base depths steps
        | some escaped =>
          let (text, expression) ← literalFrom base depths steps
          return (escaped :: text, expression)
      else
        let isJoint ← isJoint depths c
        match if isJoint then some depths else literalStep base depths c with
        | none => return ([], depths.expression)
        | some depths =>
          advance
          let (text, expression) ← literalFrom base depths steps
          return (c :: text, expression)

/-- Read a literal, and tell the depths behind it. -/
def literal (depths : Depths) : Scan (Option ((Token.Kind × Span) × Depths)) := do
  let start ← position
  let (text, expression) ← bounded (literalFrom depths.expression depths)
  let stop ← position
  if start = stop then
    return none
  else
    markAt start
    return some ((.literal (String.ofList text), ⟨start, stop⟩), { depths with expression })

/-- Read an operator. -/
def operator : Scan (Option (Token.Kind × Span)) :=
  single fun c => (Operator.ofChar? c).map .operator

/-- Read a quote. -/
def quote : Scan (Option (Token.Kind × Span)) :=
  single fun c => if CharClass.quote c then some (.quote (c == '\'')) else none

/-- Read a bracket. -/
def bracket : Scan (Option (Token.Kind × Span)) :=
  single fun c => (Enclosure.ofChar? c).map (.bracket (c == '(' || c == '[' || c == '{'))

/-- Read a field, where fields are recognised. -/
def field (depths : Depths) : Scan (Option (Token.Kind × Span)) := do
  if 0 < depths.expression || 0 < depths.attributes then
    return (← fieldMark).map fun (found, span) => (.field found.index found.name, span)
  else
    return none

/-- Read a token that is no field, and tell the depths that it leaves before its own effect. -/
def plainToken (depths : Depths) : Scan (Option ((Token.Kind × Span) × Depths)) := do
  match ← orElse placeholder (orElse number (orElse repeater whiteSpace)) with
  | some found => return some (found, depths)
  | none =>
    match ← literal depths with
    | some found => return some found
    | none => return (← orElse operator (orElse quote bracket)).map fun found => (found, depths)

/-- Read a token, and tell the depths that it leaves before its own effect. -/
def token (depths : Depths) : Scan (Option ((Token.Kind × Span) × Depths)) := do
  match ← field depths with
  | some found => return some (found, depths)
  | none => plainToken depths

/-- Read all tokens that are left. -/
def tokensFrom (depths : Depths) : Nat → Scan (List Token)
  | 0 => exhausted
  | steps + 1 => do
    match ← peek? with
    | none => return []
    | some first =>
      match ← token depths with
      | none => throw ⟨.unexpectedCharacter, ← position⟩
      | some ((kind, span), changed) =>
        let others ← tokensFrom (changed.after first kind) steps
        return ⟨kind, span⟩ :: others

/-- Read the tokens of an abbreviation. -/
def tokens : Scan (List Token) := bounded (tokensFrom .outside)

/-! ### What the scanners find -/

section

variable {source input : List Char} {offset : Nat}

/-- The place of the repeated text is found as from what is left. -/
theorem placeholder_finds (remains : Remains source offset input) :
    Finds placeholder source offset (scanPlaceholder input) := by
  intro mark
  refine ⟨mark, ?_⟩
  rw [placeholder, run_bind, run_position, pure_bind, run_bind, run_eatBoth _ _ remains, pure_bind]
  cases isMark : beginsWith '$' '#' input with
  | false =>
    have nothing : scanPlaceholder input = none := by
      unfold scanPlaceholder
      split
      case h_1 rest => cases (beginsWith_self '$' '#' rest).symm.trans isMark
      case h_2 => rfl
    rw [nothing]
    rfl
  | true =>
    obtain ⟨rest, rfl⟩ := eq_of_beginsWith isMark
    rfl

/-- The carets of a number are counted. -/
theorem run_carets {steps : Nat} (remains : Remains source offset input) (mark : Nat)
    (enough : input.length < steps) :
    (carets steps).run (view source mark offset) =
      pure ((input.takeWhile (· == '^')).length,
        view source mark (offset + (input.takeWhile (· == '^')).length)) := by
  induction steps generalizing input offset with
  | zero => exact absurd enough (Nat.not_lt_zero _)
  | succ steps ih =>
    rw [carets, run_bind, eat, run_eatIf _ remains, pure_bind]
    cases input with
    | nil => rfl
    | cons c rest =>
      have fewer : rest.length < steps := Nat.lt_of_succ_lt_succ enough
      cases isCaret : c == '^' with
      | false =>
        simp only [List.head?_cons, Option.any_some, isCaret, List.takeWhile_cons]
        rfl
      | true =>
        simp only [List.head?_cons, Option.any_some, isCaret, List.takeWhile_cons, if_true]
        rw [run_bind, ih remains.behind_cons fewer, pure_bind, List.length_cons,
          Nat.add_right_comm]
        rfl

/-- The number that digits in front write, and whether there are none. -/
def countIn (digits : List Char) : Nat × Bool :=
  (if digits.isEmpty then 1 else (Digits.word? digits).getD 1, digits.isEmpty)

/-- The digits of a count are passed over and read. -/
theorem run_count (remains : Remains source offset input) (mark : Nat) :
    count.run (view source mark offset) =
      pure (countIn (input.takeWhile CharClass.digit),
        view source offset (offset + (input.takeWhile CharClass.digit).length)) := by
  have readDigits := run_eatWhile CharClass.digit remains offset
  have whole := take_length_takeWhile CharClass.digit input
  rw [count, run_bind, run_mark, pure_bind, run_bind, readDigits, pure_bind]
  generalize input.takeWhile CharClass.digit = digits at *
  cases digits with
  | nil => rfl
  | cons first others =>
    rw [if_pos (by simp), run_bind, run_current remains, pure_bind, whole, String.toList_ofList]
    rfl

/-- Behind the at sign of a number come carets, a dash and digits. -/
theorem run_numberFrom (start size : Nat) (remains : Remains source offset input) (mark : Nat) :
    let parent := (input.takeWhile (· == '^')).length
    let afterParent := input.drop parent
    let isReverse := afterParent.head? == some '-'
    let dash := if isReverse then 1 else 0
    let digits := (afterParent.drop dash).takeWhile CharClass.digit
    let stop := offset + parent + dash + digits.length
    (numberFrom start size).run (view source mark offset) =
      pure (some (.repeaterNumber size isReverse (countIn digits).1 parent, ⟨start, stop⟩),
        view source start stop) := by
  intro parent afterParent isReverse dash digits stop
  have behindCarets : Remains source (offset + parent) afterParent :=
    remains.drop (List.takeWhile_sublist _).length_le
  have readDash := run_dash behindCarets mark
  rw [numberFrom, run_bind, run_bounded, run_carets remains mark remains.length_lt, pure_bind]
  dsimp only
  rw [run_bind, readDash.1, pure_bind]
  dsimp only
  rw [run_bind, run_count readDash.2, pure_bind]
  rfl

/-- A number of a copy is found as from what is left. -/
theorem number_finds (remains : Remains source offset input) :
    Finds number source offset (scanNumber input) := by
  intro mark
  have behind := remains.drop (List.takeWhile_sublist (· == '$')).length_le
  rw [number, run_bind, run_position, pure_bind, run_bind, run_eatWhile _ remains, pure_bind,
    scanNumber.eq_def]
  dsimp only
  generalize (input.takeWhile (· == '$')).length = size at *
  by_cases empty : size = 0
  · subst empty
    exact ⟨mark, rfl⟩
  have filled : (size != 0) = true := by simpa using empty
  have readAt := run_eatIf (· == '@') behind mark
  rw [if_neg empty, if_pos filled, run_bind, run_position, pure_bind]
  dsimp only
  rw [run_bind, eat, readAt, pure_bind, Nat.add_sub_cancel_left]
  generalize input.drop size = rest at *
  refine ⟨offset, ?_⟩
  cases rest with
  | nil => rfl
  | cons c rest =>
    by_cases isAt : c = '@'
    · subst isAt
      have read := run_numberFrom offset size behind.behind_cons mark
      simp only [List.head?_cons, Option.any_some, beq_self_eq_true, if_true]
      rw [read]
      simp only [placed, countIn, Nat.add_assoc]
    · have notAt : (c == '@') = false := beq_false_of_ne isAt
      simp only [List.head?_cons, Option.any_some, notAt, Bool.false_eq_true, if_false]
      split
      case h_1 same => exact absurd (List.cons.inj same).1 isAt
      case h_2 => rfl

/-- A repeater is found as from what is left. -/
theorem repeater_finds (remains : Remains source offset input) :
    Finds repeater source offset (scanRepeater input) := by
  intro mark
  have readMark := run_eatIf (· == '*') remains mark
  rw [repeater, run_bind, run_position, pure_bind, run_bind, eat, readMark, pure_bind]
  cases input with
  | nil => exact ⟨mark, rfl⟩
  | cons c rest =>
    by_cases isMark : c = '*'
    · subst isMark
      simp only [List.head?_cons, Option.any_some, beq_self_eq_true, if_true]
      refine ⟨offset + 1, ?_⟩
      rw [run_bind, run_count remains.behind_cons, pure_bind, scanRepeater, Nat.add_assoc]
      generalize rest.takeWhile CharClass.digit = digits
      cases digits with
      | nil => rfl
      | cons first others => rfl
    · have notMark : (c == '*') = false := beq_false_of_ne isMark
      have nothing : scanRepeater (c :: rest) = none := by
        unfold scanRepeater
        split
        case h_1 same => exact absurd (List.cons.inj same).1 isMark
        case h_2 => rfl
      simp only [List.head?_cons, Option.any_some, notMark]
      rw [nothing]
      exact ⟨mark, rfl⟩

/-- White space is found as from what is left. -/
theorem whiteSpace_finds (remains : Remains source offset input) :
    Finds whiteSpace source offset (scanWhiteSpace input) := by
  intro mark
  have readBlanks := run_eatWhile CharClass.space remains mark
  rw [whiteSpace, run_bind, run_position, pure_bind, run_bind, readBlanks, pure_bind]
  have whole := take_length_takeWhile CharClass.space input
  simp only [scanWhiteSpace]
  generalize input.takeWhile CharClass.space = blanks at *
  cases blanks with
  | nil => exact ⟨mark, rfl⟩
  | cons first others =>
    refine ⟨mark, ?_⟩
    rw [if_pos (by simp), run_bind, run_position, pure_bind]
    dsimp only
    rw [run_bind, run_between remains, pure_bind, whole]
    rfl

/-! ### Literals -/

/-- A slash between digits joins them; the look behind it moves nothing. -/
theorem run_isJoint {c : Char} {rest : List Char} (depths : Depths)
    (remains : Remains source offset (c :: rest)) (mark : Nat) :
    (isJoint depths c).run (view source mark offset) =
      pure (c = '/' && joinsDigits depths (before source offset) rest,
        view source mark offset) := by
  have following : source[offset + 1]? = rest.head? := by
    rw [← List.head?_drop, remains.behind_cons.left]
  rw [isJoint, run_bind, run_previous?, pure_bind]
  dsimp only
  rw [run_bind, run_position, pure_bind]
  dsimp only
  rw [run_bind, run_charAt?, pure_bind, following]
  simp only [joinsDigits, Bool.and_assoc]
  rfl

/-- What a character that is not escaped does to a literal. -/
theorem literalRun_cons (base : Int) (depths : Depths) (previous : Option Char) {c : Char}
    (rest : List Char) (notEscape : c ≠ '\\') :
    literalRun base depths previous (c :: rest) =
      match if c = '/' && joinsDigits depths previous rest then some depths
        else literalStep base depths c with
      | none => ⟨[], 0, depths.expression⟩
      | some changed => (literalRun base changed (some c) rest).cons c 1 := by
  rw [literalRun.eq_def]
  dsimp only
  rw [if_neg notEscape, literalStep]
  repeat' split
  all_goals simp_all

/-- A literal that is read from an offset on, and the window behind it. -/
def placedRun (source : List Char) (mark offset : Nat) (run : LiteralRun) :
    (List Char × Int) × Window :=
  ((run.text, run.expression), view source mark (offset + run.width))

/-- Put a character of the text in front of what is read. -/
def consOutcome (c : Char) (outcome : (List Char × Int) × Window) : (List Char × Int) × Window :=
  ((c :: outcome.1.1, outcome.1.2), outcome.2)

/-- A character in front of a run is put in front of its literal. -/
theorem placedRun_cons (source : List Char) (mark offset : Nat) (c : Char) (width : Nat)
    (run : LiteralRun) :
    placedRun source mark offset (run.cons c width) =
      consOutcome c (placedRun source mark (offset + width) run) := by
  rw [placedRun, consOutcome, placedRun, LiteralRun.cons, Nat.add_right_comm, Nat.add_assoc]

/-- What a character that is no escape does to a literal. -/
theorem run_literalFrom_cons (base : Int) (depths : Depths) (steps : Nat) {c : Char}
    {rest : List Char} (remains : Remains source offset (c :: rest)) (mark : Nat)
    (notEscape : c ≠ '\\') :
    (literalFrom base depths (steps + 1)).run (view source mark offset) =
      match if c = '/' && joinsDigits depths (before source offset) rest then some depths
        else literalStep base depths c with
      | none => pure (([], depths.expression), view source mark offset)
      | some changed =>
        consOutcome c <$> (literalFrom base changed steps).run (view source mark (offset + 1)) := by
  rw [literalFrom, run_bind, run_peek? remains, pure_bind]
  dsimp only [List.head?_cons]
  rw [if_neg notEscape, run_bind, run_isJoint depths remains, pure_bind]
  dsimp only
  cases if c = '/' && joinsDigits depths (before source offset) rest then some depths
    else literalStep base depths c with
  | none => rfl
  | some changed =>
    dsimp only
    rw [run_bind, run_advance remains, pure_bind]
    rfl

/-- A literal is read as far as it goes, with its escapes resolved. -/
theorem run_literalFrom {steps : Nat} (base : Int) (depths : Depths)
    (remains : Remains source offset input) (mark : Nat) (enough : input.length < steps) :
    (literalFrom base depths steps).run (view source mark offset) =
      pure (placedRun source mark offset
        (literalRun base depths (before source offset) input)) := by
  induction steps generalizing input offset depths with
  | zero => exact absurd enough (Nat.not_lt_zero _)
  | succ steps ih =>
    cases input with
    | nil =>
      rw [literalFrom, run_bind, run_peek? remains, pure_bind]
      rfl
    | cons c rest =>
      have behind := remains.behind_cons
      have fewer : rest.length < steps := Nat.lt_of_succ_lt_succ enough
      -- An escape takes two characters in one step, and the second of them is the one before the
      -- rest.
      by_cases isEscape : c = '\\'
      · subst isEscape
        rw [literalFrom, run_bind, run_peek? remains, pure_bind]
        dsimp only [List.head?_cons]
        rw [if_pos rfl, run_bind, run_advance remains, pure_bind, run_bind, run_next behind,
          pure_bind]
        cases rest with
        | nil => exact ih depths behind fewer
        | cons escaped rest =>
          have read := ih depths behind.behind_cons (Nat.lt_of_succ_lt fewer)
          rw [Nat.add_assoc, before_behind remains 1] at read
          have resolved : literalRun base depths (before source offset) ('\\' :: escaped :: rest) =
              (literalRun base depths (some escaped) rest).cons escaped 2 := by
            rw [literalRun, if_pos rfl]
          rw [resolved, placedRun_cons]
          exact congrArg (consOutcome escaped <$> ·) read
      · rw [literalRun_cons base depths _ rest isEscape,
          run_literalFrom_cons _ _ _ remains _ isEscape]
        cases if c = '/' && joinsDigits depths (before source offset) rest then some depths
          else literalStep base depths c with
        | none => rfl
        | some changed =>
          have read := ih changed behind fewer
          rw [before_behind remains 0] at read
          dsimp only
          rw [placedRun_cons]
          exact congrArg (consOutcome c <$> ·) read

/-- What is found at a place of a source with the depths that it leaves, and the window behind
it. -/
def placedToken (source : List Char) (mark offset : Nat) :
    Option (Piece × Depths) → Option ((Token.Kind × Span) × Depths) × Window
  | none => (none, view source mark offset)
  | some (piece, depths) =>
    (some ((piece.kind, ⟨offset, offset + piece.width⟩), depths),
      view source mark (offset + piece.width))

/-- The literal in front, if it is not empty, and the depths behind it. -/
def scanLiteral (depths : Depths) (previous : Option Char) (input : List Char) :
    Option (Piece × Depths) :=
  let run := literalRun depths.expression depths previous input
  if run.width ≠ 0 then
    some (⟨.literal (String.ofList run.text), run.width⟩,
      { depths with expression := run.expression })
  else
    none

/-- A literal is found as from what is left, with the depths behind it. -/
theorem run_literal (depths : Depths) (remains : Remains source offset input) (mark : Nat) :
    ∃ left, (literal depths).run (view source mark offset) =
      pure (placedToken source left offset
        (scanLiteral depths (before source offset) input)) := by
  rw [literal, run_bind, run_position, pure_bind]
  dsimp only
  rw [run_bind, run_bounded, run_literalFrom _ _ remains mark remains.length_lt, pure_bind]
  dsimp only [placedRun]
  rw [run_bind, run_position, pure_bind]
  dsimp only [scanLiteral]
  generalize literalRun depths.expression depths (before source offset) input = run
  by_cases empty : run.width = 0
  · rw [if_pos (by omega), if_neg (by omega), empty]
    exact ⟨mark, rfl⟩
  · rw [if_neg (by omega), if_pos empty]
    exact ⟨offset, rfl⟩

/-- Operators, quotes and brackets are found as from what is left. -/
theorem marks_find (remains : Remains source offset input) :
    Finds (orElse operator (orElse quote bracket)) source offset (scanMark input) := by
  have finds :=
    (single_finds (fun c => (Operator.ofChar? c).map Token.Kind.operator) remains).orElse
    ((single_finds (fun c => if CharClass.quote c then some (.quote (c == '\'')) else none)
      remains).orElse (single_finds (fun c =>
        (Enclosure.ofChar? c).map (.bracket (c == '(' || c == '[' || c == '{'))) remains))
  refine cast (congrArg (Finds _ source offset) ?_) finds
  cases input with
  | nil => rfl
  | cons c rest =>
    simp only [scanMark, List.head?_cons, Option.bind_some]
    cases Operator.ofChar? c with
    | some operator => rfl
    | none =>
      cases CharClass.quote c with
      | true => rfl
      | false => cases Enclosure.ofChar? c <;> rfl

/-! ### Tokens -/

/-- A token other than a field is found as from what is left. -/
theorem run_plainToken (depths : Depths) (remains : Remains source offset input) (mark : Nat) :
    ∃ left, (plainToken depths).run (view source mark offset) =
      pure (placedToken source left offset (scanPlain depths (before source offset) input)) := by
  have finds := (placeholder_finds remains).orElse ((number_finds remains).orElse
    ((repeater_finds remains).orElse (whiteSpace_finds remains)))
  obtain ⟨behindFirst, found⟩ := finds mark
  rw [plainToken, run_bind, found, pure_bind, scanPlain]
  dsimp only
  cases scanPlaceholder input <|> scanNumber input <|> scanRepeater input <|>
    scanWhiteSpace input with
  | some piece => exact ⟨behindFirst, rfl⟩
  | none =>
    obtain ⟨behindLiteral, read⟩ := run_literal depths remains behindFirst
    dsimp only [placed]
    rw [run_bind, read, pure_bind, scanLiteral]
    by_cases empty : (literalRun depths.expression depths (before source offset) input).width = 0
    · obtain ⟨left, marked⟩ := marks_find remains behindLiteral
      refine ⟨left, ?_⟩
      rw [if_neg (by omega), if_neg (by omega)]
      dsimp only [placedToken]
      rw [run_bind, marked]
      cases scanMark input <;> rfl
    · rw [if_pos empty, if_pos empty]
      exact ⟨behindLiteral, rfl⟩

/-- A token is found where the lexer finds it, and the fault of a field where it sees it. -/
theorem run_token (depths : Depths) (remains : Remains source offset input) (mark : Nat) :
    ∃ left, (token depths).run (view source mark offset) =
      match scanToken depths (before source offset) input with
      | .error distance => throw ⟨.missingBrace, offset + distance⟩
      | .ok found => pure (placedToken source left offset found) := by
  rw [token, run_bind, field, scanToken]
  split
  case isFalse =>
    obtain ⟨left, read⟩ := run_plainToken depths remains mark
    exact ⟨left, read⟩
  case isTrue =>
    obtain ⟨behindField, found⟩ := run_fieldMark remains mark
    rw [run_bind, found]
    cases FieldMark.scan input with
    | error distance => exact ⟨0, rfl⟩
    | ok mark =>
      cases mark with
      | some mark => exact ⟨behindField, rfl⟩
      | none =>
        obtain ⟨left, read⟩ := run_plainToken depths remains behindField
        exact ⟨left, read⟩

/-- No number of a copy is empty. -/
theorem width_pos_of_scanNumber {piece : Piece} (found : scanNumber input = some piece) :
    0 < piece.width := by
  simp only [scanNumber] at found
  split at found
  · cases found
  · split at found <;> cases found <;> dsimp only <;> omega

/-- No repeater is empty. -/
theorem width_pos_of_scanRepeater {piece : Piece} (found : scanRepeater input = some piece) :
    0 < piece.width := by
  unfold scanRepeater at found
  split at found
  · simp only at found
    split at found <;> cases found <;> dsimp only <;> omega
  · cases found

/-- White space that is found is not empty. -/
theorem width_pos_of_scanWhiteSpace {piece : Piece} (found : scanWhiteSpace input = some piece) :
    0 < piece.width := by
  simp only [scanWhiteSpace] at found
  split at found
  · cases found
  · next filled =>
    cases found
    exact List.length_pos_iff.mpr fun empty => filled (List.isEmpty_iff.mpr empty)

/-- Operators, quotes and brackets are one character wide. -/
theorem width_pos_of_scanMark {piece : Piece} (found : scanMark input = some piece) :
    0 < piece.width := by
  cases input with
  | nil => cases found
  | cons c rest =>
    simp only [scanMark] at found
    split at found
    · cases found
      exact Nat.one_pos
    · split at found
      · cases found
        exact Nat.one_pos
      · obtain ⟨enclosure, _, rfl⟩ := Option.map_eq_some_iff.mp found
        exact Nat.one_pos

/-- No token but a field is empty. -/
theorem width_pos_of_scanPlain {depths changed : Depths} {previous : Option Char} {piece : Piece}
    (scanned : scanPlain depths previous input = some (piece, changed)) : 0 < piece.width := by
  simp only [scanPlain] at scanned
  split at scanned
  case h_1 found first =>
    cases scanned
    simp only [Option.orElse_eq_orElse, Option.orElse_eq_or, Option.or_eq_some_iff] at first
    obtain found | ⟨_, found | ⟨_, found | ⟨_, found⟩⟩⟩ := first
    · unfold scanPlaceholder at found
      split at found <;> cases found
      exact Nat.two_pos
    · exact width_pos_of_scanNumber found
    · exact width_pos_of_scanRepeater found
    · exact width_pos_of_scanWhiteSpace found
  case h_2 =>
    split at scanned
    case isTrue filled =>
      cases scanned
      exact Nat.pos_of_ne_zero filled
    case isFalse =>
      obtain ⟨piece, found, same⟩ := Option.map_eq_some_iff.mp scanned
      cases same
      exact width_pos_of_scanMark found

/-- Every token that is found has characters. -/
theorem width_pos_of_scanToken {depths changed : Depths} {previous : Option Char} {piece : Piece}
    (scanned : scanToken depths previous input = .ok (some (piece, changed))) :
    0 < piece.width := by
  unfold scanToken at scanned
  split at scanned
  · split at scanned
    · cases scanned
    · next mark width found =>
      cases scanned
      obtain ⟨text, rest, _, rfl, spells⟩ := FieldMark.spells_of_scan found
      cases spells <;> exact Nat.succ_pos _
    · exact width_pos_of_scanPlain (Except.ok.inj scanned)
  · exact width_pos_of_scanPlain (Except.ok.inj scanned)

/-- The tokens behind a position are those that the lexer reads there. -/
theorem run_tokensFrom {steps : Nat} (depths : Depths) (remains : Remains source offset input)
    (mark : Nat) (enough : input.length < steps) :
    ∃ left, (tokensFrom depths steps).run (view source mark offset) =
      .inRange ((Markup.tokensFrom depths (before source offset) offset input).map
        (·, view source left source.length)) := by
  induction steps generalizing input offset depths mark with
  | zero => exact absurd enough (Nat.not_lt_zero _)
  | succ steps ih =>
    rw [tokensFrom, run_bind, run_peek? remains, pure_bind]
    cases input with
    | nil =>
      rw [remains.stop, Markup.tokensFrom]
      exact ⟨mark, rfl⟩
    | cons first rest =>
      obtain ⟨behindToken, read⟩ := run_token depths remains mark
      dsimp only [List.head?_cons]
      rw [run_bind, read, Markup.tokensFrom]
      cases scanned : scanToken depths (before source offset) (first :: rest) with
      | error distance => exact ⟨0, rfl⟩
      | ok found =>
        cases found with
        | none => exact ⟨0, rfl⟩
        | some token =>
          obtain ⟨⟨kind, width⟩, changed⟩ := token
          -- No token is empty, so that the steps left are enough for what is behind it.
          obtain ⟨more, rfl⟩ :=
            Nat.exists_eq_add_one_of_ne_zero (Nat.ne_of_gt (width_pos_of_scanToken scanned))
          have behind : Remains source (offset + (more + 1)) (rest.drop more) :=
            remains.drop (scanToken_begins scanned).le
          have fewer : (rest.drop more).length < steps := by
            rw [List.length_cons] at enough
            rw [List.length_drop]
            omega
          obtain ⟨left, others⟩ := ih (changed.after first kind) behind behindToken fewer
          rw [before_behind remains more] at others
          refine ⟨left, ?_⟩
          dsimp only [placedToken]
          rw [pure_bind]
          dsimp only
          rw [run_bind, others]
          cases Markup.tokensFrom (changed.after first kind) ((first :: rest)[more]?)
            (offset + (more + 1)) (rest.drop more) <;> rfl

end

/-- The tokens of an abbreviation are scanned without leaving it, and they are those of the
lexer. -/
theorem outcome_tokens (source : String) : tokens.outcome source = some (Markup.tokens source) := by
  obtain ⟨left, read⟩ :=
    run_tokensFrom .outside (.start source.toList) 0 (Nat.lt_succ_self source.toList.length)
  exact outcome_eq read

end Shorthand.Markup.Scanner
