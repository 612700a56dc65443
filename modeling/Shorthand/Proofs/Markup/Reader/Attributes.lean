import Shorthand.Proofs.Markup.Refusals
import Shorthand.Proofs.Reading

/-!
# The readers of text and attributes

The readers of texts, literals, quoted values and attributes as programs that move a read position
over the whole list of tokens and back, put a mark where a name or a value begins, and take ranges
between the two. Each `run_` lemma says that no index is out of range and that the same is found as
by the reader of what is left.
-/

namespace Shorthand.Markup.Reader

open Reading

/-- Read a repeater if one is next. -/
def repeater : Reading Token (Option Repeat) := do
  match (← peek?).bind Token.repeat? with
  | none => return none
  | some repetition =>
    advance
    return some repetition

/-! ### Text and literals -/

/-- Go on through a text to the brace that closes it; `depth` braces are open inside of it. -/
def throughText (depth : Nat) : Nat → Reading Token Unit
  | 0 => exhausted
  | steps + 1 => do
    match ← next? with
    | none => return ()
    | some token =>
      if token.isBracket .expression false then
        match depth with
        | 0 => return ()
        | depth + 1 => throughText depth steps
      else if token.isBracket .expression true then
        throughText (depth + 1) steps
      else
        throughText depth steps

/-- Read a text in braces and put the mark where it begins. -/
def text : Reading Token Bool := do
  let start ← position
  if ← consume (Token.isBracket .expression true) then
    bounded (throughText 0)
    markAt start
    return true
  else
    return false

/-- The tokens of the last text, without its braces. -/
def textTokens : Reading Token (List Token) := do
  let cursor ← get
  let first :=
    if cursor.tokens[cursor.start]?.any (Token.isBracket .expression true) then cursor.start + 1
    else cursor.start
  let last :=
    if first < cursor.position ∧
        cursor.tokens[cursor.position - 1]?.any (Token.isBracket .expression false) then
      cursor.position - 1
    else
      cursor.position
  slice first last

/-- The brackets that are open behind a token of a literal: square, round and curly ones. None if
the token does not belong to the literal. -/
def literalStep (allowBrackets : Bool) (attributes groups expressions : Nat) (token : Token) :
    Option (Nat × Nat × Nat) :=
  if 0 < expressions then
    if token.isBracket .expression true then
      some (attributes, groups, expressions + 1)
    else if token.isBracket .expression false then
      some (attributes, groups, expressions - 1)
    else
      some (attributes, groups, expressions)
  else if token.separatesLiterals then
    none
  else
    match token.kind with
    | .bracket isOpen enclosure =>
      if !allowBrackets then
        none
      else if isOpen then
        match enclosure with
        | .attributes => some (attributes + 1, groups, expressions)
        | .group => some (attributes, groups + 1, expressions)
        | .expression => some (attributes, groups, expressions + 1)
      else
        match enclosure, attributes, groups with
        | .attributes, attributes + 1, _ => some (attributes, groups, expressions)
        | .group, _, groups + 1 => some (attributes, groups, expressions)
        | _, _, _ => none
    | _ => some (attributes, groups, expressions)

/-- Go on to the end of a literal. -/
def passLiteral (allowBrackets : Bool) (attributes groups expressions : Nat) :
    Nat → Reading Token Unit
  | 0 => exhausted
  | steps + 1 => do
    match (← peek?).bind (literalStep allowBrackets attributes groups expressions) with
    | none => return ()
    | some (attributes, groups, expressions) =>
      advance
      passLiteral allowBrackets attributes groups expressions steps

/-- Read a literal and put the mark where it begins. -/
def literal (allowBrackets : Bool) : Reading Token Bool := do
  let start ← position
  bounded (passLiteral allowBrackets 0 0 0)
  if start = (← position) then
    return false
  else
    markAt start
    return true

/-- Go on behind the next token of a kind, and tell whether there is one. -/
def through (kind : Token.Kind) : Nat → Reading Token Bool
  | 0 => exhausted
  | steps + 1 => do
    match ← next? with
    | none => return false
    | some token => if token.kind = kind then return true else through kind steps

/-- Read a quoted value and put the mark where it begins. -/
def quoted : Reading Token Bool := do
  let start ← position
  match (← peek?).map Token.kind with
  | some (.quote isSingle) =>
    advance
    if ← bounded (through (.quote isSingle)) then
      markAt start
      return true
    else
      let opening ← tokenAt start
      throw ⟨.unclosedQuote, opening.span.start⟩
  | _ => return false

/-! ### Attributes -/

/-- Read the value behind an equals sign. -/
def value : Reading Token (Option (List Token)) := do
  if ← quoted then
    return some (← marked)
  else if ← literal true then
    return some (← marked)
  else
    return none

/-- Read one attribute of a list. -/
def oneAttribute : Reading Token (Option AttributeTokens) := do
  if ← quoted then
    return some ⟨none, some (← marked), false, false⟩
  else if ← literal true then
    let name ← marked
    if ← consume (Token.isOperator .equal) then
      return some ⟨some name, ← value, false, false⟩
    else
      return some ⟨some name, none, false, false⟩
  else
    return none

/-- Read the attributes of a list up to and with its closing bracket, in an abbreviation of `size`
characters. -/
def attributeList (size : Nat) : Nat → Reading Token (List AttributeTokens)
  | 0 => exhausted
  | steps + 1 => do
    match ← peek? with
    | none => return []
    | some _ =>
      match ← oneAttribute with
      | some first => return first :: (← attributeList size steps)
      | none =>
        if ← consume (Token.isBracket .attributes false) then
          return []
        else if ← consume Token.isWhiteSpace then
          attributeList size steps
        else
          let label := ((← peek?).map fun token => token.kind.label).getD "EOF"
          refuse Token.span size (.misplaced label)

/-- Read an attribute list. -/
def attributeSet (size : Nat) : Reading Token (Option (List AttributeTokens)) := do
  if ← consume (Token.isBracket .attributes true) then
    return some (← bounded (attributeList size))
  else
    return none

/-- Read the value of a class or an id. -/
def shortValue (jsx : Bool) (name : Option (List Token)) (isMultiple : Bool) :
    Reading Token AttributeTokens := do
  if ← (if jsx then text else return false) then
    return ⟨name, some (← textTokens), true, isMultiple⟩
  else if ← literal false then
    return ⟨name, some (← marked), false, isMultiple⟩
  else
    return ⟨name, none, false, isMultiple⟩

/-- Read a class or an id. -/
def shortAttribute (jsx : Bool) (operator : Operator) (name : String) :
    Reading Token (Option AttributeTokens) := do
  let count ← passWhile (Token.isOperator operator)
  if count = 0 then
    return none
  else
    return some (← shortValue jsx (some [impliedLiteral name]) (1 < count))

/-- Read an id, a class or an attribute list. -/
def attributes (jsx : Bool) (size : Nat) : Reading Token (Option (List AttributeTokens)) := do
  match ← shortAttribute jsx .identifier "id" with
  | some found => return some [found]
  | none =>
    match ← shortAttribute jsx .className "class" with
    | some found => return some [found]
    | none => attributeSet size

/-! ### What the programs find -/

section

variable {tokens left rest : List Token}

/-- A repeater is read if one is next. -/
theorem run_repeater (within : left <:+ tokens) (start : Nat) :
    repeater.run (facing tokens start left) =
      pure ((readRepeat left).1, facing tokens start (readRepeat left).2) := by
  rw [repeater, run_bind, run_peek? within, pure_bind]
  cases left with
  | nil => rfl
  | cons token rest =>
    dsimp only [List.head?_cons, Option.bind_some, readRepeat]
    cases token.repeat? with
    | none => rfl
    | some repetition =>
      dsimp only
      rw [run_bind, run_advance within, pure_bind]
      rfl

/-- A text is passed over up to the brace that closes it. -/
theorem run_throughText {steps : Nat} (depth : Nat) (within : left <:+ tokens) (start : Nat)
    (enough : left.length < steps) :
    (throughText depth steps).run (facing tokens start left) =
      pure ((), facing tokens start (throughBrace depth left).2) := by
  induction steps generalizing left depth with
  | zero => exact absurd enough (Nat.not_lt_zero _)
  | succ steps ih =>
    rw [throughText.eq_def]
    dsimp only
    rw [run_bind, run_next? within, pure_bind]
    cases left with
    | nil => rfl
    | cons token rest =>
      have inner := (List.suffix_cons token rest).trans within
      have fewer : rest.length < steps := Nat.lt_of_succ_lt_succ enough
      dsimp only [List.head?_cons, List.tail_cons, throughBrace]
      split
      · cases depth with
        | zero => rfl
        | succ depth => exact ih depth inner fewer
      · split
        · exact ih (depth + 1) inner fewer
        · exact ih depth inner fewer

/-- A text is passed over, and the mark is put in front of it. -/
theorem run_text (within : left <:+ tokens) (start : Nat) :
    text.run (facing tokens start left) = match readText left with
      | none => pure (false, facing tokens start left)
      | some (_, rest) => pure (true, facing tokens (positionOf tokens left) rest) := by
  rw [text, run_bind, run_position, pure_bind]
  dsimp only
  cases left with
  | nil => exact run_ifConsume_nil _ _ _ tokens start
  | cons token rest =>
    rw [run_ifConsume _ _ _ within, readText]
    split
    · have inner := (List.suffix_cons token rest).trans within
      rw [run_bind, run_bounded, run_throughText 0 inner start (length_lt inner), pure_bind]
      rfl
    · rfl

/-- The text in front, where a text may stand. -/
def readTextIf (allowed : Bool) (left : List Token) : Option (List Token × List Token) :=
  if allowed then readText left else none

/-- Where no text may stand none is looked for. -/
theorem run_textIf (allowed : Bool) (within : left <:+ tokens) (start : Nat) :
    (if allowed then text else return false : Reading Token Bool).run (facing tokens start left) =
      match readTextIf allowed left with
      | none => pure (false, facing tokens start left)
      | some (_, rest) => pure (true, facing tokens (positionOf tokens left) rest) := by
  cases allowed with
  | true => exact run_text within start
  | false => rfl

/-- A text in a place where one may stand is a text. -/
theorem readText_of_readTextIf {allowed : Bool} {found : List Token}
    (read : readTextIf allowed left = some (found, rest)) : readText left = some (found, rest) := by
  rw [readTextIf] at read
  split at read
  · exact read
  · cases read

/-- Of what has been read only the last brace is dropped. -/
theorem dropFinalBrace_concat (front : List Token) (final : Token) :
    dropFinalBrace (front ++ [final]) =
      if final.isBracket .expression false then front else front ++ [final] := by
  rw [dropFinalBrace, List.getLast?_concat, List.dropLast_concat]
  rfl

/-- What stands between the braces of a text that has been read. -/
theorem run_textTokens {allowed : Bool} {found : List Token} (within : left <:+ tokens)
    (read : readTextIf allowed left = some (found, rest)) :
    textTokens.run (facing tokens (positionOf tokens left) rest) =
      pure (found, facing tokens (positionOf tokens left) rest) := by
  obtain ⟨opening, inner, isOpening, rfl, rfl, rfl⟩ :=
    readText_finds (readText_of_readTextIf read)
  have behindOpening := positionOf_cons within
  have inside := (List.suffix_cons opening inner).trans within
  have here : tokens[positionOf tokens (opening :: inner)]? = some opening :=
    getElem?_positionOf within 0
  have whole := throughBrace_append 0 inner
  generalize (throughBrace 0 inner).1 = taken at *
  generalize (throughBrace 0 inner).2 = rest at *
  subst whole
  have first : (if tokens[positionOf tokens (opening :: (taken ++ rest))]?.any
      (Token.isBracket .expression true) then positionOf tokens (opening :: (taken ++ rest)) + 1
      else positionOf tokens (opening :: (taken ++ rest))) = positionOf tokens (taken ++ rest) := by
    rw [here, Option.any_some, if_pos isOpening, behindOpening]
  -- the range ends before the closing brace, if there is one
  have range {last : Nat} (same : (if positionOf tokens (taken ++ rest) < positionOf tokens rest ∧
      tokens[positionOf tokens rest - 1]?.any (Token.isBracket .expression false) then
        positionOf tokens rest - 1 else positionOf tokens rest) = last) :
      textTokens.run (facing tokens (positionOf tokens (opening :: (taken ++ rest))) rest) =
        (slice (positionOf tokens (taken ++ rest)) last).run
          (facing tokens (positionOf tokens (opening :: (taken ++ rest))) rest) := by
    rw [← same, ← first]
    rfl
  -- Whether the last token is the closing brace is read off the position before the end of the
  -- range.
  obtain rfl | ⟨front, final, rfl⟩ := List.eq_nil_or_concat' taken
  · rw [range (if_neg fun filled => Nat.lt_irrefl _ filled.1)]
    exact run_slice (show [] ++ rest <:+ tokens from inside) _ rest
  · have further : front ++ final :: rest <:+ tokens := by rwa [List.append_cons]
    have toFinal : final :: rest <:+ tokens := (List.suffix_append front _).trans further
    have beforeEnd := positionOf_cons toFinal
    have filled := positionOf_append inside
    have last : tokens[positionOf tokens rest - 1]? = some final := by
      rw [beforeEnd]
      exact getElem?_positionOf toFinal 0
    rw [last, Option.any_some] at range
    rw [dropFinalBrace_concat]
    split
    · next isClosing =>
      rw [range (if_pos ⟨by simp only [List.length_append, List.length_cons] at filled; omega,
        isClosing⟩), beforeEnd, Nat.add_sub_cancel, ← List.append_cons]
      exact run_slice further _ rest
    · next notClosing =>
      rw [range (if_neg fun filled => notClosing filled.2)]
      exact run_slice inside _ rest

/-! ### Literals and quoted values -/

/-- What a token does to a literal. -/
theorem readLiteral_cons (allowBrackets : Bool) (attributes groups expressions : Nat)
    (token : Token) (rest : List Token) :
    readLiteral allowBrackets attributes groups expressions (token :: rest) =
      match literalStep allowBrackets attributes groups expressions token with
      | none => ([], token :: rest)
      | some (attributes, groups, expressions) =>
        let (taken, left) := readLiteral allowBrackets attributes groups expressions rest
        (token :: taken, left) := by
  rw [readLiteral, literalStep]
  repeat' split
  all_goals first | rfl | simp_all

/-- A literal is passed over with the brackets that belong to it. -/
theorem run_passLiteral {steps : Nat} (allowBrackets : Bool) (attributes groups expressions : Nat)
    (within : left <:+ tokens) (start : Nat) (enough : left.length < steps) :
    (passLiteral allowBrackets attributes groups expressions steps).run
        (facing tokens start left) =
      pure ((), facing tokens start
        (readLiteral allowBrackets attributes groups expressions left).2) := by
  induction steps generalizing left attributes groups expressions with
  | zero => exact absurd enough (Nat.not_lt_zero _)
  | succ steps ih =>
    rw [passLiteral, run_bind, run_peek? within, pure_bind]
    cases left with
    | nil => rfl
    | cons token rest =>
      rw [readLiteral_cons]
      dsimp only [List.head?_cons, Option.bind_some]
      cases literalStep allowBrackets attributes groups expressions token with
      | none => rfl
      | some brackets =>
        obtain ⟨attributes, groups, expressions⟩ := brackets
        dsimp only
        rw [run_bind, run_advance within, pure_bind]
        exact ih attributes groups expressions ((List.suffix_cons token rest).trans within)
          (Nat.lt_of_succ_lt_succ enough)

/-- The position moves on exactly where something is taken. -/
theorem positionOf_eq_iff {taken : List Token} (within : taken ++ rest <:+ tokens) :
    positionOf tokens (taken ++ rest) = positionOf tokens rest ↔ taken = [] := by
  rw [positionOf_append within, ← List.length_eq_zero_iff]
  omega

/-- A literal is passed over, and the mark is put in front of it. -/
theorem run_literal (allowBrackets : Bool) (within : left <:+ tokens) (start : Nat) :
    (literal allowBrackets).run (facing tokens start left) =
      match readLiteral allowBrackets 0 0 0 left with
      | ([], _) => pure (false, facing tokens start left)
      | (_ :: _, rest) => pure (true, facing tokens (positionOf tokens left) rest) := by
  have whole := readLiteral_append allowBrackets 0 0 0 left
  rw [literal, run_bind, run_position, pure_bind]
  dsimp only
  rw [run_bind, run_bounded, run_passLiteral _ _ _ _ within start (length_lt within), pure_bind,
    run_bind, run_position, pure_bind]
  generalize readLiteral allowBrackets 0 0 0 left = found at *
  obtain ⟨taken, rest⟩ := found
  dsimp only at whole ⊢
  subst whole
  have moved := positionOf_eq_iff within
  cases taken with
  | nil =>
    rw [if_pos (moved.mpr rfl)]
    rfl
  | cons first others =>
    rw [if_neg fun same => List.cons_ne_nil first others (moved.mp same)]
    rfl

/-- Some quoted value is passed over. -/
theorem run_through {steps : Nat} (kind : Token.Kind) (within : left <:+ tokens) (start : Nat)
    (enough : left.length < steps) :
    (through kind steps).run (facing tokens start left) = match through? kind left with
      | some (_, rest) => pure (true, facing tokens start rest)
      | none => pure (false, facing tokens start []) := by
  induction steps generalizing left with
  | zero => exact absurd enough (Nat.not_lt_zero _)
  | succ steps ih =>
    rw [through, run_bind, run_next? within, pure_bind]
    cases left with
    | nil => rfl
    | cons token rest =>
      rw [through?]
      dsimp only [List.head?_cons, List.tail_cons]
      split
      · rfl
      · rw [ih ((List.suffix_cons token rest).trans within) (Nat.lt_of_succ_lt_succ enough)]
        cases through? kind rest <;> rfl

/-- A quoted value is passed over, and the mark is put in front of it. -/
theorem run_quoted (within : left <:+ tokens) (start : Nat) :
    quoted.run (facing tokens start left) = match readQuoted left with
      | .error notice => throw notice
      | .ok none => pure (false, facing tokens start left)
      | .ok (some (_, rest)) => pure (true, facing tokens (positionOf tokens left) rest) := by
  rw [quoted, run_bind, run_position, pure_bind]
  dsimp only
  rw [run_bind, run_peek? within, pure_bind]
  cases left with
  | nil => rfl
  | cons token rest =>
    have inner := (List.suffix_cons token rest).trans within
    dsimp only [List.head?_cons, Option.map_some, readQuoted]
    cases token.kind with
    | quote isSingle =>
      dsimp only
      rw [run_bind, run_advance within, pure_bind, run_bind, run_bounded,
        run_through _ inner start (length_lt inner)]
      cases through? (.quote isSingle) rest with
      | some taken => rfl
      | none =>
        simp only [pure_bind, Bool.false_eq_true, if_false]
        rw [run_bind, run_tokenAt within]
        rfl
    | _ => rfl

/-! ### Reading attributes -/

/-- A quoted value is a piece in front of what is left. -/
theorem readQuoted_append {taken : List Token}
    (read : readQuoted left = .ok (some (taken, rest))) : taken ++ rest = left := by
  obtain ⟨_, _, _, _, _, _, _, _, whole⟩ := readQuoted_finds read
  exact whole.symm

/-- A value is read as from what is left; its tokens lie between the mark and the read position. -/
theorem run_value (within : left <:+ tokens) (start : Nat) :
    ∃ behind, value.run (facing tokens start left) = leaving tokens behind (readValue left) := by
  rw [value, run_bind, run_quoted within, readValue]
  cases quotes : readQuoted left with
  | error notice => exact ⟨0, rfl⟩
  | ok quotation =>
    cases quotation with
    | some quotation =>
      refine ⟨positionOf tokens left, ?_⟩
      simp only [pure_bind, if_true]
      rw [run_bind, run_marked (readQuoted_append quotes) within]
      rfl
    | none =>
      have whole := readLiteral_append true 0 0 0 left
      simp only [pure_bind, Bool.false_eq_true, if_false]
      rw [run_bind, run_literal true within]
      generalize readLiteral true 0 0 0 left = found at *
      obtain ⟨taken, rest⟩ := found
      cases taken with
      | nil => exact ⟨start, rfl⟩
      | cons first others =>
        refine ⟨positionOf tokens left, ?_⟩
        simp only [pure_bind, if_true]
        rw [run_bind, run_marked whole within]
        rfl

/-- An attribute is read as from what is left. -/
theorem run_oneAttribute (within : left <:+ tokens) (start : Nat) :
    ∃ behind, oneAttribute.run (facing tokens start left) =
      leaving? tokens behind left (readAttribute left) := by
  rw [oneAttribute, run_bind, run_quoted within, readAttribute]
  cases quotes : readQuoted left with
  | error notice => exact ⟨0, rfl⟩
  | ok quotation =>
    cases quotation with
    | some quotation =>
      refine ⟨positionOf tokens left, ?_⟩
      simp only [pure_bind, if_true]
      rw [run_bind, run_marked (readQuoted_append quotes) within]
      rfl
    | none =>
      -- Behind the mark stands the name alone; the value is read from a mark of its own.
      have whole := readLiteral_append true 0 0 0 left
      simp only [pure_bind, Bool.false_eq_true, if_false]
      rw [run_bind, run_literal true within]
      generalize readLiteral true 0 0 0 left = found at *
      obtain ⟨taken, rest⟩ := found
      cases taken with
      | nil => exact ⟨start, rfl⟩
      | cons first others =>
        simp only [pure_bind, if_true]
        rw [run_bind, run_marked whole within, pure_bind]
        cases rest with
        | nil =>
          rw [run_ifConsume_nil]
          exact ⟨positionOf tokens left, rfl⟩
        | cons next rest =>
          have behindName : next :: rest <:+ tokens :=
            (List.suffix_append (first :: others) (next :: rest)).trans (whole.symm ▸ within)
          rw [run_ifConsume _ _ _ behindName]
          dsimp only
          split
          · obtain ⟨behind, read⟩ :=
              run_value ((List.suffix_cons next rest).trans behindName) (positionOf tokens left)
            rw [run_bind, read]
            refine ⟨behind, ?_⟩
            cases readValue rest <;> rfl
          · exact ⟨positionOf tokens left, rfl⟩

/-- What is done at a token of an attribute list. -/
theorem run_attributeList_cons (size steps : Nat) {token : Token}
    (within : token :: rest <:+ tokens) (start : Nat) :
    ∃ behind, (attributeList size (steps + 1)).run (facing tokens start (token :: rest)) =
      match readAttribute (token :: rest) with
      | .error notice => throw notice
      | .ok (some (first, left)) =>
        (attributeList size steps).run (facing tokens behind left) >>= fun outcome =>
          pure (first :: outcome.1, outcome.2)
      | .ok none =>
        if token.isBracket .attributes false then
          pure ([], facing tokens behind rest)
        else if token.isWhiteSpace then
          (attributeList size steps).run (facing tokens behind rest)
        else
          throw ⟨.misplaced token.kind.label, token.span.start⟩ := by
  obtain ⟨behind, read⟩ := run_oneAttribute within start
  refine ⟨behind, ?_⟩
  rw [attributeList, run_bind, run_peek? within, pure_bind]
  dsimp only [List.head?_cons]
  rw [run_bind, read]
  cases readAttribute (token :: rest) with
  | error notice => rfl
  | ok found =>
    cases found with
    | some first => rfl
    | none =>
      simp only [leaving?, pure_bind]
      rw [run_ifConsume _ _ _ within, run_ifConsume _ _ _ within]
      split
      · rfl
      · split
        · rfl
        · rw [run_bind, run_peek? within, pure_bind]
          exact run_refuse Token.span size (.misplaced token.kind.label) within behind

/-- An attribute list is read up to its closing bracket, or refused where it is. -/
theorem run_attributeList {steps : Nat} (size : Nat) (within : left <:+ tokens) (start : Nat)
    (enough : left.length < steps) :
    ∃ behind, (attributeList size steps).run (facing tokens start left) =
      leaving tokens behind (readAttributeList left) := by
  -- The mark is left wherever the last attribute has put it, so that it is found anew in every
  -- case.
  fun_induction readAttributeList left generalizing start steps with
  | case1 =>
    obtain ⟨steps, rfl, -⟩ := exists_fewer enough
    rw [attributeList, run_bind, run_peek? within, pure_bind]
    exact ⟨start, rfl⟩
  | case2 token rest notice failed =>
    obtain ⟨steps, rfl, -⟩ := exists_fewer enough
    obtain ⟨behind, read⟩ := run_attributeList_cons size steps within start
    rw [read, failed]
    exact ⟨0, rfl⟩
  | case3 token rest first between readFirst notice failed ih =>
    obtain ⟨steps, rfl, fewer⟩ := exists_fewer enough
    obtain ⟨behindFirst, read⟩ := run_attributeList_cons size steps within start
    obtain ⟨behind, others⟩ := ih ((readAttribute_suffix readFirst).trans within) behindFirst
      ((readAttribute_length readFirst).trans_le fewer)
    rw [read, readFirst]
    dsimp only
    rw [others, failed]
    exact ⟨0, rfl⟩
  | case4 token rest first between readFirst others left' readRest ih =>
    obtain ⟨steps, rfl, fewer⟩ := exists_fewer enough
    obtain ⟨behindFirst, read⟩ := run_attributeList_cons size steps within start
    obtain ⟨behind, others⟩ := ih ((readAttribute_suffix readFirst).trans within) behindFirst
      ((readAttribute_length readFirst).trans_le fewer)
    rw [read, readFirst]
    dsimp only
    rw [others, readRest]
    exact ⟨behind, rfl⟩
  | case5 token rest nothing isClosing =>
    obtain ⟨steps, rfl, -⟩ := exists_fewer enough
    obtain ⟨behind, read⟩ := run_attributeList_cons size steps within start
    rw [read, nothing]
    exact ⟨behind, if_pos isClosing⟩
  | case6 token rest nothing notClosing isBlank ih =>
    obtain ⟨steps, rfl, fewer⟩ := exists_fewer enough
    obtain ⟨behindBlank, read⟩ := run_attributeList_cons size steps within start
    obtain ⟨behind, others⟩ := ih ((List.suffix_cons token rest).trans within) behindBlank fewer
    rw [read, nothing]
    dsimp only
    rw [if_neg notClosing, if_pos isBlank]
    exact ⟨behind, others⟩
  | case7 token rest nothing notClosing notBlank =>
    obtain ⟨steps, rfl, -⟩ := exists_fewer enough
    obtain ⟨behind, read⟩ := run_attributeList_cons size steps within start
    rw [read, nothing]
    dsimp only
    rw [if_neg notClosing, if_neg notBlank]
    exact ⟨0, rfl⟩

/-- An attribute list is looked for behind an opening bracket alone. -/
theorem run_attributeSet (size : Nat) (within : left <:+ tokens) (start : Nat) :
    ∃ behind, (attributeSet size).run (facing tokens start left) =
      leaving? tokens behind left (match left with
        | [] => .ok none
        | token :: rest =>
          if token.isBracket .attributes true then (readAttributeList rest).map some
          else .ok none) := by
  rw [attributeSet]
  cases left with
  | nil => exact ⟨start, run_ifConsume_nil _ _ _ tokens start⟩
  | cons token rest =>
    dsimp only
    rw [run_ifConsume _ _ _ within]
    by_cases isOpening : token.isBracket .attributes true
    · have inner := (List.suffix_cons token rest).trans within
      obtain ⟨behind, read⟩ := run_attributeList size inner start (length_lt inner)
      rw [if_pos isOpening, if_pos isOpening, run_bind, run_bounded, read]
      exact ⟨behind, by cases readAttributeList rest <;> rfl⟩
    · rw [if_neg isOpening, if_neg isOpening]
      exact ⟨start, rfl⟩

/-! ### Classes and ids -/

/-- The value of a class or an id behind its marks. -/
def readShortValue (jsx : Bool) (name : Option (List Token)) (isMultiple : Bool)
    (rest : List Token) : AttributeTokens × List Token :=
  match readTextIf jsx rest with
  | some (value, left) => (⟨name, some value, true, isMultiple⟩, left)
  | none =>
    match readLiteral false 0 0 0 rest with
    | ([], _) => (⟨name, none, false, isMultiple⟩, rest)
    | (value, left) => (⟨name, some value, false, isMultiple⟩, left)

/-- A class or an id is read in two parts, its marks and its value. -/
theorem readShortAttribute_eq (jsx : Bool) (operator : Operator) (name : String)
    (tokens : List Token) :
    readShortAttribute jsx operator name tokens =
      let count := (tokens.takeWhile (Token.isOperator operator)).length
      if count = 0 then none
      else some (readShortValue jsx (some [impliedLiteral name]) (1 < count)
        (tokens.dropWhile (Token.isOperator operator))) := by
  rw [readShortAttribute]
  generalize tokens.takeWhile (Token.isOperator operator) = marks
  generalize tokens.dropWhile (Token.isOperator operator) = rest
  cases marks with
  | nil => rfl
  | cons first others =>
    simp only [readShortValue, readTextIf, List.isEmpty_cons, Bool.false_eq_true, if_false,
      List.length_cons, Nat.succ_ne_zero]
    cases if jsx then readText rest else none with
    | some value => rfl
    | none =>
      generalize readLiteral false 0 0 0 rest = found
      obtain ⟨value, left⟩ := found
      cases value <;> rfl

/-- The value of a class or an id is read as from what is left. -/
theorem run_shortValue (jsx : Bool) (name : Option (List Token)) (isMultiple : Bool)
    (within : left <:+ tokens) (start : Nat) :
    ∃ behind, (shortValue jsx name isMultiple).run (facing tokens start left) =
      leaving tokens behind (.ok (readShortValue jsx name isMultiple left)) := by
  rw [shortValue, run_bind, run_textIf jsx within, readShortValue]
  cases isText : readTextIf jsx left with
  | some value =>
    refine ⟨positionOf tokens left, ?_⟩
    simp only [pure_bind, if_true]
    rw [run_bind, run_textTokens within isText]
    rfl
  | none =>
    have whole := readLiteral_append false 0 0 0 left
    simp only [pure_bind, Bool.false_eq_true, if_false]
    rw [run_bind, run_literal false within]
    generalize readLiteral false 0 0 0 left = found at *
    obtain ⟨taken, rest⟩ := found
    cases taken with
    | nil => exact ⟨start, rfl⟩
    | cons first others =>
      refine ⟨positionOf tokens left, ?_⟩
      simp only [pure_bind, if_true]
      rw [run_bind, run_marked whole within]
      rfl

/-- A class or an id is read as from what is left. -/
theorem run_shortAttribute (jsx : Bool) (operator : Operator) (name : String)
    (within : left <:+ tokens) (start : Nat) :
    ∃ behind, (shortAttribute jsx operator name).run (facing tokens start left) =
      leaving? tokens behind left (.ok (readShortAttribute jsx operator name left)) := by
  have behindMarks := (List.dropWhile_suffix (Token.isOperator operator)).trans within
  rw [shortAttribute, run_bind, run_passWhile _ within, pure_bind, readShortAttribute_eq]
  dsimp only
  split
  · next empty =>
    have unmoved : left.dropWhile (Token.isOperator operator) = left := by
      have whole := List.takeWhile_append_dropWhile (p := Token.isOperator operator) (l := left)
      rwa [List.length_eq_zero_iff.mp empty, List.nil_append] at whole
    rw [unmoved]
    exact ⟨start, rfl⟩
  · obtain ⟨behind, read⟩ := run_shortValue jsx (some [impliedLiteral name]) _ behindMarks start
    rw [run_bind, read]
    exact ⟨behind, rfl⟩

/-- An id, a class or a list is tried, in this order. -/
theorem run_attributes (jsx : Bool) (size : Nat) (within : left <:+ tokens) (start : Nat) :
    ∃ behind, (attributes jsx size).run (facing tokens start left) =
      leaving? tokens behind left (readAttributes jsx left) := by
  obtain ⟨behindId, readId⟩ := run_shortAttribute jsx .identifier "id" within start
  rw [attributes, run_bind, readId, readAttributes.eq_def]
  cases readShortAttribute jsx .identifier "id" left with
  | some found => exact ⟨behindId, rfl⟩
  | none =>
    obtain ⟨behindClass, readClass⟩ := run_shortAttribute jsx .className "class" within behindId
    simp only [leaving?, pure_bind]
    rw [run_bind, readClass]
    cases readShortAttribute jsx .className "class" left with
    | some found => exact ⟨behindClass, rfl⟩
    | none =>
      obtain ⟨behind, readSet⟩ := run_attributeSet size within behindClass
      refine ⟨behind, readSet.trans ?_⟩
      cases left with
      | nil => rfl
      | cons token rest =>
        dsimp only
        split
        · cases readAttributeList rest <;> rfl
        · rfl

end

end Shorthand.Markup.Reader
