import Shorthand.Proofs.Markup.Reader.Elements

/-!
# The reader of a markup abbreviation

Statements are read into places inside of open groups, by a program whose read position never leaves
the list of tokens. `outcome_statements` says that none of its indices is out of range and that it
finds the statements of the reader.
-/

namespace Shorthand.Markup.Reader

open Reading

/-- Put a statement at a place and go where the operator behind it leads. -/
def put (place : Place) (statement : Statement) : Reading Token Place := do
  if ← consume (Token.isOperator .child) then
    return place.descend statement
  else if ← consume (Token.isOperator .sibling) then
    return place.add statement
  else
    return (place.add statement).climbs (← passWhile (Token.isOperator .climb))

/-- Read the token that ends a group and what may follow it. -/
def groupEnd : Reading Token (Option Repeat) := do
  if (← next?).any (Token.isBracket .group false) then repeater else return none

/-- Read statements at a place inside of open groups. -/
def statementsFrom (jsx : Bool) (size : Nat) (place : Place) (outer : List Place) :
    Nat → Reading Token (List Statement)
  | 0 => exhausted
  | steps + 1 => do
    match ← element jsx size with
    | some head => statementsFrom jsx size (← put place (.element head [])) outer steps
    | none =>
      if ← consume (Token.isBracket .group true) then
        statementsFrom jsx size .top (place :: outer) steps
      else
        match outer with
        | [] => return place.close
        | around :: outer =>
          let statement := Statement.group place.close (← groupEnd)
          statementsFrom jsx size (← put around statement) outer steps

/-- Read all statements of an abbreviation of `size` characters. A group takes one step where it
begins and one where it ends, which may be behind the last token. -/
def statements (jsx : Bool) (size : Nat) : Reading Token (List Statement) := do
  let found ← bounded fun steps => statementsFrom jsx size .top [] (2 * steps)
  match ← peek? with
  | none => return found
  | some _ => refuse Token.span size .unexpectedCharacter

/-! ### What the programs find -/

section

variable {tokens left rest : List Token}

/-- A statement is put at its place, and the operator behind it is read. -/
theorem run_put (place : Place) (statement : Statement) (within : left <:+ tokens) (start : Nat) :
    (put place statement).run (facing tokens start left) =
      pure ((place.put statement left).1, facing tokens start (place.put statement left).2) := by
  rw [put]
  cases left with
  | nil =>
    rw [run_ifConsume_nil, run_ifConsume_nil, run_bind, run_passWhile _ within]
    rfl
  | cons token rest =>
    rw [run_ifConsume _ _ _ within, run_ifConsume _ _ _ within, Place.put]
    split
    · rfl
    · split
      · rfl
      · rw [run_bind, run_passWhile _ within]
        rfl

/-- The end of a group, which the end of the abbreviation may stand for. -/
def readEnd : List Token → Option Repeat × List Token
  | [] => (none, [])
  | token :: rest => readGroupEnd token rest

/-- The token that ends a group is passed over, whatever it is. -/
theorem run_groupEnd (within : left <:+ tokens) (start : Nat) :
    groupEnd.run (facing tokens start left) =
      pure ((readEnd left).1, facing tokens start (readEnd left).2) := by
  rw [groupEnd, run_bind, run_next? within, pure_bind]
  cases left with
  | nil => rfl
  | cons token rest =>
    rw [readEnd, readGroupEnd]
    dsimp only [List.head?_cons, Option.any_some, List.tail_cons]
    by_cases isClosing : token.isBracket .group false
    · simp only [isClosing, if_true]
      exact run_repeater ((List.suffix_cons token rest).trans within) start
    · simp only [isClosing, Bool.false_eq_true, if_false]
      rfl

/-- The end of a group is read from the front of the tokens. -/
theorem readEnd_suffix (left : List Token) : (readEnd left).2 <:+ left := by
  cases left with
  | nil => exact List.suffix_rfl
  | cons token rest => exact (readGroupEnd_suffix token rest).trans (List.suffix_cons token rest)

/-- At the end no element begins. -/
theorem readHead_nil (jsx : Bool) : readHead jsx [] = .ok none := by
  rw [readHead, readName]
  simp [extendHead, Head.isEmpty, Head.empty]

/-- What is done where an element begins. -/
theorem run_statementsFrom_element (jsx : Bool) (size steps : Nat) (place : Place)
    (outer : List Place) {head : Head} (within : left <:+ tokens) (start : Nat)
    (found : readHead jsx left = .ok (some (head, rest))) :
    ∃ behind, (statementsFrom jsx size place outer (steps + 1)).run (facing tokens start left) =
      (statementsFrom jsx size (place.put (.element head []) rest).1 outer steps).run
        (facing tokens behind (place.put (.element head []) rest).2) := by
  obtain ⟨behind, read⟩ := run_element jsx size within start
  rw [statementsFrom.eq_def]
  dsimp only
  rw [run_bind, read, found]
  simp only [leaving?, pure_bind]
  rw [run_bind, run_put _ _ ((readHead_suffix found).trans within)]
  exact ⟨behind, rfl⟩

/-- What is done where no element begins: a group is opened, or the innermost one is closed. -/
theorem run_statementsFrom_bare (jsx : Bool) (size steps : Nat) (place : Place)
    (outer : List Place) (within : left <:+ tokens) (start : Nat)
    (nothing : readHead jsx left = .ok none) :
    ∃ behind, (statementsFrom jsx size place outer (steps + 1)).run (facing tokens start left) =
      if left.head?.any (Token.isBracket .group true) then
        (statementsFrom jsx size .top (place :: outer) steps).run (facing tokens behind left.tail)
      else
        match outer with
        | [] => pure (place.close, facing tokens behind left)
        | around :: outer =>
          let next := around.put (.group place.close (readEnd left).1) (readEnd left).2
          (statementsFrom jsx size next.1 outer steps).run (facing tokens behind next.2) := by
  obtain ⟨behind, read⟩ := run_element jsx size within start
  refine ⟨behind, ?_⟩
  rw [statementsFrom.eq_def]
  dsimp only
  rw [run_bind, read, nothing]
  simp only [leaving?, pure_bind]
  rw [run_bind, run_consume _ within, pure_bind]
  dsimp only
  split
  · rfl
  · cases outer with
    | nil => rfl
    | cons around outer =>
      rw [run_bind, run_groupEnd within, pure_bind, run_bind,
        run_put _ _ ((readEnd_suffix left).trans within)]
      rfl

/-- Statements are read as far as they go. -/
theorem run_statementsFrom {steps : Nat} (jsx : Bool) (size : Nat) (place : Place)
    (outer : List Place) (within : left <:+ tokens) (start : Nat)
    (enough : 2 * left.length + outer.length < steps) :
    ∃ behind, (statementsFrom jsx size place outer steps).run (facing tokens start left) =
      leaving tokens behind (readStatements jsx place outer left) := by
  -- Opening a group takes one token and leaves one group more to be closed, and closing it may
  -- take none, so that it is twice the tokens and the open groups that get fewer.
  fun_induction readStatements jsx place outer left generalizing start steps with
  | case1 place =>
    obtain ⟨steps, rfl, -⟩ := exists_fewer enough
    exact run_statementsFrom_bare jsx size steps place [] within start (readHead_nil jsx)
  | case2 place around outer ih =>
    obtain ⟨steps, rfl, fewer⟩ := exists_fewer enough
    obtain ⟨behind, read⟩ :=
      run_statementsFrom_bare jsx size steps place (around :: outer) within start (readHead_nil jsx)
    rw [read]
    exact ih within behind fewer
  | case3 place outer token rest notice failed =>
    obtain ⟨steps, rfl, -⟩ := exists_fewer enough
    obtain ⟨behind, read⟩ := run_element jsx size within start
    rw [statementsFrom.eq_def]
    dsimp only
    rw [run_bind, read, failed]
    exact ⟨0, rfl⟩
  | case4 place outer token rest head behindHead found ih =>
    obtain ⟨steps, rfl, fewer⟩ := exists_fewer enough
    have inner := (readHead_suffix found).trans within
    have shorter := readHead_length found
    have behindPut := Place.put_length place (.element head []) behindHead
    obtain ⟨behind, read⟩ :=
      run_statementsFrom_element jsx size steps place outer within start found
    rw [read]
    exact ih ((place.put_suffix _ behindHead).trans inner) behind (by omega)
  | case5 place outer token rest nothing isOpening ih =>
    obtain ⟨steps, rfl, fewer⟩ := exists_fewer enough
    obtain ⟨behind, read⟩ := run_statementsFrom_bare jsx size steps place outer within start nothing
    rw [read, List.head?_cons, Option.any_some, if_pos isOpening]
    refine ih ((List.suffix_cons token rest).trans within) behind ?_
    simp only [List.length_cons] at fewer ⊢
    omega
  | case6 place token rest nothing notOpening =>
    obtain ⟨steps, rfl, -⟩ := exists_fewer enough
    obtain ⟨behind, read⟩ := run_statementsFrom_bare jsx size steps place [] within start nothing
    rw [read, List.head?_cons, Option.any_some, if_neg notOpening]
    exact ⟨behind, rfl⟩
  | case7 place token rest nothing notOpening around outer statement =>
    rename_i ih
    obtain ⟨steps, rfl, fewer⟩ := exists_fewer enough
    have behindEnd := (readEnd_suffix (token :: rest)).trans within
    have ending := readGroupEnd_length token rest
    have behindPut := around.put_length statement (readGroupEnd token rest).2
    obtain ⟨behind, read⟩ :=
      run_statementsFrom_bare jsx size steps place (around :: outer) within start nothing
    rw [read, List.head?_cons, Option.any_some, if_neg notOpening]
    refine ih ((around.put_suffix statement _).trans behindEnd) behind ?_
    simp only [List.length_cons] at fewer
    omega

end

/-- The statements of an abbreviation are read without an index out of range, and they are those of
the reader. -/
theorem outcome_statements (jsx : Bool) (size : Nat) (tokens : List Token) :
    (statements jsx size).outcome tokens = some (statementsOfTokens jsx tokens) := by
  obtain ⟨behind, read⟩ := run_statementsFrom jsx size .top [] (List.suffix_refl tokens) 0
    (Nat.mul_lt_mul_of_pos_left (Nat.lt_succ_self tokens.length) Nat.two_pos)
  refine outcome_eq (facing tokens behind []) ?_
  rw [statements, run_bind, run_bounded, read, statementsOfTokens]
  cases found : readStatements jsx .top [] tokens with
  | error notice => rfl
  | ok answer =>
    obtain ⟨written, rest⟩ := answer
    simp only [leaving, pure_bind]
    cases rest with
    | nil =>
      rw [run_bind, run_peek? List.nil_suffix]
      rfl
    | cons token rest =>
      have within := readStatements_suffix found
      rw [run_bind, run_peek? within, pure_bind]
      exact run_refuse Token.span size .unexpectedCharacter within behind

end Shorthand.Markup.Reader
