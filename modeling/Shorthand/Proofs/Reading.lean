import Shorthand.Proofs.Scanning

/-!
# Readers that check their indices

The readers are given what is left of a list of tokens and hand on what they leave. Here the same
work is done with indices into the whole list: a read position that is moved forwards and back, and
a mark where a range begins. A position behind the end, an index outside of the list and a range
that leaves it have no outcome.
-/

namespace Shorthand

/-- A read position and a mark in a list of tokens. -/
structure Cursor (α : Type) where
  tokens : List α
  start : Nat
  position : Nat

/-- A program that moves a cursor. -/
abbrev Reading (α : Type) := StateT (Cursor α) Checked

namespace Reading

variable {α β : Type}

/-- The next token. -/
def peek? : Reading α (Option α) := return (← get).tokens[(← get).position]?

/-- The token behind the next one. -/
def following? : Reading α (Option α) := return (← get).tokens[(← get).position + 1]?

/-- The token before the read position. -/
def previous? : Reading α (Option α) := return (← get).tokens[(← get).position - 1]?

/-- The token at an index, which has to be in range. -/
def tokenAt (index : Nat) : Reading α α := fun cursor =>
  match cursor.tokens[index]? with
  | some token => pure (token, cursor)
  | none => Checked.outOfRange

/-- The read position. -/
def position : Reading α Nat := return (← get).position

/-- Move the read position, not behind the end. -/
def seek (position : Nat) : Reading α Unit := fun cursor =>
  if position ≤ cursor.tokens.length then pure ((), { cursor with position })
  else Checked.outOfRange

/-- Move the read position behind the next token. -/
def advance : Reading α Unit := do seek ((← position) + 1)

/-- Read one token. -/
def next? : Reading α (Option α) := do
  match ← peek? with
  | none => return none
  | some token =>
    advance
    return some token

/-- Read one token if it satisfies the test, and tell whether it did. -/
def consume (test : α → Bool) : Reading α Bool := do
  if (← peek?).any test then
    advance
    return true
  else
    return false

/-- No step is left for a loop. -/
def exhausted : Reading α β := fun _ => Checked.outOfRange

/-- Run a loop with one step more than there are tokens. -/
def bounded (loop : Nat → Reading α β) : Reading α β := do loop ((← get).tokens.length + 1)

/-- Read tokens while they satisfy the test and steps are left, and count them. -/
def passFrom (test : α → Bool) : Nat → Reading α Nat
  | 0 => exhausted
  | steps + 1 => do
    if ← consume test then return (← passFrom test steps) + 1 else return 0

/-- Read tokens while they satisfy the test, and count them. -/
def passWhile (test : α → Bool) : Reading α Nat := bounded (passFrom test)

/-- Put the mark at a position. -/
def markAt (start : Nat) : Reading α Unit := modify fun cursor => { cursor with start }

/-- The tokens of a range, which has to end inside of the list. -/
def slice (first last : Nat) : Reading α (List α) := fun cursor =>
  if last ≤ cursor.tokens.length then
    pure ((cursor.tokens.take last).drop (min first last), cursor)
  else
    Checked.outOfRange

/-- The tokens from the mark to the read position. -/
def marked : Reading α (List α) := do slice (← get).start (← position)

/-- Refuse the next token, or the end of a source of `size` characters. -/
def refuse (span : α → Span) (size : Nat) (cause : Fault.Cause) : Reading α β := do
  match ← peek? with
  | some token => throw ⟨cause, (span token).start⟩
  | none => throw ⟨.unexpectedEnd, size⟩

/-- What a reader of a list of tokens comes to; none if it leaves the list. -/
def outcome (reading : Reading α β) (tokens : List α) : Option (Except Notice β) :=
  (reading.run' ⟨tokens, 0, 0⟩).run

/-! ### Cursors in front of what is left -/

/-- The position of what is left of a list. -/
def positionOf (tokens left : List α) : Nat := tokens.length - left.length

/-- The cursor in front of what is left of a list. -/
def facing (tokens : List α) (start : Nat) (left : List α) : Cursor α :=
  ⟨tokens, start, positionOf tokens left⟩

/-- The answer of a reader of what is left, as the outcome of a program. -/
def leaving (tokens : List α) (start : Nat) :
    Except Notice (β × List α) → Checked (β × Cursor α)
  | .error notice => throw notice
  | .ok (found, left) => pure (found, facing tokens start left)

/-- The answer of a reader of what is left that may find nothing, as the outcome of a program. -/
def leaving? (tokens : List α) (start : Nat) (left : List α) :
    Except Notice (Option (β × List α)) → Checked (Option β × Cursor α)
  | .error notice => throw notice
  | .ok none => pure (none, facing tokens start left)
  | .ok (some (found, rest)) => pure (some found, facing tokens start rest)

section

variable {tokens left rest : List α} {token : α}

/-- No position is behind the end of the list. -/
theorem positionOf_le (tokens left : List α) : positionOf tokens left ≤ tokens.length :=
  Nat.sub_le tokens.length left.length

/-- What is left of a list stands behind its position. -/
theorem drop_positionOf (within : left <:+ tokens) :
    tokens.drop (positionOf tokens left) = left :=
  (List.suffix_iff_eq_drop.mp within).symm

/-- Behind some tokens the position is as much further. -/
theorem positionOf_append {taken : List α} (within : taken ++ rest <:+ tokens) :
    positionOf tokens rest = positionOf tokens (taken ++ rest) + taken.length := by
  have fits := within.length_le
  rw [List.length_append] at fits
  simp only [positionOf, List.length_append]
  omega

/-- Behind one token the position is the next one. -/
theorem positionOf_cons (within : token :: rest <:+ tokens) :
    positionOf tokens rest = positionOf tokens (token :: rest) + 1 :=
  positionOf_append (show [token] ++ rest <:+ tokens from within)

/-- The tokens behind a position are those that are left. -/
theorem getElem?_positionOf (within : left <:+ tokens) (more : Nat) :
    tokens[positionOf tokens left + more]? = left[more]? := by
  rw [← List.getElem?_drop, drop_positionOf within]

/-- A reader goes on where the one before it has stopped. -/
theorem run_bind (first : Reading α β) {γ : Type} (behind : β → Reading α γ) (cursor : Cursor α) :
    (first >>= behind).run cursor =
      first.run cursor >>= fun outcome => (behind outcome.1).run outcome.2 := rfl

/-- A look at the next token moves nothing. -/
theorem run_peek? (within : left <:+ tokens) (start : Nat) :
    peek?.run (facing tokens start left) = pure (left.head?, facing tokens start left) := by
  rw [List.head?_eq_getElem?, ← getElem?_positionOf within]
  rfl

/-- The token behind the next one is the second of what is left. -/
theorem run_following? (within : left <:+ tokens) (start : Nat) :
    following?.run (facing tokens start left) = pure (left[1]?, facing tokens start left) := by
  rw [← getElem?_positionOf within]
  rfl

/-- The token in front is the one that has just been passed. -/
theorem run_previous? (within : token :: rest <:+ tokens) (start : Nat) :
    previous?.run (facing tokens start rest) = pure (some token, facing tokens start rest) := by
  have found : tokens[positionOf tokens rest - 1]? = some token := by
    rw [positionOf_cons within]
    exact getElem?_positionOf within 0
  rw [← found]
  rfl

/-- The read position is the place of what is left. -/
theorem run_position (tokens left : List α) (start : Nat) :
    position.run (facing tokens start left) =
      pure (positionOf tokens left, facing tokens start left) := rfl

/-- The mark is put where it was before. -/
theorem run_markAt (tokens left : List α) (start mark : Nat) :
    (markAt start).run (facing tokens mark left) = pure ((), facing tokens start left) := rfl

/-- The token at a position is in range if something is left there. -/
theorem run_tokenAt (within : token :: rest <:+ tokens) (start : Nat) (left : List α) :
    (tokenAt (positionOf tokens (token :: rest))).run (facing tokens start left) =
      pure (token, facing tokens start left) := by
  have here := getElem?_positionOf within 0
  simp only [Nat.add_zero, List.getElem?_cons_zero] at here
  simp only [tokenAt, StateT.run, facing, here]

/-- Every place in the list can be gone back or forward to. -/
theorem run_seek (tokens : List α) (start : Nat) (left target : List α) :
    (seek (positionOf tokens target)).run (facing tokens start left) =
      pure ((), facing tokens start target) :=
  if_pos (positionOf_le tokens target)

/-- One token is passed over if there is one. -/
theorem run_advance (within : token :: rest <:+ tokens) (start : Nat) :
    advance.run (facing tokens start (token :: rest)) = pure ((), facing tokens start rest) := by
  rw [advance, run_bind, run_position, pure_bind, ← positionOf_cons within]
  exact run_seek tokens start (token :: rest) rest

/-- One token is read if there is one. -/
theorem run_next? (within : left <:+ tokens) (start : Nat) :
    next?.run (facing tokens start left) = pure (left.head?, facing tokens start left.tail) := by
  rw [next?, run_bind, run_peek? within, pure_bind]
  cases left with
  | nil => rfl
  | cons token rest =>
    dsimp only [List.head?_cons]
    rw [run_bind, run_advance within, pure_bind]
    rfl

/-- One token is passed over if it satisfies the test. -/
theorem run_consume (test : α → Bool) (within : left <:+ tokens) (start : Nat) :
    (consume test).run (facing tokens start left) =
      pure (left.head?.any test,
        facing tokens start (if left.head?.any test then left.tail else left)) := by
  rw [consume, run_bind, run_peek? within, pure_bind]
  dsimp only
  cases left with
  | nil => rfl
  | cons token rest =>
    cases passes : test token with
    | true =>
      simp only [List.head?_cons, Option.any_some, passes, if_true]
      rw [run_bind, run_advance within, pure_bind]
      rfl
    | false =>
      simp only [List.head?_cons, Option.any_some, passes]
      rfl

/-- What is done behind a token that satisfies the test, and else. -/
theorem run_ifConsume (test : α → Bool) (first second : Reading α β)
    (within : token :: rest <:+ tokens) (start : Nat) :
    (consume test >>= fun taken => if taken then first else second).run
        (facing tokens start (token :: rest)) =
      if test token then first.run (facing tokens start rest)
      else second.run (facing tokens start (token :: rest)) := by
  rw [run_bind, run_consume test within, pure_bind]
  simp only [List.head?_cons, Option.any_some, List.tail_cons]
  by_cases passes : test token <;> simp only [passes, Bool.false_eq_true, if_true, if_false]

/-- At the end no token satisfies a test. -/
theorem run_ifConsume_nil (test : α → Bool) (first second : Reading α β) (tokens : List α)
    (start : Nat) :
    (consume test >>= fun taken => if taken then first else second).run (facing tokens start []) =
      second.run (facing tokens start []) := by
  rw [run_bind, run_consume test List.nil_suffix, pure_bind]
  rfl

/-- A loop with more steps than there is to read makes one and has enough left. -/
theorem exists_fewer {count steps : Nat} (enough : count < steps) :
    ∃ fewer, steps = fewer + 1 ∧ count ≤ fewer :=
  ⟨steps - 1, by omega, by omega⟩

/-- Less is left than there are tokens, and one. -/
theorem length_lt (within : left <:+ tokens) : left.length < tokens.length + 1 :=
  Nat.lt_succ_of_le within.length_le

/-- A loop gets one step more than there are tokens. -/
theorem run_bounded (loop : Nat → Reading α β) (tokens left : List α) (start : Nat) :
    (bounded loop).run (facing tokens start left) =
      (loop (tokens.length + 1)).run (facing tokens start left) := rfl

/-- Tokens are passed over as long as they satisfy the test. -/
theorem run_passFrom {steps : Nat} (test : α → Bool) (within : left <:+ tokens) (start : Nat)
    (enough : left.length < steps) :
    (passFrom test steps).run (facing tokens start left) =
      pure ((left.takeWhile test).length, facing tokens start (left.dropWhile test)) := by
  induction steps generalizing left with
  | zero => exact absurd enough (Nat.not_lt_zero _)
  | succ steps ih =>
    rw [passFrom, run_bind, run_consume test within, pure_bind]
    cases left with
    | nil => rfl
    | cons token rest =>
      cases passes : test token with
      | false =>
        simp only [List.head?_cons, Option.any_some, passes, List.takeWhile_cons,
          List.dropWhile_cons]
        rfl
      | true =>
        simp only [List.head?_cons, Option.any_some, passes, List.takeWhile_cons,
          List.dropWhile_cons, if_true, List.tail_cons, List.length_cons]
        rw [run_bind, ih ((List.suffix_cons token rest).trans within)
          (Nat.lt_of_succ_lt_succ enough), pure_bind]
        rfl

/-- The tokens that satisfy the test are passed over and counted. -/
theorem run_passWhile (test : α → Bool) (within : left <:+ tokens) (start : Nat) :
    (passWhile test).run (facing tokens start left) =
      pure ((left.takeWhile test).length, facing tokens start (left.dropWhile test)) :=
  run_passFrom test within start (length_lt within)

/-- The tokens from a place to a later one. -/
theorem run_slice {taken : List α} (within : taken ++ rest <:+ tokens) (start : Nat)
    (left : List α) :
    (slice (positionOf tokens (taken ++ rest)) (positionOf tokens rest)).run
        (facing tokens start left) =
      pure (taken, facing tokens start left) := by
  have range : (tokens.take (positionOf tokens rest)).drop
      (min (positionOf tokens (taken ++ rest)) (positionOf tokens rest)) = taken := by
    rw [positionOf_append within, Nat.min_eq_left (Nat.le_add_right _ _), List.drop_take,
      Nat.add_sub_cancel_left, drop_positionOf within, List.take_left]
  refine (if_pos (positionOf_le tokens rest)).trans ?_
  exact congrArg (fun found => pure (found, facing tokens start left)) range

/-- The tokens that have been read since the mark was put. -/
theorem run_marked {taken : List α} (whole : taken ++ rest = left) (within : left <:+ tokens) :
    marked.run (facing tokens (positionOf tokens left) rest) =
      pure (taken, facing tokens (positionOf tokens left) rest) := by
  subst whole
  exact run_slice within _ rest

/-- The next token is what is refused. -/
theorem run_refuse (span : α → Span) (size : Nat) (cause : Fault.Cause)
    (within : token :: rest <:+ tokens) (start : Nat) :
    (refuse span size cause : Reading α β).run (facing tokens start (token :: rest)) =
      throw ⟨cause, (span token).start⟩ := by
  rw [refuse, run_bind, run_peek? within]
  rfl

/-- Behind the last token it is the end that is unexpected. -/
theorem run_refuse_nil (span : α → Span) (size : Nat) (cause : Fault.Cause) (tokens : List α)
    (start : Nat) :
    (refuse span size cause : Reading α β).run (facing tokens start []) =
      throw ⟨.unexpectedEnd, size⟩ := by
  rw [refuse, run_bind, run_peek? List.nil_suffix]
  rfl

/-- A reader that runs to an answer comes to it. -/
theorem outcome_eq {reading : Reading α β} {answer : Except Notice β} (behind : Cursor α)
    (ran : reading.run (facing tokens 0 tokens) = .inRange (answer.map (·, behind))) :
    reading.outcome tokens = some answer := by
  have first : reading.run' ⟨tokens, 0, 0⟩ = Prod.fst <$> reading.run (facing tokens 0 tokens) := by
    rw [facing, positionOf, Nat.sub_self]
    rfl
  rw [outcome, first, ran]
  cases answer <;> rfl

end

end Reading

end Shorthand
