import Shorthand.Proofs.Span
import Shorthand.Window

/-!
# Scanners that check their positions

The lexers are told what is left of a source and answer with the widths of their pieces. Here the
same work is done with a window whose read position is moved about, forwards and back, and every
move is checked: one that leads out of the window has no outcome. A scanner `Finds` something at a
place of a source if no check fails there.
-/

namespace Shorthand

/-- The outcome of a program that checks its positions: none if one of them is out of range or a
loop goes on too long, and else what the program notices or finds. -/
abbrev Checked := ExceptT Notice Option

namespace Checked

variable {α β : Type}

/-- A position is out of range, or no step is left for a loop. -/
def outOfRange : Checked α := (none : Option (Except Notice α))

/-- Everything is in range. -/
def inRange (answer : Except Notice α) : Checked α := (some answer : Option (Except Notice α))

/-- Behind a refusal nothing is done. -/
theorem throw_bind (notice : Notice) (next : α → Checked β) :
    (throw notice : Checked α) >>= next = throw notice := rfl

end Checked

/-- A program that moves the read position of a window. -/
abbrev Scan := StateT Window Checked

namespace Scan

variable {α β Kind : Type}

/-- Use the window, and check where it is left. -/
def act (change : Window → α × Window) : Scan α := fun window =>
  let outcome := change window
  if outcome.2.position ≤ outcome.2.stop then pure outcome else Checked.outOfRange

/-- The next character. -/
def peek? : Scan (Option Char) := return (← get).peek?

/-- The read position. -/
def position : Scan Nat := return (← get).position

/-- The whole source. -/
def characters : Scan (List Char) := return (← get).source

/-- Put the mark at the read position. -/
def mark : Scan Unit := modify Window.mark

/-- Put the mark at a position. -/
def markAt (start : Nat) : Scan Unit := modify fun window => { window with start }

/-- The character at a position. -/
def charAt? (offset : Nat) : Scan (Option Char) := return (← get).charAt? offset

/-- The character before the read position. -/
def previous? : Scan (Option Char) := do
  let here ← position
  if here = 0 then return none else charAt? (here - 1)

/-- The characters between two positions. -/
def between (first last : Nat) : Scan String := return (← get).between first last

/-- The characters between the mark and the read position. -/
def current : Scan String := return (← get).current

/-- Move the read position. -/
def seek (position : Nat) : Scan Unit := act fun window => ((), window.seek position)

/-- Move the read position behind the next character. -/
def advance : Scan Unit := act fun window => ((), window.seek (window.position + 1))

/-- Move the read position back. -/
def backUp (count : Nat) : Scan Unit := act fun window => ((), window.backUp count)

/-- Read one character. -/
def next : Scan (Option Char) := act Window.next

/-- Read one character if it satisfies the test, and tell whether it did. -/
def eatIf (test : Char → Bool) : Scan Bool := act (·.eatIf test)

/-- Read a character, and tell whether it was there. -/
def eat (c : Char) : Scan Bool := eatIf (· == c)

/-- Read characters while they satisfy the test, and tell whether any did. -/
def eatWhile (test : Char → Bool) : Scan Bool := act (·.eatWhile test)

/-- Read one character and then another one, and tell whether both were there. -/
def eatThen (first second : Char) : Scan Bool := do
  if ← eat first then eat second else return false

/-- Read two characters, or go back if they are not both there. -/
def eatBoth (first second : Char) : Scan Bool := do
  let start ← position
  if ← eatThen first second then
    return true
  else
    seek start
    return false

/-- Read one character that means something by itself. -/
def single (kind? : Char → Option Kind) : Scan (Option (Kind × Span)) := do
  match (← peek?).bind kind? with
  | none => return none
  | some kind =>
    let start ← position
    advance
    return some (kind, ⟨start, ← position⟩)

/-- No step is left for a loop. -/
def exhausted : Scan α := fun _ => Checked.outOfRange

/-- Run a loop with one step more than the source has characters. -/
def bounded (loop : Nat → Scan α) : Scan α := do loop ((← characters).length + 1)

/-- What a scanner of a whole source comes to; none if it leaves the source. -/
def outcome (scan : Scan α) (source : String) : Option (Except Fault α) :=
  (scan.run' (.ofSource source.toList)).run.map (·.mapError (Notice.within source))

/-- What the first scanner finds, or else the second one. -/
def orElse (first second : Scan (Option α)) : Scan (Option α) := do
  match ← first with
  | some found => return some found
  | none => second

/-! ### Windows on a whole source -/

/-- The window on a whole source at a read position. -/
def view (source : List Char) (mark position : Nat) : Window :=
  ⟨source, mark, position, source.length⟩

section Moves

variable {source input : List Char} {offset : Nat}

/-- What is unread of a view is the rest of the source. -/
theorem unread_view (remains : Remains source offset input) (mark : Nat) :
    (view source mark offset).unread = input := by
  rw [Window.unread, view, List.take_length, remains.left]

/-- The next character of a view is the first of the rest. -/
theorem peek?_view (remains : Remains source offset input) (mark : Nat) :
    (view source mark offset).peek? = input.head? := by
  rw [Window.peek?, Window.charAt?, view, List.take_length, ← remains.left, List.head?_drop]

/-- The characters of a view from its read position are the first of the rest. -/
theorem between_view (remains : Remains source offset input) (mark position width : Nat) :
    (view source mark position).between offset (offset + width) =
      String.ofList (input.take width) := by
  rw [Window.between, view, List.drop_take, Nat.add_sub_cancel_left, remains.left]

/-- As many characters as satisfy the test are those that do. -/
theorem take_length_takeWhile (test : Char → Bool) (input : List Char) :
    input.take (input.takeWhile test).length = input.takeWhile test :=
  (List.prefix_iff_eq_take.mp (List.takeWhile_prefix test)).symm

/-- An action that ends inside of the source passes the check. -/
theorem run_act {change : Window → α × Window} {window : Window}
    (inside : (change window).2.position ≤ (change window).2.stop) :
    (act change).run window = pure (change window) :=
  if_pos inside

/-- A scanner goes on where the one before it has stopped. -/
theorem run_bind (first : Scan α) (behind : α → Scan β) (window : Window) :
    (first >>= behind).run window =
      first.run window >>= fun outcome => (behind outcome.1).run outcome.2 := rfl

/-- A look at the next character moves nothing. -/
theorem run_peek? (remains : Remains source offset input) (mark : Nat) :
    peek?.run (view source mark offset) = pure (input.head?, view source mark offset) := by
  rw [← peek?_view remains mark]
  rfl

/-- A loop gets one step more than the source has characters. -/
theorem run_bounded (loop : Nat → Scan α) (source : List Char) (mark offset : Nat) :
    (bounded loop).run (view source mark offset) =
      (loop (source.length + 1)).run (view source mark offset) := rfl

/-- The read position is the place of the view. -/
theorem run_position (source : List Char) (mark offset : Nat) :
    position.run (view source mark offset) = pure (offset, view source mark offset) := rfl

/-- The mark is put at the read position. -/
theorem run_mark (source : List Char) (before offset : Nat) :
    mark.run (view source before offset) = pure ((), view source offset offset) := rfl

/-- The mark is put where it was before. -/
theorem run_markAt (source : List Char) (start mark offset : Nat) :
    (markAt start).run (view source mark offset) = pure ((), view source start offset) := rfl

/-- A character of the source is found at its place. -/
theorem run_charAt? (source : List Char) (mark offset place : Nat) :
    (charAt? place).run (view source mark offset) =
      pure (source[place]?, view source mark offset) := by
  have same : (view source mark offset).charAt? place = source[place]? := by
    rw [Window.charAt?, view, List.take_length]
  rw [← same]
  rfl

/-- The character before a position. -/
def before (source : List Char) (offset : Nat) : Option Char :=
  if offset = 0 then none else source[offset - 1]?

/-- Behind some characters the last of them is the one before. -/
theorem before_behind (remains : Remains source offset input) (more : Nat) :
    before source (offset + (more + 1)) = input[more]? := by
  rw [before, if_neg (by omega), ← remains.left, List.getElem?_drop]
  rfl

/-- The character in front is the last one that was read. -/
theorem run_previous? (source : List Char) (mark offset : Nat) :
    previous?.run (view source mark offset) =
      pure (before source offset, view source mark offset) := by
  rw [previous?, run_bind, run_position, pure_bind, before]
  dsimp only
  split
  · rfl
  · exact run_charAt? source mark offset (offset - 1)

/-- A range that is unread has its characters. -/
theorem run_between (remains : Remains source offset input) (mark position width : Nat) :
    (between offset (offset + width)).run (view source mark position) =
      pure (String.ofList (input.take width), view source mark position) := by
  rw [← between_view remains mark position]
  rfl

/-- Behind a mark the characters that have been read since are at hand. -/
theorem run_current (remains : Remains source offset input) (width : Nat) :
    current.run (view source offset (offset + width)) =
      pure (String.ofList (input.take width), view source offset (offset + width)) :=
  run_between remains offset (offset + width) width

/-- Every place of the source can be gone back or forward to. -/
theorem run_seek {source : List Char} {position : Nat} (inside : position ≤ source.length)
    (mark offset : Nat) :
    (seek position).run (view source mark offset) = pure ((), view source mark position) :=
  run_act inside

/-- The read position goes back, but not in front of the source. -/
theorem run_backUp (remains : Remains source offset input) (mark count : Nat) :
    (backUp count).run (view source mark offset) = pure ((), view source mark (offset - count)) :=
  run_act (Nat.le_trans (Nat.sub_le offset count) remains.bounded)

/-- One character is passed over if there is one. -/
theorem run_advance {c : Char} {rest : List Char} (remains : Remains source offset (c :: rest))
    (mark : Nat) :
    advance.run (view source mark offset) = pure ((), view source mark (offset + 1)) :=
  run_act remains.behind_cons.bounded

/-- A character is passed over if one is left. -/
theorem run_next (remains : Remains source offset input) (mark : Nat) :
    next.run (view source mark offset) =
      pure (input.head?, view source mark (offset + (input.take 1).length)) := by
  have same : (view source mark offset).next =
      (input.head?, view source mark (offset + (input.take 1).length)) := by
    rw [Window.next, peek?_view remains]
    cases input <;> rfl
  rw [← same]
  refine run_act ?_
  rw [same]
  exact (remains.drop (List.take_sublist 1 input).length_le).bounded

/-- A character that satisfies the test is passed over. -/
theorem run_eatIf (test : Char → Bool) (remains : Remains source offset input) (mark : Nat) :
    (eatIf test).run (view source mark offset) =
      pure (input.head?.any test,
        view source mark (if input.head?.any test then offset + 1 else offset)) := by
  have same : (view source mark offset).eatIf test = (input.head?.any test,
      view source mark (if input.head?.any test then offset + 1 else offset)) := by
    rw [Window.eatIf, peek?_view remains]
    cases input.head?.any test <;> rfl
  rw [← same]
  refine run_act ?_
  rw [same]
  cases input with
  | nil => exact remains.bounded
  | cons c rest =>
    have behind := remains.behind_cons.bounded
    simp only [view]
    split
    · exact behind
    · exact remains.bounded

/-- A dash is passed over if it stands in front. -/
theorem run_dash (remains : Remains source offset input) (mark : Nat) :
    let width := if input.head? == some '-' then 1 else 0
    (eat '-').run (view source mark offset) =
        pure (input.head? == some '-', view source mark (offset + width)) ∧
      Remains source (offset + width) (input.drop width) := by
  have readDash := run_eatIf (· == '-') remains mark
  rw [eat, readDash]
  cases input with
  | nil => exact ⟨rfl, remains⟩
  | cons c rest =>
    cases isDash : c == '-' with
    | true =>
      rw [eq_of_beq isDash]
      exact ⟨rfl, remains.behind_cons⟩
    | false =>
      have notHead : (some c == some '-') = false := isDash
      simp only [List.head?_cons, Option.any_some, isDash, notHead]
      exact ⟨rfl, remains⟩

/-- Characters that satisfy the test are passed over. -/
theorem run_eatWhile (test : Char → Bool) (remains : Remains source offset input) (mark : Nat) :
    (eatWhile test).run (view source mark offset) =
      pure ((input.takeWhile test).length != 0,
        view source mark (offset + (input.takeWhile test).length)) := by
  have same : (view source mark offset).eatWhile test = ((input.takeWhile test).length != 0,
      view source mark (offset + (input.takeWhile test).length)) := by
    rw [Window.eatWhile, unread_view remains]
    rfl
  rw [← same]
  refine run_act ?_
  rw [same]
  exact (remains.drop (List.takeWhile_sublist test).length_le).bounded

/-- Whether two characters stand in front. -/
def beginsWith (first second : Char) : List Char → Bool
  | c :: d :: _ => c == first && d == second
  | _ => false

/-- Two characters stand in front of what is behind them. -/
theorem beginsWith_self (first second : Char) (rest : List Char) :
    beginsWith first second (first :: second :: rest) = true := by
  simp [beginsWith]

/-- Where two characters stand in front, something is left behind them. -/
theorem eq_of_beginsWith {first second : Char} (begins : beginsWith first second input) :
    ∃ rest, input = first :: second :: rest := by
  cases input with
  | nil => cases begins
  | cons c behind =>
    cases behind with
    | nil => cases begins
    | cons d rest =>
      simp only [beginsWith, Bool.and_eq_true, beq_iff_eq] at begins
      exact ⟨rest, by rw [begins.1, begins.2]⟩

/-- Behind both characters two are passed over. -/
theorem run_eatThen (first second : Char) (remains : Remains source offset input) (mark : Nat) :
    ∃ reached, (eatThen first second).run (view source mark offset) =
        pure (beginsWith first second input, view source mark reached) ∧
      (beginsWith first second input → reached = offset + 2) := by
  have readFirst := run_eatIf (· == first) remains mark
  rw [eatThen, run_bind, eat, readFirst, pure_bind]
  dsimp only
  cases input with
  | nil => exact ⟨offset, rfl, nofun⟩
  | cons c rest =>
    have readSecond := run_eatIf (· == second) remains.behind_cons mark
    cases isFirst : c == first with
    | false =>
      have neither : beginsWith first second (c :: rest) = false := by
        cases rest <;> simp [beginsWith, isFirst]
      rw [neither]
      exact ⟨offset, by simp only [List.head?_cons, Option.any_some, isFirst]; rfl, nofun⟩
    | true =>
      simp only [List.head?_cons, Option.any_some, isFirst, if_true, eat, readSecond]
      cases rest with
      | nil => exact ⟨offset + 1, rfl, nofun⟩
      | cons d rest =>
        refine ⟨_, by simp only [beginsWith, isFirst, Bool.true_and]; rfl, fun isBoth => ?_⟩
        have isSecond : (d == second) = true := (Bool.and_eq_true_iff.mp isBoth).2
        rw [List.head?_cons, Option.any_some, isSecond, if_pos rfl]

/-- Two characters are passed over if both stand there, and none else. -/
theorem run_eatBoth (first second : Char) (remains : Remains source offset input) (mark : Nat) :
    (eatBoth first second).run (view source mark offset) =
      pure (beginsWith first second input,
        view source mark (if beginsWith first second input then offset + 2 else offset)) := by
  obtain ⟨reached, read, isReached⟩ := run_eatThen first second remains mark
  rw [eatBoth, run_bind, run_position, pure_bind, run_bind, read, pure_bind]
  dsimp only
  cases isBoth : beginsWith first second input with
  | true =>
    rw [isReached isBoth]
    rfl
  | false =>
    simp only [Bool.false_eq_true, if_false]
    rw [run_bind, run_seek remains.bounded]
    rfl

/-- A scanner that runs to an answer comes to it. -/
theorem outcome_eq {scan : Scan α} {source : String} {answer : Except Notice α} {left : Window}
    (ran : scan.run (view source.toList 0 0) = .inRange (answer.map (·, left))) :
    scan.outcome source = some (answer.mapError (Notice.within source)) := by
  have first : scan.run' (.ofSource source.toList) =
      Prod.fst <$> scan.run (view source.toList 0 0) := rfl
  rw [outcome, first, ran]
  cases answer <;> rfl

end Moves

/-! ### Recognisers -/

/-- What is found at a place of a source, and the window behind it. -/
def placed (source : List Char) (mark offset : Nat) :
    Option (Piece Kind) → Option (Kind × Span) × Window
  | none => (none, view source mark offset)
  | some piece =>
    (some (piece.kind, ⟨offset, offset + piece.width⟩), view source mark (offset + piece.width))

/-- At a place of a source a scanner finds this, and no check fails. -/
def Finds (scan : Scan (Option (Kind × Span))) (source : List Char) (offset : Nat)
    (found : Option (Piece Kind)) : Prop :=
  ∀ mark, ∃ left, scan.run (view source mark offset) = pure (placed source left offset found)

/-- A recogniser of single characters finds the one in front. -/
theorem single_finds (kind? : Char → Option Kind) {source input : List Char} {offset : Nat}
    (remains : Remains source offset input) :
    Finds (single kind?) source offset ((input.head?.bind kind?).map fun kind => ⟨kind, 1⟩) := by
  intro mark
  refine ⟨mark, ?_⟩
  rw [single, run_bind, run_peek? remains, pure_bind]
  cases input with
  | nil => rfl
  | cons c rest =>
    dsimp only [List.head?_cons, Option.bind_some]
    cases kind? c with
    | none => rfl
    | some kind =>
      dsimp only
      rw [run_bind, run_position, pure_bind, run_bind, run_advance remains]
      rfl

/-- A second recogniser is tried where the first one finds nothing. -/
theorem Finds.orElse {first second : Scan (Option (Kind × Span))} {source : List Char}
    {offset : Nat} {found other : Option (Piece Kind)} (finds : Finds first source offset found)
    (otherwise : Finds second source offset other) :
    Finds (orElse first second) source offset (found <|> other) := by
  intro mark
  obtain ⟨left, ran⟩ := finds mark
  rw [Scan.orElse, run_bind, ran, pure_bind]
  cases found with
  | some piece => exact ⟨left, rfl⟩
  | none => exact otherwise left

end Scan

end Shorthand
