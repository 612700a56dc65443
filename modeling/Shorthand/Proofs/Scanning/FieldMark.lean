import Shorthand.Proofs.FieldMark
import Shorthand.Proofs.Scanning

/-!
# Scanning field marks

A placeholder is scanned brace by brace, with the positions behind the braces that are still open
on a stack. The fault of one that is not closed is noticed back at the innermost of them.
-/

namespace Shorthand.Scan

/-- Go on through a placeholder to the brace that closes it or to the end, with the positions
behind the braces that are open. -/
def placeholderFrom (pending : List Nat) : Nat → Scan (List Nat)
  | 0 => exhausted
  | steps + 1 => do
    match ← peek? with
    | none => return pending
    | some _ =>
      if ← eat '{' then
        let opened ← position
        placeholderFrom (opened :: pending) steps
      else if ← eat '}' then
        match pending with
        | [] =>
          backUp 1
          return []
        | _ :: outer => placeholderFrom outer steps
      else
        advance
        placeholderFrom pending steps

/-- Read a placeholder. -/
def placeholder : Scan String := do
  mark
  match ← bounded (placeholderFrom []) with
  | innermost :: _ =>
    seek innermost
    throw ⟨.missingBrace, ← position⟩
  | [] => current

/-- Read the brace that closes a field. -/
def closed (start : Nat) (found : FieldMark) : Scan (Option (FieldMark × Span)) := do
  if ← eat '}' then
    return some (found, ⟨start, ← position⟩)
  else
    throw ⟨.missingBrace, ← position⟩

/-- Read the placeholder of a field and the brace that closes it. -/
def named (start : Nat) (index : Option Nat) : Scan (Option (FieldMark × Span)) := do
  let name ← placeholder
  closed start ⟨index, name⟩

/-- Read what follows the number of a field. -/
def indexed (start : Nat) (index : Option Nat) : Scan (Option (FieldMark × Span)) := do
  if ← eat ':' then named start index else closed start ⟨index, ""⟩

/-- Read the number and the name of a field behind its opening brace. -/
def body (start : Nat) : Scan (Option (FieldMark × Span)) := do
  mark
  if ← eatWhile CharClass.digit then
    indexed start (Digits.word? (← current).toList)
  else if (← peek?).any CharClass.letter then
    named start none
  else
    closed start ⟨none, ""⟩

/-- Read a field mark, if one begins here. -/
def fieldMark : Scan (Option (FieldMark × Span)) := do
  let start ← position
  if ← eatBoth '$' '{' then body start else return none

section

variable {source input : List Char} {offset : Nat}

/-- What is pending is told by distances from the beginning of the placeholder. -/
theorem run_placeholderFrom {start distance steps : Nat} (pending : List Nat)
    (remains : Remains source (start + distance) input) (mark : Nat)
    (enough : input.length < steps) :
    ∃ outer,
      (placeholderFrom (pending.map (start + ·)) steps).run (view source mark (start + distance)) =
      pure (match FieldMark.placeholderFrom distance pending input with
        | .ok stop => ([], view source mark (start + stop))
        | .error innermost => ((start + innermost) :: outer, view source mark source.length)) := by
  -- The scanner asks for either brace in turn, and a brace changes what is pending, so that the
  -- characters are told apart in the same order.
  induction steps generalizing input distance pending with
  | zero => exact absurd enough (Nat.not_lt_zero _)
  | succ steps ih =>
    rw [placeholderFrom.eq_def]
    dsimp only
    rw [run_bind, run_peek? remains, pure_bind]
    cases input with
    | nil =>
      cases pending with
      | nil => exact ⟨[], rfl⟩
      | cons innermost outer =>
        refine ⟨outer.map (start + ·), ?_⟩
        dsimp only [FieldMark.placeholderFrom, List.head?_nil, List.map_cons]
        rw [← remains.stop]
        rfl
    | cons c rest =>
      have behind : Remains source (start + (distance + 1)) rest := remains.behind_cons
      have fewer : rest.length < steps := Nat.lt_of_succ_lt_succ enough
      have opens := run_eatIf (· == '{') remains mark
      have closes := run_eatIf (· == '}') remains mark
      dsimp only [List.head?_cons]
      rw [run_bind, eat, opens, pure_bind, FieldMark.placeholderFrom.eq_def]
      dsimp only [List.head?_cons, Option.any_some]
      by_cases isOpen : c = '{'
      · subst isOpen
        obtain ⟨outer, read⟩ := ih ((distance + 1) :: pending) behind fewer
        refine ⟨outer, ?_⟩
        simpa [run_bind, run_position, Nat.add_assoc] using read
      · have notOpen : (c == '{') = false := beq_false_of_ne isOpen
        simp only [notOpen, if_neg isOpen, Bool.false_eq_true, if_false]
        rw [run_bind, eat, closes, pure_bind]
        dsimp only [List.head?_cons, Option.any_some]
        by_cases isClosing : c = '}'
        · subst isClosing
          cases pending with
          | nil =>
            -- the brace belongs to the field and is given back
            refine ⟨[], ?_⟩
            have back := run_backUp behind mark 1
            simpa [run_bind, Nat.add_assoc] using
              congrArg (· >>= fun outcome => pure ([], outcome.2)) back
          | cons innermost outer =>
            obtain ⟨left, read⟩ := ih outer behind fewer
            refine ⟨left, ?_⟩
            simpa [Nat.add_assoc] using read
        · have notClosing : (c == '}') = false := beq_false_of_ne isClosing
          simp only [notClosing, if_neg isClosing, Bool.false_eq_true, if_false]
          obtain ⟨left, read⟩ := ih pending behind fewer
          refine ⟨left, ?_⟩
          rw [run_bind, run_advance remains]
          simpa [Nat.add_assoc] using read

/-- The placeholder of a window, and where the window is left by it. -/
theorem placeholder_view (remains : Remains source offset input) (mark : Nat) :
    (view source mark offset).placeholder = match FieldMark.placeholder input with
      | .ok width => (.ok (String.ofList (input.take width)), view source offset (offset + width))
      | .error distance => (.error .missingBrace, view source offset (offset + distance)) := by
  rw [Window.placeholder, unread_view remains]
  cases scanned : FieldMark.placeholder input with
  | error distance => rfl
  | ok width =>
    dsimp only
    rw [← between_view remains offset (offset + width)]
    rfl

/-- Checking every position on the way, a placeholder is read as the window says. -/
theorem run_placeholder (remains : Remains source offset input) (mark : Nat) :
    placeholder.run (view source mark offset) = match (view source mark offset).placeholder with
      | (.ok name, after) => pure (name, after)
      | (.error cause, after) => throw ⟨cause, after.position⟩ := by
  have start : Remains source (offset + 0) input := remains
  obtain ⟨outer, read⟩ := run_placeholderFrom [] start offset remains.length_lt
  simp only [List.map_nil, Nat.add_zero] at read
  rw [placeholder_view remains, placeholder, run_bind, run_mark, pure_bind, run_bind, run_bounded,
    read, pure_bind]
  cases scanned : FieldMark.placeholder input with
  | error distance =>
    have inside := remains.drop (FieldMark.placeholder_le (.inr scanned))
    rw [FieldMark.placeholder] at scanned
    rw [scanned]
    dsimp only
    rw [run_bind, run_seek inside.bounded]
    rfl
  | ok width =>
    rw [FieldMark.placeholder] at scanned
    rw [scanned]
    exact run_current remains width

/-- Where a field that began at `start` is closed, or found not to be. -/
def settled (source : List Char) (mark start : Nat) :
    Except Nat (FieldMark × Nat) → Checked (Option (FieldMark × Span) × Window)
  | .error distance => throw ⟨.missingBrace, start + distance⟩
  | .ok (found, width) =>
    pure (some (found, ⟨start, start + width⟩), view source mark (start + width))

/-- A field ends at its closing brace. -/
theorem run_closed {start width : Nat} (found : FieldMark)
    (remains : Remains source (start + width) input) (mark : Nat) :
    (closed start found).run (view source mark (start + width)) =
      settled source mark start (FieldMark.closed found width input) := by
  have closes := run_eatIf (· == '}') remains mark
  rw [closed, run_bind, eat, closes, pure_bind]
  cases input with
  | nil => rfl
  | cons c rest =>
    by_cases isClosing : c = '}'
    · subst isClosing
      rfl
    · have notClosing : (c == '}') = false := beq_false_of_ne isClosing
      rw [FieldMark.closed_other found width rest isClosing]
      simp only [List.head?_cons, Option.any_some, notClosing]
      rfl

/-- A field has a name up to its closing brace. -/
theorem run_named {start width : Nat} (index : Option Nat)
    (remains : Remains source (start + width) input) (mark : Nat) :
    ∃ left, (named start index).run (view source mark (start + width)) =
      settled source left start (FieldMark.named index width input) := by
  have read := run_placeholder remains mark
  rw [placeholder_view remains] at read
  rw [named, run_bind, read, FieldMark.named]
  cases scanned : FieldMark.placeholder input with
  | error distance =>
    refine ⟨0, ?_⟩
    dsimp only [settled, view]
    rw [Checked.throw_bind, Nat.add_assoc]
  | ok size =>
    have behind := remains.drop (FieldMark.placeholder_le (.inl scanned))
    rw [Nat.add_assoc] at behind
    refine ⟨start + width, ?_⟩
    simp only [pure_bind, Nat.add_assoc]
    exact run_closed _ behind _

/-- What follows the number of a field, which is `width` characters wide so far. -/
def behindNumber (index : Option Nat) (width : Nat) : List Char → Except Nat (FieldMark × Nat)
  | ':' :: rest => FieldMark.named index (width + 1) rest
  | rest => FieldMark.closed ⟨index, ""⟩ width rest

/-- Behind its number a field has a colon and a name, or it is closed. -/
theorem run_indexed {start width : Nat} (index : Option Nat)
    (remains : Remains source (start + width) input) (mark : Nat) :
    ∃ left, (indexed start index).run (view source mark (start + width)) =
      settled source left start (behindNumber index width input) := by
  have readColon := run_eatIf (· == ':') remains mark
  rw [indexed, run_bind, eat, readColon, pure_bind]
  cases input with
  | nil => exact ⟨mark, run_closed _ remains _⟩
  | cons c rest =>
    by_cases isColon : c = ':'
    · subst isColon
      have further : Remains source (start + (width + 1)) rest := remains.behind_cons
      simp only [List.head?_cons, Option.any_some, beq_self_eq_true, if_true]
      exact run_named index further mark
    · have notColon : (c == ':') = false := beq_false_of_ne isColon
      simp only [List.head?_cons, Option.any_some, notColon, Bool.false_eq_true, if_false]
      refine ⟨mark, (run_closed ⟨index, ""⟩ remains mark).trans ?_⟩
      rw [behindNumber]
      rintro _ same
      exact isColon (List.cons.inj same).1

/-- What is found of a field at a place of a source. -/
def placedField (source : List Char) (mark start : Nat) :
    Except Nat (Option (FieldMark × Nat)) → Checked (Option (FieldMark × Span) × Window)
  | .ok none => pure (none, view source mark start)
  | .ok (some found) => settled source mark start (.ok found)
  | .error distance => settled source mark start (.error distance)

/-- What follows the opening brace of a field is scanned. -/
theorem run_body (remains : Remains source (offset + 2) input) (mark : Nat) :
    ∃ left, (body offset).run (view source mark (offset + 2)) =
      settled source left offset (FieldMark.body input) := by
  have readDigits := run_eatWhile CharClass.digit remains (offset + 2)
  rw [body, run_bind, run_mark, pure_bind, run_bind, readDigits, pure_bind,
    FieldMark.body.eq_def]
  cases empty : (input.takeWhile CharClass.digit).isEmpty with
  | true =>
    rw [List.isEmpty_iff] at empty
    simp only [empty, List.length_nil, bne_self_eq_false, Bool.false_eq_true, if_false,
      Nat.add_zero, List.isEmpty_nil, if_true]
    rw [run_bind, run_peek? remains, pure_bind]
    cases input with
    | nil => exact ⟨offset + 2, run_closed _ remains _⟩
    | cons c rest =>
      cases isLetter : CharClass.letter c with
      | true =>
        simp only [List.head?_cons, Option.any_some, isLetter, if_true]
        exact run_named none remains _
      | false =>
        simp only [List.head?_cons, Option.any_some, isLetter, Bool.false_eq_true, if_false]
        exact ⟨offset + 2, run_closed _ remains _⟩
  | false =>
    -- The number is what has been read since the mark.
    have whole := take_length_takeWhile CharClass.digit input
    have behind := remains.drop (List.takeWhile_sublist CharClass.digit).length_le
    generalize input.takeWhile CharClass.digit = digits at *
    rw [List.isEmpty_eq_false_iff] at empty
    have filled : (digits.length != 0) = true := by simpa using empty
    have notEmpty : digits.isEmpty = false := List.isEmpty_eq_false_iff.mpr empty
    rw [Nat.add_assoc] at behind
    simp only [filled, notEmpty, if_true, Bool.false_eq_true, if_false]
    rw [run_bind, run_current remains, pure_bind, whole, Nat.add_assoc, String.toList_ofList]
    exact run_indexed (Digits.word? digits) behind (offset + 2)

/-- Checking every position on the way, a field mark is found where the recogniser finds it. -/
theorem run_fieldMark (remains : Remains source offset input) (mark : Nat) :
    ∃ left, fieldMark.run (view source mark offset) =
      placedField source left offset (FieldMark.scan input) := by
  rw [fieldMark, run_bind, run_position, pure_bind, run_bind, run_eatBoth _ _ remains, pure_bind]
  cases isMark : beginsWith '$' '{' input with
  | false =>
    have unfielded : FieldMark.scan input = .ok none := by
      unfold FieldMark.scan
      split
      case h_1 rest => cases (beginsWith_self '$' '{' rest).symm.trans isMark
      case h_2 => rfl
    rw [unfielded]
    exact ⟨mark, rfl⟩
  | true =>
    obtain ⟨rest, rfl⟩ := eq_of_beginsWith isMark
    obtain ⟨left, read⟩ := run_body remains.behind_cons.behind_cons mark
    refine ⟨left, ?_⟩
    simp only [if_true]
    rw [read, FieldMark.scan]
    cases FieldMark.body rest <;> rfl

end

end Shorthand.Scan
