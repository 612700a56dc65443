import Shorthand.Proofs.Markup.Reader.Attributes

/-!
# The reader of elements

An element is read piece by piece: a name, and then repeaters, texts and attributes in any order, up
to the mark that closes it. The program asks for each of them at its read position, where the reader
is told what is left.
-/

namespace Shorthand.Markup.Reader

open Reading

/-- Read a dot and a capitalized name, and tell whether both were there. -/
def dottedName : Reading Token Bool := do
  if ← consume (Token.isOperator .className) then consume Token.isCapitalized else return false

/-- Read pairs of a dot and a capitalized name. -/
def dottedNames : Nat → Reading Token Unit
  | 0 => exhausted
  | steps + 1 => do
    let behind ← position
    if ← dottedName then dottedNames steps else seek behind

/-- Read the dotted name of a component where components are known. -/
def component (jsx : Bool) : Reading Token Unit := do
  if ← (if jsx then consume Token.isCapitalized else return false) then
    bounded dottedNames
  else
    return ()

/-- Read an element name and put the mark where it begins. -/
def elementName (jsx : Bool) : Reading Token Bool := do
  let start ← position
  component jsx
  let _ ← passWhile Token.isNamePart
  if start = (← position) then
    return false
  else
    markAt start
    return true

/-- Read the slash at the end of an element and a repeater behind it. -/
def closing (head : Head) : Reading Token Head := do
  if head.isEmpty then
    return head
  else if ← consume (Token.isOperator .close) then
    match head.repetition with
    | some _ => return { head with isSelfClosing := true }
    | none => return { head with isSelfClosing := true, repetition := ← repeater }
  else
    return head

/-- Read what may follow in an element whose beginning is known. -/
def headFrom (jsx : Bool) (size : Nat) (head : Head) : Nat → Reading Token Head
  | 0 => exhausted
  | steps + 1 => do
    match ← peek? with
    | none => return head
    | some token =>
      markAt (← position)
      if head.repetition.isNone && !head.isEmpty && token.repeat?.isSome then
        headFrom jsx size { head with repetition := ← repeater } steps
      else if ← (if head.value.isNone then text else return false) then
        headFrom jsx size { head with value := some (← textTokens) } steps
      else
        match ← attributes jsx size with
        | some added => headFrom jsx size (head.addAttributes added) steps
        | none => closing head

/-- Read the name of an element. -/
def named (jsx : Bool) : Reading Token Head := do
  if ← elementName jsx then
    return { Head.empty with name := some (← marked) }
  else
    return Head.empty

/-- Read an element without the statements below it, if one begins here. -/
def element (jsx : Bool) (size : Nat) : Reading Token (Option Head) := do
  let name ← named jsx
  let head ← bounded (headFrom jsx size name)
  return if head.isEmpty then none else some head

/-! ### What the programs find -/

section

variable {tokens left rest : List Token}

/-- A dot and a capitalized name are passed over if both stand there. -/
theorem run_dottedName {dot name : Token} (within : dot :: name :: rest <:+ tokens) (start : Nat) :
    ∃ reached, dottedName.run (facing tokens start (dot :: name :: rest)) =
        pure (dot.isOperator .className && name.isCapitalized, facing tokens start reached) ∧
      (dot.isOperator .className && name.isCapitalized → reached = rest) := by
  have behindDot := (List.suffix_cons dot (name :: rest)).trans within
  rw [dottedName, run_ifConsume _ _ _ within]
  cases isDot : dot.isOperator .className with
  | false => exact ⟨_, rfl, nofun⟩
  | true =>
    rw [if_pos rfl, run_consume _ behindDot, Bool.true_and, List.head?_cons, Option.any_some,
      List.tail_cons]
    exact ⟨_, rfl, fun isName => if_pos isName⟩

/-- Where fewer than two tokens are left there is no dot with a name. -/
theorem run_dottedName_short (short : left.length < 2) (within : left <:+ tokens) (start : Nat) :
    ∃ reached, dottedName.run (facing tokens start left) =
      pure (false, facing tokens start reached) := by
  rw [dottedName]
  cases left with
  | nil => exact ⟨[], run_ifConsume_nil _ _ _ tokens start⟩
  | cons dot rest =>
    obtain rfl : rest = [] := by
      rw [← List.length_eq_zero_iff]
      rw [List.length_cons] at short
      omega
    rw [run_ifConsume _ _ _ within]
    split
    · exact ⟨[], run_consume _ List.nil_suffix start⟩
    · exact ⟨[dot], rfl⟩

/-- Pairs of dots and names are passed over; behind the last one the position is put back. -/
theorem run_dottedNames {steps : Nat} (within : left <:+ tokens) (start : Nat)
    (enough : left.length < steps) :
    (dottedNames steps).run (facing tokens start left) =
      pure ((), facing tokens start (readDottedNames left).2) := by
  fun_induction readDottedNames left generalizing steps with
  | case1 dot name rest isDotted taken behind found ih =>
    obtain ⟨steps, rfl, fewer⟩ := exists_fewer enough
    obtain ⟨reached, read, isReached⟩ := run_dottedName within start
    have inner := ((List.suffix_cons name rest).trans (List.suffix_cons dot _)).trans within
    rw [dottedNames, run_bind, run_position, pure_bind, run_bind, read, pure_bind,
      isReached isDotted]
    simp only [isDotted, if_true]
    rw [ih inner (Nat.lt_of_succ_lt fewer), found]
  | case2 dot name rest notDotted =>
    obtain ⟨steps, rfl, -⟩ := exists_fewer enough
    obtain ⟨reached, read, _⟩ := run_dottedName within start
    rw [dottedNames, run_bind, run_position, pure_bind, run_bind, read, pure_bind]
    simp only [notDotted, Bool.false_eq_true, if_false]
    exact run_seek tokens start reached (dot :: name :: rest)
  | case3 left short =>
    obtain ⟨steps, rfl, -⟩ := exists_fewer enough
    have isShort : left.length < 2 := by
      cases left with
      | nil => exact Nat.two_pos
      | cons dot rest =>
        cases rest with
        | nil => exact Nat.one_lt_two
        | cons name rest => exact (short dot name rest rfl).elim
    obtain ⟨reached, read⟩ := run_dottedName_short isShort within start
    rw [dottedNames, run_bind, run_position, pure_bind, run_bind, read, pure_bind]
    exact run_seek tokens start reached left

/-- The dotted name of a component in front, where components are known. -/
def readComponent (jsx : Bool) : List Token → List Token × List Token
  | [] => ([], [])
  | token :: rest =>
    if jsx && token.isCapitalized then
      (token :: (readDottedNames rest).1, (readDottedNames rest).2)
    else
      ([], token :: rest)

/-- A name is what a component takes and the content tokens behind it. -/
theorem readName_eq (jsx : Bool) (left : List Token) :
    readName jsx left =
      ((readComponent jsx left).1 ++ (readComponent jsx left).2.takeWhile Token.isNamePart,
        (readComponent jsx left).2.dropWhile Token.isNamePart) := by
  cases left with
  | nil => rfl
  | cons token rest =>
    rw [readName, readComponent]

/-- A component leaves the end of what was there. -/
theorem readComponent_suffix (jsx : Bool) (left : List Token) :
    (readComponent jsx left).2 <:+ left := by
  cases left with
  | nil => exact List.suffix_rfl
  | cons token rest =>
    rw [readComponent]
    split
    · exact List.IsSuffix.trans ⟨_, readDottedNames_append rest⟩ (List.suffix_cons token rest)
    · exact List.suffix_rfl

/-- The dotted name of a component is passed over where components are known. -/
theorem run_component (jsx : Bool) (within : left <:+ tokens) (start : Nat) :
    (component jsx).run (facing tokens start left) =
      pure ((), facing tokens start (readComponent jsx left).2) := by
  rw [component]
  cases jsx with
  | false => cases left <;> rfl
  | true =>
    simp only [if_true]
    cases left with
    | nil => exact run_ifConsume_nil _ _ _ tokens start
    | cons token rest =>
      rw [run_ifConsume _ _ _ within, readComponent, Bool.true_and]
      split
      · have inner := (List.suffix_cons token rest).trans within
        exact run_dottedNames inner start (length_lt inner)
      · rfl

/-- A name is passed over, and the mark is put in front of it. -/
theorem run_elementName (jsx : Bool) (within : left <:+ tokens) (start : Nat) :
    (elementName jsx).run (facing tokens start left) = match readName jsx left with
      | ([], _) => pure (false, facing tokens start left)
      | (_ :: _, rest) => pure (true, facing tokens (positionOf tokens left) rest) := by
  have inner := (readComponent_suffix jsx left).trans within
  have whole := readName_append jsx left
  rw [elementName, run_bind, run_position, pure_bind, run_bind, run_component jsx within, pure_bind,
    run_bind, run_passWhile _ inner, pure_bind, run_bind, run_position, pure_bind]
  rw [readName_eq] at whole ⊢
  dsimp only at whole ⊢
  generalize (readComponent jsx left).1 ++ (readComponent jsx left).2.takeWhile Token.isNamePart =
    taken at *
  generalize (readComponent jsx left).2.dropWhile Token.isNamePart = rest at *
  subst whole
  have moved := positionOf_eq_iff within
  cases taken with
  | nil =>
    rw [if_pos (moved.mpr rfl)]
    rfl
  | cons first others =>
    rw [if_neg fun same => List.cons_ne_nil first others (moved.mp same)]
    rfl

/-- The slash at the end of an element, and a repeater behind it. -/
def readClosing (head : Head) : List Token → Head × List Token
  | [] => (head, [])
  | token :: rest =>
    if !head.isEmpty && token.isOperator .close then
      match head.repetition with
      | some _ => ({ head with isSelfClosing := true }, rest)
      | none =>
        ({ head with isSelfClosing := true, repetition := (readRepeat rest).1 },
          (readRepeat rest).2)
    else
      (head, token :: rest)

/-- A slash closes an element, and a repeater may follow it. -/
theorem run_closing (head : Head) (within : left <:+ tokens) (start : Nat) :
    (closing head).run (facing tokens start left) =
      leaving tokens start (.ok (readClosing head left)) := by
  rw [closing]
  cases isEmpty : head.isEmpty with
  | true => cases left <;> simp only [readClosing, isEmpty] <;> rfl
  | false =>
    simp only [Bool.false_eq_true, if_false]
    cases left with
    | nil => exact run_ifConsume_nil _ _ _ tokens start
    | cons token rest =>
      rw [run_ifConsume _ _ _ within, readClosing, isEmpty, Bool.not_false, Bool.true_and]
      split
      · cases head.repetition with
        | some repetition => rfl
        | none =>
          dsimp only
          rw [run_bind, run_repeater ((List.suffix_cons token rest).trans within)]
          rfl
      · rfl

/-- The repeat that a token writes, where an element may be repeated. -/
def repeatIf (head : Head) (token : Token) : Option Repeat :=
  if head.repetition.isNone && !head.isEmpty then token.repeat? else none

/-- Whether an element can take a repeater here. -/
theorem repeatIf_isSome (head : Head) (token : Token) :
    (head.repetition.isNone && !head.isEmpty && token.repeat?.isSome) =
      (repeatIf head token).isSome := by
  rw [repeatIf]
  cases head.repetition.isNone && !head.isEmpty <;> rfl

/-- The repeater that an element takes is the next token. -/
theorem readRepeat_of_repeatIf {head : Head} {token : Token} {repetition : Repeat}
    (found : repeatIf head token = some repetition) (rest : List Token) :
    readRepeat (token :: rest) = (some repetition, rest) := by
  rw [repeatIf] at found
  split at found
  · rw [readRepeat, found]
  · cases found

/-- What follows in an element is a repeater, a text, attributes or its end, in this order. -/
theorem extendHead_cons (jsx : Bool) (head : Head) (token : Token) (rest : List Token) :
    extendHead jsx head (token :: rest) =
      match repeatIf head token with
      | some repetition => extendHead jsx { head with repetition := some repetition } rest
      | none =>
        match readTextIf head.value.isNone (token :: rest) with
        | some (text, left) => extendHead jsx { head with value := some text } left
        | none =>
          match readAttributes jsx (token :: rest) with
          | .error notice => .error notice
          | .ok (some (added, left)) => extendHead jsx (head.addAttributes added) left
          | .ok none => .ok (readClosing head (token :: rest)) := by
  rw [extendHead]
  split
  · next repetition found =>
    have isRepeater : repeatIf head token = some repetition := found
    rw [isRepeater]
  · next notFound =>
    have notRepeated : repeatIf head token = none := notFound
    rw [notRepeated]
    dsimp only
    split
    · next text left found =>
      have isText : readTextIf head.value.isNone (token :: rest) = some (text, left) := found
      rw [isText]
    · next notFound =>
      have notText : readTextIf head.value.isNone (token :: rest) = none := notFound
      rw [notText]
      dsimp only
      split
      · next failed => rw [failed]
      · next found => rw [found]
      · next nothing =>
        rw [nothing, readClosing]
        split
        · cases head.repetition <;> rfl
        · rfl

/-- What is done at a token of an element whose beginning is known. -/
theorem run_headFrom_cons (jsx : Bool) (size steps : Nat) (head : Head) {token : Token}
    (within : token :: rest <:+ tokens) (start : Nat) :
    ∃ behind, (headFrom jsx size head (steps + 1)).run (facing tokens start (token :: rest)) =
      match repeatIf head token with
      | some repetition =>
        (headFrom jsx size { head with repetition := some repetition } steps).run
          (facing tokens behind rest)
      | none =>
        match readTextIf head.value.isNone (token :: rest) with
        | some (text, left) =>
          (headFrom jsx size { head with value := some text } steps).run
            (facing tokens behind left)
        | none =>
          match readAttributes jsx (token :: rest) with
          | .error notice => throw notice
          | .ok (some (added, left)) =>
            (headFrom jsx size (head.addAttributes added) steps).run (facing tokens behind left)
          | .ok none => leaving tokens behind (.ok (readClosing head (token :: rest))) := by
  rw [headFrom, run_bind, run_peek? within, pure_bind]
  dsimp only [List.head?_cons]
  rw [run_bind, run_position, pure_bind, run_bind, run_markAt, pure_bind, repeatIf_isSome]
  cases found : repeatIf head token with
  | some repetition =>
    simp only [Option.isSome_some, if_true]
    rw [run_bind, run_repeater within, pure_bind, readRepeat_of_repeatIf found]
    exact ⟨_, rfl⟩
  | none =>
    simp only [Option.isSome_none, Bool.false_eq_true, if_false]
    -- A text leaves its tokens between the mark and the read position, where they are fetched.
    rw [run_bind, run_textIf _ within]
    cases isText : readTextIf head.value.isNone (token :: rest) with
    | some text =>
      simp only [pure_bind, if_true]
      rw [run_bind, run_textTokens within isText]
      exact ⟨_, rfl⟩
    | none =>
      obtain ⟨behind, read⟩ :=
        run_attributes jsx size within (positionOf tokens (token :: rest))
      simp only [pure_bind, Bool.false_eq_true, if_false]
      rw [run_bind, read]
      refine ⟨behind, ?_⟩
      cases readAttributes jsx (token :: rest) with
      | error notice => rfl
      | ok found =>
        cases found with
        | some added => rfl
        | none => exact run_closing head within behind

/-- What follows in an element is read as far as it goes. -/
theorem run_headFrom {steps : Nat} (jsx : Bool) (size : Nat) (head : Head)
    (within : left <:+ tokens) (start : Nat) (enough : left.length < steps) :
    ∃ behind, (headFrom jsx size head steps).run (facing tokens start left) =
      leaving tokens behind (extendHead jsx head left) := by
  induction steps generalizing head left start with
  | zero => exact absurd enough (Nat.not_lt_zero _)
  | succ steps ih =>
    cases left with
    | nil =>
      rw [headFrom, run_bind, run_peek? within, pure_bind, extendHead]
      exact ⟨start, rfl⟩
    | cons token rest =>
      have fewer := Nat.le_of_lt_succ enough
      obtain ⟨behindOne, read⟩ := run_headFrom_cons jsx size steps head within start
      rw [read, extendHead_cons]
      cases repeatIf head token with
      | some repetition => exact ih _ ((List.suffix_cons token rest).trans within) behindOne fewer
      | none =>
        cases isText : readTextIf head.value.isNone (token :: rest) with
        | some text =>
          obtain ⟨text, behindText⟩ := text
          have found := readText_of_readTextIf isText
          exact ih _ ((readText_suffix found).trans within) behindOne
            ((readText_length found).trans_le fewer)
        | none =>
          cases found : readAttributes jsx (token :: rest) with
          | error notice => exact ⟨0, rfl⟩
          | ok added =>
            cases added with
            | none => exact ⟨behindOne, rfl⟩
            | some added =>
              obtain ⟨added, behindAttributes⟩ := added
              exact ih _ ((readAttributes_suffix found).trans within) behindOne
                ((readAttributes_length found).trans_le fewer)

/-- The name of an element and nothing else. -/
def headOf (name : List Token) : Head :=
  if name.isEmpty then Head.empty else { Head.empty with name := some name }

/-- An element begins with its name. -/
theorem run_named (jsx : Bool) (within : left <:+ tokens) (start : Nat) :
    ∃ behind, (named jsx).run (facing tokens start left) =
      pure (headOf (readName jsx left).1, facing tokens behind (readName jsx left).2) := by
  have whole := readName_append jsx left
  rw [named, run_bind, run_elementName jsx within]
  generalize readName jsx left = found at *
  obtain ⟨name, rest⟩ := found
  cases name with
  | nil =>
    rw [← whole]
    exact ⟨start, rfl⟩
  | cons first others =>
    refine ⟨positionOf tokens left, ?_⟩
    simp only [pure_bind, if_true]
    rw [run_bind, run_marked whole within]
    rfl

/-- Where an element is empty nothing has been read. -/
theorem extendHead_of_isEmpty {jsx : Bool} {head extended : Head}
    (read : extendHead jsx head left = .ok (extended, rest)) (empty : extended.isEmpty) :
    head = extended ∧ rest = left := by
  obtain ⟨isEmpty, noText, noAttributes⟩ := (extension_of_extendHead read).nothing empty
  have unextended : extendHead jsx head left = .ok (head, left) := by
    cases left with
    | nil => rw [extendHead]
    | cons token others =>
      have noRepeat : repeatIf head token = none := by
        rw [repeatIf, isEmpty, Bool.not_true, Bool.and_false]
        rfl
      have notText : readTextIf head.value.isNone (token :: others) = none := by
        rw [readTextIf, noText, ite_self]
      have unclosed : readClosing head (token :: others) = (head, token :: others) := by
        rw [readClosing, isEmpty]
        rfl
      rw [extendHead_cons, noRepeat, notText, noAttributes, unclosed]
  rw [unextended] at read
  cases read
  exact ⟨rfl, rfl⟩

/-- An element is read, or nothing if none begins here. -/
theorem run_element (jsx : Bool) (size : Nat) (within : left <:+ tokens) (start : Nat) :
    ∃ behind, (element jsx size).run (facing tokens start left) =
      leaving? tokens behind left (readHead jsx left) := by
  have whole := readName_append jsx left
  obtain ⟨behindName, readTheName⟩ := run_named jsx within start
  rw [element, run_bind, readTheName, pure_bind, readHead]
  generalize readName jsx left = found at *
  obtain ⟨name, rest⟩ := found
  dsimp only at whole ⊢
  have inner : rest <:+ tokens := (List.suffix_append name rest).trans (whole.symm ▸ within)
  obtain ⟨behind, read⟩ := run_headFrom jsx size (headOf name) inner behindName (length_lt inner)
  rw [run_bind, run_bounded, read, ← headOf]
  refine ⟨behind, ?_⟩
  cases extended : extendHead jsx (headOf name) rest with
  | error notice => rfl
  | ok found =>
    obtain ⟨head, behindHead⟩ := found
    cases isEmpty : head.isEmpty with
    | false => simp only [leaving, pure_bind, isEmpty]; rfl
    | true =>
      obtain ⟨rfl, rfl⟩ := extendHead_of_isEmpty extended isEmpty
      have nameless : name = [] := by
        cases name with
        | nil => rfl
        | cons first others => cases isEmpty
      subst nameless whole
      simp only [leaving, pure_bind, isEmpty]
      rfl

end

end Shorthand.Markup.Reader
