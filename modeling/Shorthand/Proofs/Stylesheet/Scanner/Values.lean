import Shorthand.Proofs.Scanning.FieldMark
import Shorthand.Proofs.Stylesheet.TokenCover

/-!
# Scanning numbers and colors

A number may give its point or its dash back, and a color is read in up to three runs of digits, so
that the read position goes forwards and back inside of one token. Each recogniser `Finds` what the
lexer finds, and every move passes its check.
-/

namespace Shorthand.Stylesheet.Scanner

open Scan

/-- Read a name that begins with two dashes. -/
def customProperty : Scan (Option (Token.Kind × Span)) := do
  let start ← position
  if ← eatBoth '-' '-' then
    markAt start
    let _ ← eatWhile isKeywordChar
    return some (.customProperty (← current), ⟨start, ← position⟩)
  else
    return none

/-- Read a point and the decimal places behind it. A point alone, without digits on either side,
is given back. -/
def places (hasWhole : Bool) : Scan Unit := do
  let behindWhole ← position
  if ← eat '.' then
    let hasPlaces ← eatWhile CharClass.digit
    if hasWhole || hasPlaces then return () else seek behindWhole
  else
    return ()

/-- Read digits with an optional point. -/
def unsigned : Scan Unit := do
  places (← eatWhile CharClass.digit)

/-- Give a dash back that has nothing behind it. -/
def giveBack (start behindSign : Nat) : Scan Unit := do
  if (← position) = behindSign then seek start else return ()

/-- Read a number without its unit, and tell whether there is one. -/
def amount : Scan Bool := do
  let start ← position
  let _ ← eat '-'
  let behindSign ← position
  unsigned
  giveBack start behindSign
  return (← position) != start

/-- Read the unit of a number. -/
def unit : Scan Bool := do
  if ← eat '%' then return true else eatWhile CharClass.wordLetter

/-- Read a number with its unit. -/
def number : Scan (Option (Token.Kind × Span)) := do
  let start ← position
  if ← amount then
    markAt start
    let raw ← current
    mark
    let _ ← unit
    return some (.number (((Decimal.ofText? raw).map Decimal.toFloat).getD 0.0) raw (← current),
      ⟨start, ← position⟩)
  else
    return none

/-- Read the opacity of a color. -/
def opacity : Scan String := do
  let start ← position
  if ← eat '.' then
    markAt start
    if ← eatWhile CharClass.digit then current else return "1"
  else
    return ""

/-- The color that has been read, or a hash alone. -/
def colored (start : Nat) (digits alpha : String) : Scan (Option (Token.Kind × Span)) := do
  let stop ← position
  if !digits.isEmpty || !alpha.isEmpty || (← peek?).isNone then
    let raw ← between (start + 1) stop
    return some (.color (Color.ofText digits alpha raw), ⟨start, stop⟩)
  else
    return some (.literal (← between start stop), ⟨start, stop⟩)

/-- Read a color without digits behind its hash. -/
def digitless (start : Nat) : Scan (Option (Token.Kind × Span)) := do
  if ← eat 't' then
    let alpha ← opacity
    colored start "0" (if alpha.isEmpty then "0" else alpha)
  else
    colored start "" (← opacity)

/-- Read a color. -/
def color : Scan (Option (Token.Kind × Span)) := do
  let start ← position
  if ← eat '#' then
    let behindHash ← position
    if ← eatWhile CharClass.hexDigit then
      let digits ← between behindHash (← position)
      colored start digits (← opacity)
    else
      digitless start
  else
    return none

/-! ### What the scanners find -/

section

variable {source input : List Char} {offset : Nat}

/-- A custom property is found as from what is left. -/
theorem customProperty_finds (remains : Remains source offset input) :
    Finds customProperty source offset (scanCustomProperty input) := by
  intro mark
  rw [customProperty, run_bind, run_position, pure_bind, run_bind, run_eatBoth _ _ remains,
    pure_bind]
  cases isDashed : beginsWith '-' '-' input with
  | false =>
    have nothing : scanCustomProperty input = none := by
      unfold scanCustomProperty
      split
      case h_1 rest => cases (beginsWith_self '-' '-' rest).symm.trans isDashed
      case h_2 => rfl
    rw [nothing]
    exact ⟨mark, rfl⟩
  | true =>
    obtain ⟨rest, rfl⟩ := eq_of_beginsWith isDashed
    have behind : Remains source (offset + 2) rest := remains.behind_cons.behind_cons
    have text : ('-' :: '-' :: rest).take (2 + (rest.takeWhile isKeywordChar).length) =
        '-' :: '-' :: rest.takeWhile isKeywordChar := by
      rw [Nat.add_comm, List.take_succ_cons, List.take_succ_cons, take_length_takeWhile]
    refine ⟨offset, ?_⟩
    simp only [if_true]
    rw [run_bind, run_markAt, pure_bind, run_bind, run_eatWhile _ behind, pure_bind]
    dsimp only
    rw [Nat.add_assoc, run_bind, run_current remains, pure_bind, text]
    rfl

/-! ### Numbers -/

/-- The width of a point and the decimal places behind it. -/
def placesWidth (hasWhole : Bool) : List Char → Nat
  | '.' :: rest =>
    let places := (rest.takeWhile CharClass.digit).length
    if hasWhole || places != 0 then 1 + places else 0
  | _ => 0

/-- Without a point there are no places. -/
theorem placesWidth_eq_zero (hasWhole : Bool) {input : List Char}
    (pointless : ∀ rest, input ≠ '.' :: rest) : placesWidth hasWhole input = 0 := by
  unfold placesWidth
  split
  case h_1 rest => exact absurd rfl (pointless rest)
  case h_2 => rfl

/-- The places behind a point are passed over. -/
theorem run_places (hasWhole : Bool) (remains : Remains source offset input) (mark : Nat) :
    (places hasWhole).run (view source mark offset) =
      pure ((), view source mark (offset + placesWidth hasWhole input)) := by
  rw [places, run_bind, run_position, pure_bind, run_bind, eat, run_eatIf _ remains, pure_bind]
  cases input with
  | nil => rfl
  | cons c rest =>
    by_cases isPoint : c = '.'
    · subst isPoint
      simp only [List.head?_cons, Option.any_some, beq_self_eq_true, if_true]
      rw [run_bind, run_eatWhile _ remains.behind_cons, pure_bind]
      simp only [placesWidth]
      split
      · rw [Nat.add_assoc]
        rfl
      · exact run_seek remains.bounded mark _
    · have notPoint : (c == '.') = false := beq_false_of_ne isPoint
      have nothing : placesWidth hasWhole (c :: rest) = 0 :=
        placesWidth_eq_zero hasWhole fun _ same => isPoint (List.cons.inj same).1
      simp only [List.head?_cons, Option.any_some, notPoint]
      rw [nothing]
      rfl

/-- The width of a number without a sign is that of its whole part and of its places. -/
theorem unsignedWidth_eq (input : List Char) :
    let whole := (input.takeWhile CharClass.digit).length
    unsignedWidth input = whole + placesWidth (whole != 0) (input.drop whole) := by
  simp only [unsignedWidth]
  generalize (input.takeWhile CharClass.digit).length = whole
  split
  case h_1 rest isPoint =>
    rw [isPoint, placesWidth]
    generalize (rest.takeWhile CharClass.digit).length = places
    cases whole <;> cases places <;> simp; omega
  case h_2 pointless => rw [placesWidth_eq_zero _ pointless, Nat.add_zero]

/-- A number without a sign is passed over. -/
theorem run_unsigned (remains : Remains source offset input) (mark : Nat) :
    unsigned.run (view source mark offset) =
      pure ((), view source mark (offset + unsignedWidth input)) := by
  have behind := remains.drop (List.takeWhile_sublist CharClass.digit).length_le
  rw [unsigned, run_bind, run_eatWhile _ remains, pure_bind]
  dsimp only
  rw [run_places _ behind, unsignedWidth_eq, Nat.add_assoc]

/-- A sign without digits behind it is given back. -/
theorem run_giveBack {start behindSign width : Nat} (inside : start ≤ source.length) (mark : Nat) :
    (giveBack start behindSign).run (view source mark (behindSign + width)) =
      pure ((), view source mark (if width = 0 then start else behindSign + width)) := by
  rw [giveBack, run_bind, run_position, pure_bind]
  dsimp only
  by_cases empty : width = 0
  · rw [if_pos (by omega), if_pos empty]
    exact run_seek inside mark _
  · rw [if_neg (by omega), if_neg empty]
    rfl

/-- The width of a number is that of its sign and of its digits, and none without digits. -/
theorem numberWidth_eq (input : List Char) :
    let dash := if input.head? == some '-' then 1 else 0
    let width := unsignedWidth (input.drop dash)
    numberWidth input = if width = 0 then 0 else dash + width := by
  intro dash width
  cases input with
  | nil => rfl
  | cons c rest =>
    by_cases isDash : c = '-'
    · subst isDash
      simp only [numberWidth, Nat.add_comm _ 1]
      rfl
    · have unsigned : numberWidth (c :: rest) = unsignedWidth (c :: rest) := by
        unfold numberWidth
        split
        case h_1 same => exact absurd (List.cons.inj same).1 isDash
        case h_2 => rfl
      have signless : dash = 0 := if_neg (by simpa using isDash)
      have same : width = unsignedWidth (c :: rest) := by
        simp only [width, signless, List.drop_zero]
      rw [unsigned, signless, same, Nat.zero_add]
      split <;> simp_all

/-- A number is passed over with its sign, or nothing is. -/
theorem run_amount (remains : Remains source offset input) (mark : Nat) :
    amount.run (view source mark offset) =
      pure (numberWidth input != 0, view source mark (offset + numberWidth input)) := by
  obtain ⟨readDash, behind⟩ := run_dash remains mark
  rw [amount, run_bind, run_position, pure_bind, run_bind, readDash, pure_bind, run_bind,
    run_position, pure_bind, run_bind]
  dsimp only
  rw [run_unsigned behind, pure_bind, run_bind, run_giveBack remains.bounded, pure_bind, run_bind,
    run_position, pure_bind, numberWidth_eq]
  dsimp only
  generalize (if input.head? == some '-' then 1 else 0) = dash
  generalize unsignedWidth _ = width
  have stop : (if width = 0 then offset else offset + dash + width) =
      offset + if width = 0 then 0 else dash + width := by
    split <;> omega
  have moved (more : Nat) : (offset + more != offset) = (more != 0) := by
    cases more <;> simp
  rw [stop, moved]
  rfl

/-- A unit is passed over. -/
theorem run_unit (remains : Remains source offset input) (mark : Nat) :
    ∃ found, unit.run (view source mark offset) =
      pure (found, view source mark (offset + (scanUnit input).length)) := by
  rw [unit, run_bind, eat, run_eatIf _ remains, pure_bind]
  cases input with
  | nil => exact ⟨_, run_eatWhile _ remains mark⟩
  | cons c rest =>
    by_cases isPercent : c = '%'
    · subst isPercent
      exact ⟨true, rfl⟩
    · have notPercent : (c == '%') = false := beq_false_of_ne isPercent
      have letters : scanUnit (c :: rest) = (c :: rest).takeWhile CharClass.wordLetter := by
        unfold scanUnit
        split
        case h_1 same => exact absurd (List.cons.inj same).1 isPercent
        case h_2 => rfl
      simp only [List.head?_cons, Option.any_some, notPercent]
      rw [letters]
      exact ⟨_, run_eatWhile _ remains mark⟩

/-- A number and its unit are found as from what is left. -/
theorem number_finds (remains : Remains source offset input) :
    Finds number source offset (scanNumber input) := by
  intro mark
  have behind := remains.drop (numberWidth_le input)
  rw [number, run_bind, run_position, pure_bind, run_bind, run_amount remains, pure_bind,
    scanNumber]
  dsimp only
  generalize numberWidth input = width at *
  by_cases empty : width = 0
  · subst empty
    exact ⟨mark, rfl⟩
  · have filled : (width != 0) = true := bne_iff_ne.mpr empty
    obtain ⟨found, readUnit⟩ := run_unit behind (offset + width)
    have text := List.prefix_iff_eq_take.mp (scanUnit_begins (input.drop width))
    rw [if_neg empty, if_pos filled, run_bind, run_markAt, pure_bind, run_bind,
      run_current remains, pure_bind, run_bind, run_mark, pure_bind, run_bind, readUnit, pure_bind]
    dsimp only
    rw [run_bind, run_current behind, pure_bind, ← text]
    exact ⟨offset + width, by simp only [placed, Nat.add_assoc]; rfl⟩

/-! ### Colors -/

/-- The opacity of a color is read behind a point. -/
theorem run_opacity (remains : Remains source offset input) (mark : Nat) :
    ∃ left, opacity.run (view source mark offset) =
      pure ((scanOpacity input).1, view source left (offset + (scanOpacity input).2)) := by
  rw [opacity, run_bind, run_position, pure_bind, run_bind, eat, run_eatIf _ remains, pure_bind]
  cases input with
  | nil => exact ⟨mark, rfl⟩
  | cons c rest =>
    by_cases isPoint : c = '.'
    · subst isPoint
      have text : ('.' :: rest).take (1 + (rest.takeWhile CharClass.digit).length) =
          '.' :: rest.takeWhile CharClass.digit := by
        rw [Nat.add_comm, List.take_succ_cons, take_length_takeWhile]
      have readDigits := run_eatWhile CharClass.digit remains.behind_cons offset
      rw [Nat.add_assoc] at readDigits
      simp only [List.head?_cons, Option.any_some, beq_self_eq_true, if_true, scanOpacity]
      rw [run_bind, run_markAt, pure_bind, run_bind, readDigits, pure_bind]
      dsimp only
      refine ⟨offset, ?_⟩
      generalize rest.takeWhile CharClass.digit = digits at *
      cases digits with
      | nil => rfl
      | cons first others =>
        rw [if_pos (by simp), run_current remains, text]
        rfl
    · have notPoint : (c == '.') = false := beq_false_of_ne isPoint
      have nothing : scanOpacity (c :: rest) = ("", 0) := by
        unfold scanOpacity
        split
        case h_1 same => exact absurd (List.cons.inj same).1 isPoint
        case h_2 => rfl
      simp only [List.head?_cons, Option.any_some, notPoint]
      rw [nothing]
      exact ⟨mark, rfl⟩

/-- What is found behind a hash with `width` characters of a color. -/
def coloredPiece (rest : List Char) (width : Nat) (digits alpha : String) : Piece :=
  if !digits.isEmpty || !alpha.isEmpty || (rest.drop width).isEmpty then
    ⟨.color (Color.ofText digits alpha (String.ofList (rest.take width))), 1 + width⟩
  else
    ⟨.literal (String.ofList (('#' :: rest).take (1 + width))), 1 + width⟩

/-- A color is found behind its digits if anything says which. -/
theorem run_colored {rest : List Char} {width : Nat} (remains : Remains source offset ('#' :: rest))
    (within : width ≤ rest.length) (digits alpha : String) (mark : Nat) :
    (colored offset digits alpha).run (view source mark (offset + 1 + width)) =
      pure (placed source mark offset (some (coloredPiece rest width digits alpha))) := by
  have behind := remains.behind_cons.drop within
  rw [colored, run_bind, run_position, pure_bind, run_bind, run_peek? behind, pure_bind,
    coloredPiece]
  dsimp only
  have atEnd : (rest.drop width).head?.isNone = (rest.drop width).isEmpty := by
    cases rest.drop width <;> rfl
  rw [atEnd]
  split
  · rw [run_bind, run_between remains.behind_cons, pure_bind]
    simp only [placed, Nat.add_assoc]
    rfl
  · rw [Nat.add_assoc, run_bind, run_between remains, pure_bind]
    rfl

/-- Behind its digits a color is read to its end. -/
theorem run_shaded {rest : List Char} (width : Nat)
    (remains : Remains source offset ('#' :: rest)) (within : width ≤ rest.length)
    (digits : String) (shade : String → String) (mark : Nat) :
    let found := scanOpacity (rest.drop width)
    ∃ left, (opacity >>= fun alpha => colored offset digits (shade alpha)).run
        (view source mark (offset + 1 + width)) =
      pure (placed source left offset
        (some (coloredPiece rest (width + found.2) digits (shade found.1)))) := by
  intro found
  have behind := remains.behind_cons.drop within
  have inside := scanOpacity_le (rest.drop width)
  rw [List.length_drop] at inside
  obtain ⟨left, readOpacity⟩ := run_opacity behind mark
  refine ⟨left, ?_⟩
  rw [run_bind, readOpacity, pure_bind]
  dsimp only
  rw [Nat.add_assoc]
  exact run_colored remains (by omega) digits (shade found.1) left

/-- An opacity that is missing covers nothing. -/
theorem scanOpacity_empty {input : List Char} (missing : (scanOpacity input).1.isEmpty) :
    (scanOpacity input).2 = 0 := by
  unfold scanOpacity at missing ⊢
  split
  case h_1 rest =>
    simp only at missing
    split at missing
    · cases missing
    · simp at missing
  case h_2 => rfl

/-- Digits make a color of any width. -/
theorem coloredPiece_named (rest : List Char) (width : Nat) {digits : String} (alpha : String)
    (named : digits.isEmpty = false) :
    coloredPiece rest width digits alpha =
      ⟨.color (Color.ofText digits alpha (String.ofList (rest.take width))), 1 + width⟩ := by
  rw [coloredPiece, named]
  rfl

/-- A color with digits. -/
theorem scanColor_digits {rest : List Char} (filled : rest.takeWhile CharClass.hexDigit ≠ []) :
    let digits := rest.takeWhile CharClass.hexDigit
    let found := scanOpacity (rest.drop digits.length)
    scanColor ('#' :: rest) =
      some (coloredPiece rest (digits.length + found.2) (String.ofList digits) found.1) := by
  intro digits found
  have written : (!digits.isEmpty) = true := by simpa [digits] using filled
  have named : (String.ofList digits).isEmpty = false := by simpa [digits] using filled
  rw [scanColor.eq_def, coloredPiece_named _ _ _ named]
  exact if_pos written

/-- A color that is clear. -/
theorem scanColor_clear (rest : List Char) :
    let found := scanOpacity rest
    scanColor ('#' :: 't' :: rest) =
      some (coloredPiece ('t' :: rest) (1 + found.2) "0"
        (if found.1.isEmpty then "0" else found.1)) := by
  intro found
  have undigited : ('t' :: rest).takeWhile CharClass.hexDigit = [] := rfl
  rw [scanColor.eq_def, coloredPiece_named _ _ _ rfl, ← Nat.add_assoc 1 1]
  simp only [undigited]
  exact if_neg Bool.false_ne_true

/-- A color without digits, or a hash alone. -/
theorem scanColor_bare {rest : List Char} (empty : rest.takeWhile CharClass.hexDigit = [])
    (unclear : ∀ others, rest ≠ 't' :: others) :
    scanColor ('#' :: rest) =
      some (coloredPiece rest (scanOpacity rest).2 "" (scanOpacity rest).1) := by
  rw [scanColor.eq_def]
  simp only [empty]
  rw [if_neg (by simp), coloredPiece]
  cases missing : (scanOpacity rest).1.isEmpty with
  | false => rfl
  | true =>
    rw [scanOpacity_empty missing]
    cases rest <;> rfl

/-- A color without digits is clear, or has an opacity at most. -/
theorem run_digitless {rest : List Char} (remains : Remains source offset ('#' :: rest))
    (empty : rest.takeWhile CharClass.hexDigit = []) (mark : Nat) :
    ∃ left, (digitless offset).run (view source mark (offset + 1)) =
      pure (placed source left offset (scanColor ('#' :: rest))) := by
  rw [digitless, run_bind, eat, run_eatIf _ remains.behind_cons, pure_bind]
  by_cases isClear : ∃ others, rest = 't' :: others
  · obtain ⟨others, rfl⟩ := isClear
    rw [scanColor_clear]
    exact run_shaded 1 remains (Nat.le_add_left 1 others.length) "0"
      (fun alpha => if alpha.isEmpty then "0" else alpha) mark
  · have unclear : ∀ others, rest ≠ 't' :: others := not_exists.mp isClear
    have notClear : rest.head?.any (· == 't') = false := by
      cases rest with
      | nil => rfl
      | cons c others => exact beq_false_of_ne fun same => unclear others (by rw [same])
    simp only [notClear, Bool.false_eq_true, if_false]
    rw [scanColor_bare empty unclear, ← Nat.zero_add (scanOpacity rest).2]
    exact run_shaded 0 remains (Nat.zero_le _) "" (fun alpha => alpha) mark

/-- A color is found as from what is left. -/
theorem color_finds (remains : Remains source offset input) :
    Finds color source offset (scanColor input) := by
  intro mark
  rw [color, run_bind, run_position, pure_bind, run_bind, eat, run_eatIf _ remains, pure_bind]
  cases input with
  | nil => exact ⟨mark, rfl⟩
  | cons c rest =>
    by_cases isHash : c = '#'
    · subst isHash
      have inner := remains.behind_cons
      have text := take_length_takeWhile CharClass.hexDigit rest
      simp only [List.head?_cons, Option.any_some, beq_self_eq_true, if_true]
      rw [run_bind, run_position, pure_bind, run_bind, run_eatWhile _ inner, pure_bind]
      dsimp only
      by_cases empty : rest.takeWhile CharClass.hexDigit = []
      · simp only [empty, List.length_nil, bne_self_eq_false, Bool.false_eq_true, if_false,
          Nat.add_zero]
        exact run_digitless remains empty mark
      · have within := (List.takeWhile_sublist (l := rest) CharClass.hexDigit).length_le
        rw [if_pos (by simpa using empty), scanColor_digits empty, run_bind, run_position,
          pure_bind, run_bind, run_between inner, pure_bind, text]
        exact run_shaded _ remains within _ (fun alpha => alpha) mark
    · have notHash : (c == '#') = false := beq_false_of_ne isHash
      have nothing : scanColor (c :: rest) = none := by
        unfold scanColor
        split
        case h_1 same => exact absurd (List.cons.inj same).1 isHash
        case h_2 => rfl
      simp only [List.head?_cons, Option.any_some, notHash]
      rw [nothing]
      exact ⟨mark, rfl⟩

end

end Shorthand.Stylesheet.Scanner
