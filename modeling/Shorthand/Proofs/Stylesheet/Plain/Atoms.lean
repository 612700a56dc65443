import Shorthand.Proofs.Stylesheet.Plain
import Shorthand.Proofs.Stylesheet.TokenCover

/-!
# The atoms of written declarations

Every atom is one token wherever it stands, as long as a separator stands behind it:
`scanToken_atom`. Operators and brackets are tokens in front of anything.
-/

namespace Shorthand.Stylesheet

/-! ### What may follow a token -/

/-- A character that stands behind a written token. -/
def isSeparator (c : Char) : Bool := [':', ' ', ',', '(', ')', '!', '+'].contains c

/-- A written token ends in front of these characters. -/
def Ends (rest : List Char) : Prop := ∀ c ∈ rest.head?, isSeparator c

/-- The end of the source ends every atom. -/
theorem ends_nil : Ends [] := by simp [Ends]

/-- A separator ends every atom. -/
theorem ends_cons {c : Char} (rest : List Char) (separates : isSeparator c) : Ends (c :: rest) := by
  intro other same
  simp only [List.head?_cons, Option.mem_def, Option.some.injEq] at same
  exact same ▸ separates

/-- A class that holds no separator ends in front of one. -/
theorem Ends.head {rest : List Char} (ends : Ends rest) {test : Char → Bool}
    (apart : ∀ c, isSeparator c → test c = false) : ∀ c ∈ rest.head?, test c = false :=
  fun c front => apart c (ends c front)

/-- A test that no separator passes says so of every one. -/
theorem apart_of_separators {test : Char → Bool}
    (apart : [':', ' ', ',', '(', ')', '!', '+'].all (!test ·)) :
    ∀ c, isSeparator c → test c = false := by
  intro c separates
  rw [isSeparator, List.contains_iff_mem] at separates
  simpa using List.all_eq_true.mp apart c separates

/-! ### Numbers -/

/-- A character of a class is none of those outside of it. -/
theorem ne_of_class {test : Char → Bool} {c other : Char} (inside : test c)
    (outside : test other = false) : c ≠ other := by
  rintro rfl
  exact Bool.eq_false_iff.mp outside inside

/-- What stands behind a number without its unit: neither a digit nor a point. -/
def EndsNumber (rest : List Char) : Prop :=
  ∀ c ∈ rest.head?, CharClass.digit c = false ∧ c ≠ '.'

/-- A unit ends the digits of a number. -/
theorem endsNumber_unit (unit : PlainUnit) {rest : List Char} (ends : Ends rest) :
    EndsNumber (unit.print ++ rest) := by
  intro c front
  cases unit with
  | none =>
    have separates := ends c front
    exact ⟨apart_of_separators (by decide) c separates, by rintro rfl; cases separates⟩
  | percent =>
    cases front
    decide
  | letters name =>
    obtain ⟨first, others, same, isLetter, _⟩ := name.exists_cons
    rw [PlainUnit.print, same] at front
    cases front
    exact ⟨CharClass.digit_of_letter isLetter, ne_of_class isLetter rfl⟩

/-- A number without a sign is as wide as its digits and places. -/
theorem unsignedWidth_run (whole : Run CharClass.digit) (places : Option (Run CharClass.digit))
    {rest : List Char} (ends : EndsNumber rest) :
    unsignedWidth (whole.text ++ (printPlaces places ++ rest)) =
      whole.text.length + (printPlaces places).length := by
  cases places with
  | none =>
    have run := takeWhile_run whole.all fun c front => (ends c front).1
    simp only [unsignedWidth, printPlaces, List.nil_append, run, List.drop_left, List.length_nil,
      Nat.add_zero]
    split
    · next pointed => exact absurd rfl (ends '.' rfl).2
    · rfl
  | some digits =>
    have run : (whole.text ++ '.' :: (digits.text ++ rest)).takeWhile CharClass.digit =
        whole.text := takeWhile_run whole.all (by simp [CharClass.digit])
    have runPlaces := takeWhile_run digits.all fun c front => (ends c front).1
    have filled : whole.text.length ≠ 0 := by
      simpa [List.length_eq_zero_iff] using whole.filled
    simp [unsignedWidth, printPlaces, run, runPlaces, filled]
    omega

/-- Without a dash the width of a number is that of its digits. -/
theorem numberWidth_unsigned {c : Char} (rest : List Char) (unsigned : c ≠ '-') :
    numberWidth (c :: rest) = unsignedWidth (c :: rest) := by
  unfold numberWidth
  split
  · next same => exact absurd (List.cons.inj same).1 unsigned
  · rfl

/-- A number is as wide as it is written. -/
theorem numberWidth_raw (number : PlainNumber) {rest : List Char} (ends : EndsNumber rest) :
    numberWidth (number.raw ++ rest) = number.raw.length := by
  obtain ⟨isNegative, whole, places, unit⟩ := number
  have width := unsignedWidth_run whole places ends
  obtain ⟨first, others, same, isDigit, _⟩ := whole.exists_cons
  rw [same] at width
  cases isNegative with
  | true =>
    simp only [PlainNumber.raw, same, if_true, List.cons_append, List.nil_append,
      List.append_assoc, numberWidth] at width ⊢
    rw [width]
    simp
    omega
  | false =>
    have unsigned : first ≠ '-' := ne_of_class isDigit rfl
    simp only [PlainNumber.raw, same, Bool.false_eq_true, if_false, List.cons_append,
      List.nil_append, List.append_assoc] at width ⊢
    rw [numberWidth_unsigned _ unsigned, width, ← List.cons_append, List.length_append]

/-- A unit other than the percent sign is all letters. -/
theorem scanUnit_letters {input : List Char} (other : ∀ rest, input ≠ '%' :: rest) :
    scanUnit input = input.takeWhile CharClass.wordLetter := by
  unfold scanUnit
  split
  · exact absurd rfl (other _)
  · rfl

/-- A unit is read as it is written. -/
theorem scanUnit_print (unit : PlainUnit) {rest : List Char} (ends : Ends rest) :
    scanUnit (unit.print ++ rest) = unit.print := by
  have behind : ∀ c ∈ rest.head?, CharClass.wordLetter c = false :=
    ends.head (apart_of_separators (by decide))
  cases unit with
  | none =>
    have noPercent : ∀ more, rest ≠ '%' :: more := by
      rintro more rfl
      exact absurd (ends '%' rfl) (by decide)
    exact (scanUnit_letters noPercent).trans (takeWhile_run (List.forall_mem_nil _) behind)
  | percent => rfl
  | letters name =>
    obtain ⟨first, others, same, isLetter, _⟩ := name.exists_cons
    have word : ∀ c ∈ name.text, CharClass.wordLetter c := by
      intro c member
      simp [CharClass.wordLetter, name.all c member]
    have noPercent : ∀ more, name.text ++ rest ≠ '%' :: more := by
      intro more front
      rw [same] at front
      exact ne_of_class isLetter rfl (List.cons.inj front).1
    exact (scanUnit_letters noPercent).trans (takeWhile_run word behind)

/-- The digits of a number are read as their value. -/
theorem unsigned?_digits (isNegative : Bool) (whole : Run CharClass.digit)
    (places : Option (Run CharClass.digit)) (unit : PlainUnit) :
    Decimal.unsigned? isNegative (whole.text ++ printPlaces places) =
      some (PlainNumber.decimal ⟨isNegative, whole, places, unit⟩) := by
  have filled := whole.filled
  cases places with
  | none =>
    have run : whole.text.takeWhile CharClass.digit = whole.text :=
      List.takeWhile_eq_self_iff.mpr whole.all
    have left : whole.text.dropWhile CharClass.digit = [] :=
      List.dropWhile_eq_nil_iff.mpr whole.all
    simp [Decimal.unsigned?, printPlaces, run, left, filled, Decimal.exponent?,
      PlainNumber.decimal, PlainNumber.placeDigits]
  | some digits =>
    have run : (whole.text ++ '.' :: digits.text).takeWhile CharClass.digit = whole.text :=
      takeWhile_run whole.all (by simp [CharClass.digit])
    have left : (whole.text ++ '.' :: digits.text).dropWhile CharClass.digit =
        '.' :: digits.text := dropWhile_run whole.all (by simp [CharClass.digit])
    have runPlaces : digits.text.takeWhile CharClass.digit = digits.text :=
      List.takeWhile_eq_self_iff.mpr digits.all
    have leftPlaces : digits.text.dropWhile CharClass.digit = [] :=
      List.dropWhile_eq_nil_iff.mpr digits.all
    simp [Decimal.unsigned?, printPlaces, run, left, runPlaces, leftPlaces, filled,
      Decimal.exponent?, PlainNumber.decimal, PlainNumber.placeDigits]

/-- Without a sign the sign of a decimal is positive. -/
theorem splitSign_unsigned {c : Char} (rest : List Char) (isDigit : CharClass.digit c) :
    Decimal.splitSign (c :: rest) = (false, c :: rest) := by
  unfold Decimal.splitSign
  split
  · next same => exact absurd (List.cons.inj same).1 (ne_of_class isDigit rfl)
  · next same => exact absurd (List.cons.inj same).1 (ne_of_class isDigit rfl)
  · rfl

/-- A number is read as its value. -/
theorem ofText?_raw (number : PlainNumber) :
    Decimal.ofText? (String.ofList number.raw) = some number.decimal := by
  obtain ⟨isNegative, whole, places, unit⟩ := number
  have read := unsigned?_digits isNegative whole places unit
  obtain ⟨first, others, same, isDigit, _⟩ := whole.exists_cons
  cases isNegative with
  | true => simpa [Decimal.ofText?, PlainNumber.raw, Decimal.splitSign] using read
  | false =>
    rw [same] at read
    simpa [Decimal.ofText?, PlainNumber.raw, same, splitSign_unsigned _ isDigit] using read

/-- A number with its unit is one piece. -/
theorem scanNumber_print (number : PlainNumber) {rest : List Char} (ends : Ends rest) :
    scanNumber (number.raw ++ number.unit.print ++ rest) =
      some ⟨.number number.decimal.toFloat (String.ofList number.raw)
        (String.ofList number.unit.print), (number.raw ++ number.unit.print).length⟩ := by
  have width := numberWidth_raw number (endsNumber_unit number.unit ends)
  have filled : number.raw.length ≠ 0 := by
    have whole := number.whole.filled
    simp only [PlainNumber.raw, List.length_append, ne_eq, ← List.length_eq_zero_iff] at whole ⊢
    omega
  rw [List.append_assoc]
  simp only [scanNumber, width, filled, if_false, List.take_left, List.drop_left,
    scanUnit_print number.unit ends, ofText?_raw, Option.map_some, Option.getD_some,
    List.length_append]

/-! ### What stands for a token -/

/-- Neither a field, a custom property nor a number begins with these characters. -/
def isUnsigned (c : Char) : Bool :=
  c != '$' && c != '-' && c != '.' && !CharClass.digit c

/-- Where neither a digit, a point nor a dash stands there is no number. -/
theorem scanNumber_unsigned {c : Char} (rest : List Char) (unsigned : isUnsigned c) :
    scanNumber (c :: rest) = none := by
  simp only [isUnsigned, Bool.and_eq_true, bne_iff_ne, Bool.not_eq_true'] at unsigned
  obtain ⟨⟨⟨_, notDash⟩, notPoint⟩, undigited⟩ := unsigned
  have width : unsignedWidth (c :: rest) = 0 := by
    simp only [unsignedWidth, List.takeWhile_cons_of_neg (Bool.eq_false_iff.mp undigited),
      List.length_nil, List.drop_zero]
    split
    · next same => exact absurd (List.cons.inj same).1 notPoint
    · rfl
  simp only [scanNumber, numberWidth_unsigned rest notDash, width, if_true]

/-- What does not begin as a field or a number is tried as the other tokens. -/
theorem scanToken_unsigned {c : Char} (isShort isFirst : Bool) (rest : List Char)
    (unsigned : isUnsigned c) :
    scanToken isShort isFirst (c :: rest) =
      .ok (scanColor (c :: rest) <|> scanQuoted (c :: rest) <|> scanBracket (c :: rest) <|>
        scanOperator (c :: rest) <|> scanWhiteSpace (c :: rest) <|>
        scanLiteral isShort isFirst (c :: rest)) := by
  have noNumber := scanNumber_unsigned rest unsigned
  simp only [isUnsigned, Bool.and_eq_true, bne_iff_ne] at unsigned
  obtain ⟨⟨⟨notDollar, notDash⟩, _⟩, _⟩ := unsigned
  have noField : FieldMark.scan (c :: rest) = .ok none := by
    unfold FieldMark.scan
    split
    · next same => exact absurd (List.cons.inj same).1 notDollar
    · rfl
  have noProperty : scanCustomProperty (c :: rest) = none := by
    unfold scanCustomProperty
    split
    · next same => exact absurd (List.cons.inj same).1 notDash
    · rfl
  simp only [scanToken, noField, noProperty, noNumber]
  rfl

/-- An operator that is no dash is a token wherever it stands. -/
theorem scanToken_operator {operator : Operator} (notDash : operator ≠ .dash)
    (isShort isFirst : Bool) (rest : List Char) :
    scanToken isShort isFirst (operator.char :: rest) = .ok (some ⟨.operator operator, 1⟩) := by
  cases operator with
  | dash => exact absurd rfl notDash
  | _ => exact scanToken_unsigned isShort isFirst rest rfl

/-- A bracket is read as itself. -/
theorem scanToken_bracket (isOpen isShort isFirst : Bool) (rest : List Char) :
    scanToken isShort isFirst ((if isOpen then '(' else ')') :: rest) =
      .ok (some ⟨.bracket isOpen, 1⟩) := by
  cases isOpen <;> exact scanToken_unsigned isShort isFirst rest rfl

/-- A blank is read as white space if none follows. -/
theorem scanToken_blank (isShort isFirst : Bool) {rest : List Char}
    (ends : ∀ c ∈ rest.head?, CharClass.space c = false) :
    scanToken isShort isFirst (' ' :: rest) = .ok (some ⟨.whiteSpace, 1⟩) := by
  have run : (' ' :: rest).takeWhile CharClass.space = [' '] :=
    takeWhile_run (List.forall_mem_singleton.mpr rfl) ends
  rw [scanToken_unsigned isShort isFirst rest rfl]
  simp [scanWhiteSpace, run, scanColor, scanQuoted, scanBracket, scanOperator, Operator.ofChar?,
    CharClass.quote]

/-- A letter begins a literal. -/
theorem scanToken_letter {c : Char} (isShort isFirst : Bool) (rest : List Char)
    (isLetter : CharClass.letter c) :
    scanToken isShort isFirst (c :: rest) = .ok (scanLiteral isShort isFirst (c :: rest)) := by
  have other {mark : Char} (isMark : CharClass.letter mark = false) : c ≠ mark :=
    ne_of_class isLetter isMark
  have unsigned : isUnsigned c := by
    simp [isUnsigned, other, CharClass.digit_of_letter isLetter, CharClass.letter]
  have noColor : scanColor (c :: rest) = none := by
    unfold scanColor
    split
    · next same => exact absurd (List.cons.inj same).1 (other rfl)
    · rfl
  have noQuote : scanQuoted (c :: rest) = none := by
    simp [scanQuoted, CharClass.quote, other, CharClass.letter]
  have noBracket : scanBracket (c :: rest) = none := by
    unfold scanBracket
    split
    · next same => exact absurd (List.cons.inj same).1 (other rfl)
    · next same => exact absurd (List.cons.inj same).1 (other rfl)
    · rfl
  have noOperator : scanOperator (c :: rest) = none := by
    refine Option.eq_none_iff_forall_ne_some.mpr fun piece found => ?_
    obtain ⟨operator, _, same, _⟩ := scanOperator_some found
    cases operator <;> exact other rfl (List.cons.inj same).1
  have noBlank : scanWhiteSpace (c :: rest) = none := by
    simp [scanWhiteSpace, CharClass.space, other, CharClass.letter]
  rw [scanToken_unsigned isShort isFirst rest unsigned, noColor, noQuote, noBracket, noOperator,
    noBlank]
  rfl

/-- A name of letters is one literal. -/
theorem scanToken_letters (name : Run CharClass.letter) {rest : List Char} (ends : Ends rest)
    (isShort isFirst : Bool) :
    scanToken isShort isFirst (name.text ++ rest) =
      .ok (some ⟨.literal (String.ofList name.text), name.text.length⟩) := by
  obtain ⟨first, others, same, isLetter, letters⟩ := name.exists_cons
  have other {mark : Char} (isMark : CharClass.letter mark = false) : first ≠ mark :=
    ne_of_class isLetter isMark
  have word : CharClass.wordLetter first := by simp [CharClass.wordLetter, isLetter]
  have plain : (others ++ rest).takeWhile isLiteralChar = others :=
    takeWhile_run (fun c member => by simp [isLiteralChar, CharClass.wordLetter, letters c member])
      (ends.head (apart_of_separators (by decide)))
  have keyword : (others ++ rest).takeWhile isKeywordChar = others :=
    takeWhile_run
      (fun c member => by
        simp [isKeywordChar, CharClass.wordOrDigit, CharClass.wordLetter, letters c member])
      (ends.head (apart_of_separators (by decide)))
  have width : literalWidth isShort isFirst (first :: (others ++ rest)) =
      (first :: others).length := by
    simp [literalWidth, other, CharClass.letter, word, plain, keyword, Nat.add_comm]
  rw [same, List.cons_append, scanToken_letter isShort isFirst _ isLetter, scanLiteral, width]
  simp

/-- A quoted string ends at its second mark. -/
theorem scanToken_quoted (written : PlainQuote) (isShort isFirst : Bool) (rest : List Char) :
    scanToken isShort isFirst
        (quoteMark written.isSingle :: (written.text ++ [quoteMark written.isSingle]) ++ rest) =
      .ok (some ⟨.quoted (String.ofList written.text) written.isSingle,
        written.text.length + 2⟩) := by
  obtain ⟨isSingle, text, free⟩ := written
  have unsigned : isUnsigned (quoteMark isSingle) := by cases isSingle <;> rfl
  have quotes : CharClass.quote (quoteMark isSingle) := by cases isSingle <;> rfl
  have noColor (behind : List Char) : scanColor (quoteMark isSingle :: behind) = none := by
    cases isSingle <;> rfl
  have single : (quoteMark isSingle == '\'') = isSingle := by cases isSingle <;> rfl
  have run : (text ++ quoteMark isSingle :: rest).takeWhile (· != quoteMark isSingle) = text :=
    takeWhile_run (fun c member => bne_iff_ne.mpr fun same => free (same ▸ member)) (by simp)
  rw [List.cons_append, List.append_assoc, List.singleton_append,
    scanToken_unsigned isShort isFirst _ unsigned, noColor]
  simp [scanQuoted, quotes, run, single]
  omega

/-- The opacity of a color ends with its digits. -/
theorem scanOpacity_places (opacity : Option (Run CharClass.digit)) {rest : List Char}
    (ends : EndsNumber rest) :
    scanOpacity (printPlaces opacity ++ rest) =
      (String.ofList (printPlaces opacity), (printPlaces opacity).length) := by
  cases opacity with
  | none =>
    unfold scanOpacity
    split
    · next same =>
      simp only [printPlaces, List.nil_append] at same
      exact absurd rfl (ends '.' (by rw [same]; rfl)).2
    · rfl
  | some digits =>
    have run := takeWhile_run digits.all fun c front => (ends c front).1
    simp [printPlaces, scanOpacity, run, digits.filled, Nat.add_comm]

/-- A color ends with its digits or its opacity. -/
theorem scanToken_color (written : PlainColor) {rest : List Char} (ends : Ends rest)
    (isShort isFirst : Bool) :
    scanToken isShort isFirst ('#' :: written.raw ++ rest) =
      .ok (some ⟨.color written.meant, written.raw.length + 1⟩) := by
  obtain ⟨digits, opacity⟩ := written
  have behind : ∀ c ∈ (printPlaces opacity ++ rest).head?, CharClass.hexDigit c = false := by
    cases opacity with
    | none => exact ends.head (apart_of_separators (by decide))
    | some places => simp [printPlaces, CharClass.hexDigit, CharClass.digit]
  have run := takeWhile_run digits.all behind
  have alpha := scanOpacity_places opacity (endsNumber_unit .none ends)
  simp only [PlainUnit.print, List.nil_append] at alpha
  have raw : (digits.text ++ (printPlaces opacity ++ rest)).take
      (digits.text.length + (printPlaces opacity).length) =
        digits.text ++ printPlaces opacity := by
    rw [← List.append_assoc, ← List.length_append, List.take_left]
  rw [List.cons_append, scanToken_unsigned isShort isFirst _ rfl]
  simp [scanColor, PlainColor.raw, run, digits.filled, alpha, PlainColor.meant, raw]
  omega

/-- A number begins with a digit, or with a dash and a digit. -/
theorem scanCustomProperty_raw (number : PlainNumber) (rest : List Char) :
    scanCustomProperty (number.raw ++ rest) = none := by
  obtain ⟨isNegative, whole, places, unit⟩ := number
  obtain ⟨first, others, same, isDigit, _⟩ := whole.exists_cons
  have unsigned : first ≠ '-' := ne_of_class isDigit rfl
  unfold scanCustomProperty
  split
  · next dashes =>
    cases isNegative <;> simp [PlainNumber.raw, same, unsigned] at dashes
  · rfl

/-- A number is no field. -/
theorem fieldScan_raw (number : PlainNumber) (rest : List Char) :
    FieldMark.scan (number.raw ++ rest) = .ok none := by
  obtain ⟨isNegative, whole, places, unit⟩ := number
  obtain ⟨first, others, same, isDigit, _⟩ := whole.exists_cons
  have notDollar : first ≠ '$' := ne_of_class isDigit rfl
  unfold FieldMark.scan
  split
  · next mark =>
    cases isNegative <;> simp [PlainNumber.raw, same, notDollar] at mark
  · rfl

/-- A number is read with its value, its digits and its unit. -/
theorem scanToken_number (number : PlainNumber) {rest : List Char} (ends : Ends rest)
    (isShort isFirst : Bool) :
    scanToken isShort isFirst (number.raw ++ number.unit.print ++ rest) =
      .ok (some ⟨.number number.decimal.toFloat (String.ofList number.raw)
        (String.ofList number.unit.print), (number.raw ++ number.unit.print).length⟩) := by
  have noField := fieldScan_raw number (number.unit.print ++ rest)
  have noProperty := scanCustomProperty_raw number (number.unit.print ++ rest)
  rw [← List.append_assoc] at noField noProperty
  simp only [scanToken, noField, noProperty, scanNumber_print number ends]
  rfl

/-- A field is read with its index and its name. -/
theorem scanToken_field (written : PlainField) (isShort isFirst : Bool) (rest : List Char) :
    scanToken isShort isFirst ((PlainAtom.field written).print ++ rest) =
      .ok (some ⟨.field (some written.index) (String.ofList written.name),
        (PlainAtom.field written).print.length⟩) := by
  obtain ⟨index, name, bounded, balanced⟩ := written
  have filled : Nat.toDigits 10 index ≠ [] := Nat.toDigits_ne_nil
  have decimal : ∀ c ∈ Nat.toDigits 10 index, CharClass.digit c :=
    fun c member => Digits.digit_of_mem_toDigits member
  have spells : FieldMark.Spells ⟨some index, String.ofList name⟩
      (PlainAtom.field ⟨index, name, bounded, balanced⟩).print := by
    rw [← Digits.word?_toDigits bounded]
    by_cases empty : name = []
    · subst empty
      simpa [PlainAtom.print, PlainField.printName] using FieldMark.Spells.numbered filled decimal
    · simpa [PlainAtom.print, PlainField.printName, empty] using
        FieldMark.Spells.captioned filled decimal balanced
  simp only [scanToken, spells.scan rest]

/-! ### Kinds of tokens -/

/-- The token that an atom is written as. -/
def PlainAtom.kind : PlainAtom → Token.Kind
  | .keyword name => .literal (String.ofList name.text)
  | .number written =>
    .number written.decimal.toFloat (String.ofList written.raw)
      (String.ofList written.unit.print)
  | .color written => .color written.meant
  | .quoted written => .quoted (String.ofList written.text) written.isSingle
  | .field written => .field (some written.index) (String.ofList written.name)

/-- An atom is one token wherever it stands. -/
theorem scanToken_atom (atom : PlainAtom) {rest : List Char} (ends : Ends rest)
    (isShort isFirst : Bool) :
    scanToken isShort isFirst (atom.print ++ rest) =
      .ok (some ⟨atom.kind, atom.print.length⟩) := by
  cases atom with
  | keyword name => exact scanToken_letters name ends isShort isFirst
  | number written => exact scanToken_number written ends isShort isFirst
  | color written => exact scanToken_color written ends isShort isFirst
  | quoted written =>
    simpa [PlainAtom.print, PlainAtom.kind] using scanToken_quoted written isShort isFirst rest
  | field written => exact scanToken_field written isShort isFirst rest

/-- What an atom is written as does not begin with a blank. -/
theorem PlainAtom.print_cons (atom : PlainAtom) :
    ∃ first text, atom.print = first :: text ∧ CharClass.space first = false := by
  cases atom with
  | keyword name =>
    obtain ⟨first, others, same, isLetter, _⟩ := name.exists_cons
    exact ⟨first, others, same, by
      simp [CharClass.space, ne_of_class isLetter, CharClass.letter]⟩
  | number written =>
    obtain ⟨isNegative, whole, places, unit⟩ := written
    obtain ⟨first, others, same, isDigit, _⟩ := whole.exists_cons
    cases isNegative with
    | true => exact ⟨'-', _, rfl, rfl⟩
    | false =>
      refine ⟨first, others ++ printPlaces places ++ unit.print, ?_, ?_⟩
      · simp [PlainAtom.print, PlainNumber.raw, same]
      · simp [CharClass.space, ne_of_class isDigit, CharClass.digit]
  | color written => exact ⟨'#', _, rfl, rfl⟩
  | quoted written =>
    refine ⟨_, _, rfl, ?_⟩
    cases written.isSingle <;> rfl
  | field written => exact ⟨'$', _, rfl, rfl⟩

end Shorthand.Stylesheet
