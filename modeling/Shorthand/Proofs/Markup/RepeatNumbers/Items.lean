import Shorthand.Proofs.Markup.Verbatim

/-!
# Numbered items as they are written

A number of copies is written with dollar signs and a base. It is read as one token wherever no
digit stands behind it. Items with such a number in their class, on their own and below a list
that repeats them, are read as the statements that they look like.
-/

namespace Shorthand.Markup

/-! ### The written number -/

/-- The number of a copy, as it is written with its base. -/
structure NumberMark where
  /-- How many digits the number has at least. -/
  size : Nat
  isReverse : Bool
  /-- How many repeats the number looks up. -/
  parent : Nat
  base : Nat
  filled : 0 < size
  bounded : base < Digits.wordLimit

namespace NumberMark

/-- The marks and the digits behind the dollar signs and the at sign. -/
def printBase (mark : NumberMark) : List Char :=
  List.replicate mark.parent '^' ++
    ((if mark.isReverse then ['-'] else []) ++ Nat.toDigits 10 mark.base)

/-- Dollar signs, an at sign, carets, a dash and the base. -/
def print (mark : NumberMark) : List Char :=
  List.replicate mark.size '$' ++ '@' :: mark.printBase

/-- The token that the number is read as. -/
def kind (mark : NumberMark) : Token.Kind :=
  .repeaterNumber mark.size mark.isReverse mark.base mark.parent

/-- A base begins with no mark. -/
theorem toDigits_head (base : Nat) (rest : List Char) {c : Char}
    (notDigit : CharClass.digit c = false) : (Nat.toDigits 10 base ++ rest).head? ≠ some c := by
  cases digits : Nat.toDigits 10 base with
  | nil => exact absurd digits Nat.toDigits_ne_nil
  | cons first others =>
    rintro same
    have isDigit : CharClass.digit first :=
      Digits.digit_of_mem_toDigits (digits ▸ List.mem_cons_self)
    rw [List.cons_append, List.head?_cons, Option.some.injEq] at same
    rw [same, notDigit] at isDigit
    cases isDigit

/-- As many marks are counted as are written. -/
theorem count_replicate (count : Nat) {c : Char} {rest : List Char} (ends : rest.head? ≠ some c) :
    ((List.replicate count c ++ rest).takeWhile (· == c)).length = count ∧
      (List.replicate count c ++ rest).drop count = rest := by
  have run : (List.replicate count c ++ rest).takeWhile (· == c) = List.replicate count c := by
    refine takeWhile_run (fun other member => ?_) (fun other first => ?_)
    · simp [List.eq_of_mem_replicate member]
    · rw [beq_eq_false_iff_ne]
      rintro rfl
      exact ends first
  exact ⟨by rw [run, List.length_replicate], List.drop_left' List.length_replicate⟩

/-- A written number is scanned as one token, if no digit stands behind it. -/
theorem scanned (mark : NumberMark) {rest : List Char}
    (ends : ∀ c ∈ rest.head?, CharClass.digit c = false) :
    scanNumber (mark.print ++ rest) = some ⟨mark.kind, mark.print.length⟩ := by
  obtain ⟨size, isReverse, parent, base, filled, bounded⟩ := mark
  let digits := Nat.toDigits 10 base
  let marked := (if isReverse then ['-'] else []) ++ (digits ++ rest)
  have decimal : ∀ c ∈ digits, CharClass.digit c :=
    fun c member => Digits.digit_of_mem_toDigits member
  -- No part of the mark begins with a sign that the part before it goes on with.
  have noDash : (digits ++ rest).head? ≠ some '-' := toDigits_head base rest (by decide)
  have noCaret : marked.head? ≠ some '^' := by
    cases isReverse with
    | true => simp [marked]
    | false => exact toDigits_head base rest (by decide)
  have noDollar : ('@' :: (List.replicate parent '^' ++ marked)).head? ≠ some '$' := by simp
  have dash : (marked.head? == some '-') = isReverse := by
    cases isReverse with
    | true => rfl
    | false => exact beq_eq_false_iff_ne.mpr noDash
  have behindDash : marked.drop (if isReverse then 1 else 0) = digits ++ rest := by
    cases isReverse <;> rfl
  have whole : print ⟨size, isReverse, parent, base, filled, bounded⟩ ++ rest =
      List.replicate size '$' ++ '@' :: (List.replicate parent '^' ++ marked) := by
    simp [print, printBase, marked, digits]
  have written : digits.isEmpty = false := by simp [digits, Nat.toDigits_ne_nil]
  have value : (Digits.word? digits).getD 1 = base := by rw [Digits.word?_toDigits bounded]; rfl
  have width : (print ⟨size, isReverse, parent, base, filled, bounded⟩).length =
      size + 1 + parent + (if isReverse then 1 else 0) + digits.length := by
    cases isReverse <;> simp [print, printBase, digits] <;> omega
  obtain ⟨dollars, behindDollars⟩ := count_replicate size noDollar
  obtain ⟨carets, behindCarets⟩ := count_replicate parent noCaret
  rw [whole, width]
  simp only [scanNumber, dollars, behindDollars, carets, behindCarets, dash, behindDash,
    takeWhile_run decimal ends, written, value, kind, Bool.false_eq_true, if_false,
    if_neg (Nat.ne_of_gt filled)]

/-- A written number begins neither a field nor the place of the wrapped text. -/
theorem print_cons (mark : NumberMark) :
    ∃ next others, mark.print = '$' :: next :: others ∧ (next = '$' ∨ next = '@') := by
  obtain ⟨size, isReverse, parent, base, filled, bounded⟩ := mark
  obtain ⟨size, rfl⟩ := Nat.exists_eq_succ_of_ne_zero (Nat.ne_of_gt filled)
  cases size with
  | zero => exact ⟨'@', _, rfl, .inr rfl⟩
  | succ size => exact ⟨'$', _, rfl, .inl rfl⟩

/-- A written number is read as one token. -/
theorem lexes (mark : NumberMark) (depths : Depths) {rest : List Char}
    (ends : ∀ c ∈ rest.head?, CharClass.digit c = false) :
    Lexes depths mark.print rest [mark.kind] depths := by
  have scanned := mark.scanned ends
  obtain ⟨next, others, printed, isNext⟩ := mark.print_cons
  rw [printed, List.cons_append, List.length_cons] at scanned
  have noField : FieldMark.scan ('$' :: (next :: others ++ rest)) = .ok none := by
    obtain rfl | rfl := isNext <;> rfl
  have noPlace : scanPlaceholder ('$' :: (next :: others ++ rest)) = none := by
    obtain rfl | rfl := isNext <;> rfl
  rw [printed]
  exact .dollar noField (by rw [noPlace, scanned]; rfl)

end NumberMark

/-! ### Numbered items -/

/-- Items with a numbered class, as they are written. -/
def printItems (mark : NumberMark) (count : CopyCount) : List Char :=
  "li".toList ++ '.' :: ("x".toList ++ (mark.print ++ printCount (some count)))

/-- Lists of numbered items, as they are written. -/
def printLists (lists : CopyCount) (mark : NumberMark) (count : CopyCount) : List Char :=
  "ul".toList ++ (printCount (some lists) ++ '>' :: printItems mark count)

/-- The tokens of numbered items. -/
def itemKinds (mark : NumberMark) (count : CopyCount) : List Token.Kind :=
  [.literal "li", .operator .className, .literal "x", mark.kind, .repeater count.value false]

/-- A name of plain characters in front of what ends it. -/
theorem lexes_name {name : String} {rest : List Char} (named : name.toList ≠ [])
    (plain : name.toList.all isPlainNameChar) (ends : EndsLiteral (inGroups 0) rest) :
    Lexes (inGroups 0) name.toList rest [.literal name] (inGroups 0) :=
  lexes_plain rfl rfl named (List.all_eq_true.mp plain) ends

/-- Numbered items are read as their tokens. -/
theorem lexes_items (mark : NumberMark) (count : CopyCount) :
    Lexes (inGroups 0) (printItems mark count) [] (itemKinds mark count) (inGroups 0) := by
  have border := borders_count (some count) borders_nil
  have dotEnds (rest : List Char) : EndsLiteral (inGroups 0) ('.' :: rest) :=
    endsLiteral_cons rest (by decide) (by decide) (.inl rfl)
  have numberEnds : EndsLiteral (inGroups 0) (mark.print ++ printCount (some count) ++ []) := by
    obtain ⟨next, others, printed, -⟩ := mark.print_cons
    rw [printed]
    exact endsLiteral_cons _ (by decide) (by decide) (.inl rfl)
  have name (rest : List Char) :
      Lexes (inGroups 0) "li".toList ('.' :: rest) [.literal "li"] (inGroups 0) :=
    lexes_name (by decide) (by decide) (dotEnds rest)
  have dot (rest : List Char) :
      Lexes (inGroups 0) ['.'] rest [.operator .className] (inGroups 0) :=
    Lexes.mark rfl (dotEnds rest) rfl
  have label : Lexes (inGroups 0) "x".toList _ [.literal "x"] (inGroups 0) :=
    lexes_name (by decide) (by decide) numberEnds
  have number : Lexes (inGroups 0) mark.print _ [mark.kind] (inGroups 0) :=
    mark.lexes (inGroups 0) border.notDigit
  have numbered := number.append (lexes_count 0 (some count) borders_nil)
  exact (name _).append ((dot _).append (label.append numbered rfl) rfl) rfl

/-- Lists of numbered items are read as their tokens. -/
theorem lexes_lists (lists : CopyCount) (mark : NumberMark) (count : CopyCount) :
    Lexes (inGroups 0) (printLists lists mark count) []
      (.literal "ul" :: .repeater lists.value false :: .operator .child :: itemKinds mark count)
      (inGroups 0) := by
  have child (rest : List Char) : Lexes (inGroups 0) ['>'] rest [.operator .child] (inGroups 0) :=
    Lexes.mark rfl (endsLiteral_cons rest (by decide) (by decide) (.inl rfl)) rfl
  have border := borders_cons (c := '>') (printItems mark count ++ []) (by decide)
  have name : Lexes (inGroups 0) "ul".toList _ [.literal "ul"] (inGroups 0) :=
    lexes_name (by decide) (by decide) ((borders_count (some lists) border).endsLiteral 0)
  have copies := lexes_count 0 (some lists) border
  exact name.append (copies.append ((child _).append (lexes_items mark count) rfl))

/-! ### The statements of numbered items -/

/-- The head of numbered items: the tokens of the class are a literal and the number. -/
structure IsItem (mark : NumberMark) (count : CopyCount) (head : Head) : Prop where
  name : head.name.map (List.map Token.kind) = some [.literal "li"]
  attributes : ∃ label number, label.kind = .literal "x" ∧ number.kind = mark.kind ∧
    head.attributes =
      some [⟨some [impliedLiteral "class"], some [label, number], false, false⟩]
  value : head.value = none
  repetition : head.repetition = some count.repetition
  notClosing : head.isSelfClosing = false

/-- Numbered items are read as one element. -/
theorem readHead_items (jsx : Bool) {mark : NumberMark} {count : CopyCount} {tokens : List Token}
    (same : tokens.map Token.kind = itemKinds mark count) :
    ∃ head, IsItem mark count head ∧ readHead jsx tokens = .ok (some (head, [])) := by
  simp only [itemKinds, List.map_eq_cons_iff, List.map_eq_nil_iff] at same
  obtain ⟨name, _, rfl, isName, dot, _, rfl, isDot, label, _, rfl, isLabel, number, _, rfl,
    isNumber, counted, _, rfl, isCount, rfl⟩ := same
  let written : AttributeTokens :=
    ⟨some [impliedLiteral "class"], some [label, number], false, false⟩
  have noRepeat : dot.repeat? = none := by simp [Token.repeat?, isDot]
  have noText : readText [dot, label, number, counted] = none := by
    simp [readText, Token.isBracket, isDot]
  have repeats : counted.repeat? = some count.repetition := by
    simp [Token.repeat?, isCount, CopyCount.repetition]
  have read : readAttributes jsx [dot, label, number, counted] =
      .ok (some ([written], [counted])) := by
    simp [readAttributes, readShortAttribute, readText, readLiteral, Token.isOperator,
      Token.isBracket, Token.separatesLiterals, isDot, isLabel, isNumber, isCount,
      NumberMark.kind, written]
  have noEnd : Ends [] := fun token first => by cases first
  have extended : extendHead jsx ⟨some [name], none, none, none, false⟩
      [dot, label, number, counted] =
        .ok (⟨some [name], some [written], none, some count.repetition, false⟩, []) := by
    rw [extendHead_attributes _ noRepeat noText read, extendHead_repeat [] rfl rfl repeats,
      extendHead_ends noEnd]
    rfl
  have apart : Apart [dot, label, number, counted] := by simp [Apart, Token.isNamePart, isDot]
  have noComponent : (jsx && name.isCapitalized) = false := by
    rw [Token.isCapitalized, isName]
    exact Bool.and_false jsx
  refine ⟨_, ?_, readHead_extended noComponent isName apart extended rfl⟩
  exact ⟨by simp [isName], ⟨label, number, isLabel, isNumber, rfl⟩, rfl, rfl, rfl⟩

/-- The abbreviation of numbered items is one element. -/
theorem statements_items (jsx : Bool) (mark : NumberMark) (count : CopyCount) :
    ∃ head, IsItem mark count head ∧
      statements jsx (String.ofList (printItems mark count)) = .ok [.element head []] := by
  obtain ⟨tokens, same, lexed⟩ := (lexes_items mark count).tokens
  obtain ⟨head, isItem, read⟩ := readHead_items jsx same
  refine ⟨head, isItem, ?_⟩
  rw [statements_eq lexed, mapError_within_eq_ok_iff]
  simp only [statementsOfTokens, readStatements_head .top [] read, Place.put, readStatements]
  rfl

/-- The abbreviation of lists of numbered items is an element below another one. -/
theorem statements_lists (jsx : Bool) (lists : CopyCount) (mark : NumberMark)
    (count : CopyCount) :
    ∃ list head, IsItem mark count head ∧ list.kind = .literal "ul" ∧
      statements jsx (String.ofList (printLists lists mark count)) =
        .ok [.element ⟨some [list], none, none, some lists.repetition, false⟩
          [.element head []]] := by
  obtain ⟨tokens, same, lexed⟩ := (lexes_lists lists mark count).tokens
  simp only [List.map_eq_cons_iff] at same
  obtain ⟨list, _, rfl, isList, counted, _, rfl, isCount, child, items, rfl, isChild, same⟩ := same
  obtain ⟨head, isItem, read⟩ := readHead_items jsx same
  have repeats : counted.repeat? = some lists.repetition := by
    simp [Token.repeat?, isCount, CopyCount.repetition]
  have ends : Ends (child :: items) := by
    intro token first
    cases first
    exact .inl isChild
  have apart : Apart (counted :: child :: items) := by simp [Apart, Token.isNamePart, isCount]
  have noComponent : (jsx && list.isCapitalized) = false := by
    rw [Token.isCapitalized, isList]
    exact Bool.and_false jsx
  -- The list has nothing but its count, and what is below it begins with a child mark.
  have extended :
      extendHead jsx ⟨some [list], none, none, none, false⟩ (counted :: child :: items) =
        .ok (⟨some [list], none, none, some lists.repetition, false⟩, child :: items) := by
    rw [extendHead_repeat _ rfl rfl repeats, extendHead_ends ends]
  have readList := readHead_extended noComponent isList apart extended rfl
  have readAll : readStatements jsx .top [] (list :: counted :: child :: items) =
      .ok ([.element ⟨some [list], none, none, some lists.repetition, false⟩
        [.element head []]], []) := by
    rw [readStatements_head .top [] readList, put_child _ _ _ isChild,
      readStatements_head _ [] read, Place.put, readStatements]
    rfl
  refine ⟨list, head, isItem, isList, ?_⟩
  rw [statements_eq lexed, mapError_within_eq_ok_iff]
  simp only [statementsOfTokens, readAll]

end Shorthand.Markup
