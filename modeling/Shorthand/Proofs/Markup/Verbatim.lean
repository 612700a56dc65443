import Shorthand.Proofs.Markup.Outline.RoundTrip
import Shorthand.Proofs.Markup.TokenCover
import Shorthand.Proofs.Text.Run

/-!
# Texts without marks

Between braces or quotes no character is an operator, so a text without dollar signs and
backslashes should be the value that it is written as. Blanks and repeat counts are still
tokens of their own as long as nothing else stands before them, and a count is printed anew
from its number: `recounted` is the text that comes back. It is the text itself exactly when
the counts it begins with are written as numbers are printed.
-/

namespace Shorthand.Markup

/-! ### The text that comes back -/

/-- The digits of a count as they are printed from its number. -/
def reprinted (digits : List Char) : List Char :=
  if digits = [] then [] else Nat.toDigits 10 (countOf digits)

/-- A text with the counts it begins with printed anew. -/
def recounted : List Char → List Char
  | [] => []
  | c :: rest =>
    if CharClass.space c then
      c :: recounted rest
    else if c = '*' then
      '*' :: (reprinted (rest.takeWhile CharClass.digit) ++
        recounted (rest.dropWhile CharClass.digit))
    else
      c :: rest
termination_by text => text.length
decreasing_by
  · simp
  · exact Nat.lt_succ_of_le (length_dropWhile_le CharClass.digit rest)

/-- The digits of the counts that a text begins with. -/
def leadingCounts : List Char → List (List Char)
  | [] => []
  | c :: rest =>
    if CharClass.space c then
      leadingCounts rest
    else if c = '*' then
      rest.takeWhile CharClass.digit :: leadingCounts (rest.dropWhile CharClass.digit)
    else
      []
termination_by text => text.length
decreasing_by
  · simp
  · exact Nat.lt_succ_of_le (length_dropWhile_le CharClass.digit rest)

/-- Nothing is written, or a machine word as it is printed. -/
def IsNumeral (digits : List Char) : Prop :=
  digits = [] ∨ ∃ number < Digits.wordLimit, digits = Nat.toDigits 10 number

/-- Reprinted digits are decimal digits. -/
theorem reprinted_decimal (digits : List Char) : ∀ c ∈ reprinted digits, CharClass.digit c := by
  intro c member
  unfold reprinted at member
  split at member
  · cases member
  · exact Digits.digit_of_mem_toDigits member

/-- Digits are reprinted as they are if they are a numeral. -/
theorem reprinted_eq_iff (digits : List Char) : reprinted digits = digits ↔ IsNumeral digits := by
  unfold reprinted
  split
  case isTrue empty => simp [IsNumeral, empty]
  case isFalse filled =>
    constructor
    · intro printed
      refine .inr ⟨countOf digits, ?_, printed.symm⟩
      unfold countOf
      split
      · next fits => exact fits.2
      · decide
    · rintro (empty | ⟨number, bounded, rfl⟩)
      · exact absurd empty filled
      · simp [countOf, Nat.toDigits_ne_nil, Digits.natOf_toDigits, bounded]

/-- Blanks in front come back as they are. -/
theorem recounted_blanks {blanks : List Char} (blank : ∀ c ∈ blanks, CharClass.space c)
    (rest : List Char) : recounted (blanks ++ rest) = blanks ++ recounted rest := by
  induction blanks with
  | nil => rfl
  | cons c blanks ih =>
    obtain ⟨blankFirst, blankOthers⟩ := List.forall_mem_cons.mp blank
    rw [List.cons_append, recounted, if_pos blankFirst, ih blankOthers, List.cons_append]

/-- Printing counts anew keeps the first character. -/
theorem head?_recounted (text : List Char) : (recounted text).head? = text.head? := by
  fun_cases recounted text <;> rfl

/-- A text comes back as it is exactly when the counts it begins with are printed alike. -/
theorem recounted_eq_iff (text : List Char) :
    recounted text = text ↔ ∀ digits ∈ leadingCounts text, IsNumeral digits := by
  fun_induction recounted text with
  | case1 => simp [leadingCounts]
  | case2 c rest blank ih =>
    rw [leadingCounts, if_pos blank, ← ih, List.cons.injEq, eq_self, true_and]
  | case3 rest notBlank ih =>
    have decimal : ∀ c ∈ rest.takeWhile CharClass.digit, CharClass.digit c :=
      fun c member => List.mem_takeWhile_imp member
    have ends := head?_dropWhile_run CharClass.digit rest
    have endsAnew : ∀ c ∈ (recounted (rest.dropWhile CharClass.digit)).head?,
        CharClass.digit c = false := by
      rw [head?_recounted]
      exact ends
    have apart := append_eq_append_of_run
      (reprinted_decimal (rest.takeWhile CharClass.digit)) decimal endsAnew ends
    rw [List.takeWhile_append_dropWhile] at apart
    rw [leadingCounts, if_neg notBlank, if_pos rfl, List.forall_mem_cons, ← ih,
      ← reprinted_eq_iff, List.cons.injEq, eq_self, true_and, apart]
  | case4 c rest notBlank notStar =>
    rw [leadingCounts, if_neg notBlank, if_neg notStar]
    simp

/-- A count loses its leading zero, and a count beyond a machine word becomes one. -/
example : recounted " *02*18446744073709551616 *7b*03".toList = " *2*1 *7b*03".toList := by
  decide +kernel

/-! ### Its tokens -/

/-- The tokens of a text: blanks and counts as long as they stand in front, and the rest as one
literal. -/
def verbatimKinds : List Char → List Token.Kind
  | [] => []
  | c :: rest =>
    if CharClass.space c then
      .whiteSpace (String.ofList (c :: rest.takeWhile CharClass.space)) ::
        verbatimKinds (rest.dropWhile CharClass.space)
    else if c = '*' then
      let digits := rest.takeWhile CharClass.digit
      .repeater (countOf digits) digits.isEmpty ::
        verbatimKinds (rest.dropWhile CharClass.digit)
    else
      [.literal (String.ofList (c :: rest))]
termination_by text => text.length
decreasing_by
  · exact Nat.lt_succ_of_le (length_dropWhile_le CharClass.space rest)
  · exact Nat.lt_succ_of_le (length_dropWhile_le CharClass.digit rest)

/-- No field, number or escape begins in a text. -/
def IsVerbatim (text : List Char) : Prop := ∀ c ∈ text, c ≠ '$' ∧ c ≠ '\\'

/-- A character of the blanks and counts that a text may begin with. -/
def isCounted (c : Char) : Bool := CharClass.space c || c == '*' || CharClass.digit c

/-- At these depths the texts that are admitted are read as one literal up to the mark that
closes them. -/
structure Delimits (depths : Depths) (closing : Char) (Admits : List Char → Prop) : Prop where
  /-- A text is one literal. -/
  run : ∀ {text : List Char}, IsVerbatim text → Admits text → ∀ rest previous,
    literalRun depths.expression depths previous (text ++ closing :: rest) =
      ⟨text, text.length, depths.expression⟩
  /-- A text is admitted whatever blanks and counts stand before it. -/
  behind : ∀ {front text : List Char}, (∀ c ∈ front, isCounted c) → Admits (front ++ text) →
    Admits text
  uncounted : isCounted closing = false

/-- Where a run of blanks or digits ends, it ends in front of the closing mark too. -/
theorem head?_append_cons {test : Char → Bool} {text : List Char} (rest : List Char)
    {closing : Char} (ends : ∀ c ∈ text.head?, test c = false) (stops : test closing = false) :
    ∀ c ∈ (text ++ closing :: rest).head?, test c = false := by
  cases text with
  | nil => simpa using stops
  | cons first others => exact ends

/-- A text that is admitted is read as its tokens, up to the mark that closes it. -/
theorem Delimits.lexes {depths : Depths} {closing : Char} {Admits : List Char → Prop}
    (delimits : Delimits depths closing Admits) {text : List Char} (verbatim : IsVerbatim text)
    (admitted : Admits text) (rest : List Char) :
    Lexes depths text (closing :: rest) (verbatimKinds text) depths := by
  have uncounted := delimits.uncounted
  simp only [isCounted, Bool.or_eq_false_iff] at uncounted
  obtain ⟨⟨noBlank, _⟩, noDigit⟩ := uncounted
  -- The readers meet what the run of blanks or digits in front leaves.
  have passed {test : Char → Bool} {first : Char} {others : List Char}
      (counted : ∀ c, test c → isCounted c) (countedFirst : isCounted first)
      (verbatim : IsVerbatim (first :: others)) (admitted : Admits (first :: others)) :
      IsVerbatim (others.dropWhile test) ∧ Admits (others.dropWhile test) := by
    have split : first :: others = (first :: others.takeWhile test) ++ others.dropWhile test := by
      rw [List.cons_append, List.takeWhile_append_dropWhile]
    refine ⟨fun c member => verbatim c (List.mem_cons_of_mem first
      ((List.dropWhile_sublist test).subset member)), ?_⟩
    refine delimits.behind ?_ (split ▸ admitted)
    exact List.forall_mem_cons.mpr
      ⟨countedFirst, fun c member => counted c (List.mem_takeWhile_imp member)⟩
  fun_induction verbatimKinds text with
  | case1 => exact Lexes.nil _ _
  | case2 c others blank ih =>
    have countedBlank : ∀ c, CharClass.space c → isCounted c := by
      intro c isBlank
      simp [isCounted, isBlank]
    obtain ⟨verbatimBehind, admittedBehind⟩ :=
      passed countedBlank (countedBlank c blank) verbatim admitted
    have blanks : ∀ other ∈ c :: others.takeWhile CharClass.space, CharClass.space other :=
      List.forall_mem_cons.mpr ⟨blank, fun other member => List.mem_takeWhile_imp member⟩
    have stops := head?_append_cons rest (head?_dropWhile_run CharClass.space others) noBlank
    have first : Lexes depths _ _ _ depths := .blanks blanks stops
    have whole := first.append (ih verbatimBehind admittedBehind) rfl
    rwa [List.cons_append, List.takeWhile_append_dropWhile] at whole
  | case3 others digits notBlank ih =>
    have countedDigit : ∀ c, CharClass.digit c → isCounted c := by
      intro c isDigit
      simp [isCounted, isDigit]
    obtain ⟨verbatimBehind, admittedBehind⟩ :=
      passed countedDigit (by rfl) verbatim admitted
    have decimal : ∀ c ∈ digits, CharClass.digit c := fun c member => List.mem_takeWhile_imp member
    have stops := head?_append_cons rest (head?_dropWhile_run CharClass.digit others) noDigit
    have first : Lexes depths _ _ _ depths := .repeater decimal stops
    rw [← countOf_eq digits decimal] at first
    have whole := first.append (ih verbatimBehind admittedBehind) rfl
    rwa [List.cons_append, List.takeWhile_append_dropWhile] at whole
  | case4 c others notBlank notStar =>
    have unmarked : isUnmarked c := by
      simp [isUnmarked, (verbatim c List.mem_cons_self).1, notStar, notBlank]
    exact Lexes.literal unmarked fun previous => delimits.run verbatim admitted rest previous

/-- The reader stands inside of the text of an element, behind further braces that are pending. -/
def inBraces (depth : Int) (pending : Nat) : Depths :=
  { inText depth with expression := pending + 1 }

/-- Inside of a text only braces matter. -/
theorem inBraces_goesOn (depth : Int) (pending : Nat) {c : Char} (notDollar : c ≠ '$')
    (previous : Option Char) (rest : List Char) :
    endsLiteral (inBraces depth pending) c = false ∧
      joinsDigits (inBraces depth pending) previous rest = false := by
  have positive : ¬ (pending : Int) + 1 ≤ 0 := by omega
  have notZero : (pending : Int) + 1 ≠ 0 := by omega
  constructor
  · cases operator : Operator.ofChar? c <;>
      simp [endsLiteral, Depths.admitsOperator, operator, notDollar, inBraces, inText, positive]
  · simp [joinsDigits, inBraces, notZero]

/-- A character that does not close the innermost of the `outer` braces belongs to a literal that
began behind them. -/
theorem literalRun_inBraces_cons (depth : Int) (outer : Nat) {pending next : Nat} {c : Char}
    (notDollar : c ≠ '$') (notEscape : c ≠ '\\')
    (step : Pairing.braceDepth? pending [c] = some next) (rest : List Char)
    (previous : Option Char) :
    literalRun (outer + 1) (inBraces depth (outer + pending)) previous (c :: rest) =
      (literalRun (outer + 1) (inBraces depth (outer + next)) (some c) rest).cons c 1 := by
  obtain ⟨goesOn, noSlash⟩ := inBraces_goesOn depth (outer + pending) notDollar previous rest
  have based : (0 : Int) < outer + 1 := by omega
  simp only [Pairing.braceDepth?, Pairing.depthBehind?, beq_iff_eq] at step
  rw [literalRun.eq_def]
  simp only [notEscape, if_false, noSlash, goesOn, Bool.and_false, Bool.false_eq_true, based,
    if_true]
  -- A brace moves both counts alike, as long as the inner one does not come below where it began.
  split at step
  case isTrue isOpen =>
    cases step
    have deeper : { inBraces depth (outer + pending) with
        expression := (inBraces depth (outer + pending)).expression + 1 } =
          inBraces depth (outer + (pending + 1)) := by simp [inBraces, Int.add_assoc]
    rw [if_pos isOpen, deeper]
  case isFalse notOpen =>
    rw [if_neg notOpen]
    split at step
    case isTrue isClosed =>
      cases pending with
      | zero => cases step
      | succ pending =>
        cases step
        have shallower : { inBraces depth (outer + (next + 1)) with
            expression := (inBraces depth (outer + (next + 1))).expression - 1 } =
              inBraces depth (outer + next) := by simp [inBraces, ← Int.add_assoc]
        have further : (outer : Int) + 1 < (inBraces depth (outer + (next + 1))).expression := by
          simp only [inBraces]
          omega
        rw [if_pos isClosed, if_pos further, shallower]
    case isFalse notClosed =>
      cases step
      rw [if_neg notClosed]

/-- A literal that begins behind `outer` braces goes on to the next dollar sign, or to the brace
that closes the innermost of these. The further braces it leads into are pending behind it. -/
theorem literalRun_inBraces (depth : Int) (outer pending : Nat) {text : List Char}
    (unescaped : '\\' ∉ text) (closed : Pairing.braceDepth? (outer + pending) text = some 0)
    (rest : List Char) :
    ∃ front behind reached, text = front ++ behind ∧ '$' ∉ front ∧
      Pairing.braceDepth? pending front = some reached ∧
      (behind.head? = some '$' ∨ reached = 0 ∧ ∀ c ∈ behind.head?, c = '}') ∧
      ∀ previous,
        literalRun (outer + 1) (inBraces depth (outer + pending)) previous (text ++ '}' :: rest) =
          ⟨front, front.length, (inBraces depth (outer + reached)).expression⟩ := by
  have closes (rest : List Char) (previous : Option Char) :
      literalRun (outer + 1) (inBraces depth outer) previous ('}' :: rest) =
        ⟨[], 0, (inBraces depth outer).expression⟩ := by
    have deep : 0 < (inBraces depth outer).expression := by
      simp only [inBraces]
      omega
    exact endsLiteral_cons rest (by decide) (by decide) (.inr (.inl ⟨deep, rfl⟩)) previous
  -- By induction on the text: it stops at a dollar sign, or at the brace that closes more than the
  -- text has opened; any other character is put in front of what is read behind it.
  induction text generalizing pending with
  | nil =>
    obtain ⟨rfl, rfl⟩ : outer = 0 ∧ pending = 0 := by
      simpa [Pairing.braceDepth?, Pairing.depthBehind?] using closed
    exact ⟨[], [], 0, rfl, List.not_mem_nil, rfl, .inr ⟨rfl, by simp⟩, closes rest⟩
  | cons c others ih =>
    obtain ⟨notEscape, unescapedBehind⟩ := List.ne_and_not_mem_of_not_mem_cons unescaped
    by_cases isDollar : c = '$'
    · refine ⟨[], c :: others, pending, rfl, List.not_mem_nil, rfl,
        .inl (by rw [isDollar, List.head?_cons]), fun previous => ?_⟩
      rw [List.cons_append, literalRun.eq_def]
      simp [isDollar, endsLiteral]
    · cases step : Pairing.braceDepth? pending [c] with
      | none =>
        obtain ⟨rfl, rfl⟩ := Pairing.braceDepth?_singleton_eq_none step
        exact ⟨[], '}' :: others, 0, rfl, List.not_mem_nil, rfl, .inr ⟨rfl, by simp⟩,
          closes _⟩
      | some next =>
        have stepOut := Pairing.depthBehind?_add outer step
        rw [← List.singleton_append, Pairing.braceDepth?, Pairing.depthBehind?_append, stepOut]
          at closed
        obtain ⟨front, behind, reached, rfl, noDollar, isReached, stops, read⟩ :=
          ih next unescapedBehind closed
        refine ⟨c :: front, behind, reached, rfl, ?_, ?_, stops, fun previous => ?_⟩
        · exact List.not_mem_cons_of_ne_of_not_mem (Ne.symm isDollar) noDollar
        · rw [← List.singleton_append, Pairing.braceDepth?, Pairing.depthBehind?_append]
          exact Option.bind_eq_some_iff.mpr ⟨next, step, isReached⟩
        · rw [List.cons_append,
            literalRun_inBraces_cons depth outer isDollar (Ne.symm notEscape) step, read]
          rfl

/-- A text that closes the pending braces is read up to the brace that closes them all. -/
theorem literalRun_paired (depth : Int) (pending : Nat) {text : List Char}
    (verbatim : IsVerbatim text) (paired : Pairing.braceDepth? pending text = some 0)
    (rest : List Char) (previous : Option Char) :
    literalRun 1 (inBraces depth pending) previous (text ++ '}' :: rest) =
      ⟨text, text.length, 1⟩ := by
  have unescaped : '\\' ∉ text := fun member => (verbatim _ member).2 rfl
  have noDollar : '$' ∉ text := fun member => (verbatim _ member).1 rfl
  obtain ⟨front, behind, reached, rfl, -, isReached, stops, read⟩ :=
    literalRun_inBraces depth 0 pending unescaped (by rwa [Nat.zero_add]) rest
  rw [Pairing.braceDepth?, Pairing.depthBehind?_append, Option.bind_eq_some_iff] at paired
  obtain ⟨between, isBetween, closed⟩ := paired
  cases behind with
  | nil =>
    obtain ⟨rfl, -⟩ := stops.resolve_left (by simp)
    simpa [inBraces] using read previous
  | cons c behind =>
    rcases stops with isDollar | ⟨rfl, isClosing⟩
    · cases isDollar
      exact absurd (List.mem_append_right front List.mem_cons_self) noDollar
    · -- The brace would close what was never opened.
      obtain rfl : c = '}' := isClosing c rfl
      cases isBetween.symm.trans isReached
      cases closed

/-- Braces delimit the texts in which all braces are paired. -/
theorem delimits_braces (depth : Int) : Delimits (inText depth) '}' Pairing.Balanced where
  run := fun verbatim balanced => literalRun_paired depth 0 verbatim balanced
  behind := by
    intro front text counted balanced
    have neutral : ∀ c ∈ front, (c == '{') = false ∧ (c == '}') = false := by
      intro c member
      have isCounted := counted c member
      constructor <;>
      · rw [beq_eq_false_iff_ne]
        rintro rfl
        exact absurd isCounted (by decide)
    rwa [Pairing.Balanced, Pairing.braceDepth?, Pairing.depthBehind?_append,
      Pairing.depthBehind?_neutral 0 neutral] at balanced
  uncounted := by decide

/-- Inside of quotes, texts without such quotes are read up to the closing quote. -/
theorem literalRun_unquoted (depth : Int) {text : List Char} (verbatim : IsVerbatim text)
    (unquoted : '"' ∉ text) (rest : List Char) (previous : Option Char) :
    literalRun 0 (inQuotes depth) previous (text ++ '"' :: rest) = ⟨text, text.length, 0⟩ := by
  induction text generalizing previous with
  | nil =>
    have ends : EndsLiteral (inQuotes depth) ('"' :: rest) :=
      endsLiteral_cons rest (by decide) (by decide) (.inl rfl)
    exact ends previous
  | cons c others ih =>
    obtain ⟨notDollar, notEscape⟩ := verbatim c List.mem_cons_self
    obtain ⟨notQuote, unquotedBehind⟩ := List.ne_and_not_mem_of_not_mem_cons unquoted
    have read := ih (fun other member => verbatim other (List.mem_cons_of_mem c member))
      unquotedBehind (some c)
    rw [List.cons_append, literalRun.eq_def]
    have goesOn : endsLiteral (inQuotes depth) c = false := by
      cases operator : Operator.ofChar? c <;>
        simp [endsLiteral, Depths.admitsOperator, inQuotes, operator, notDollar, notQuote]
    have goesOnPlain : endsPlainLiteral (inQuotes depth) c = false := rfl
    have noSlash : joinsDigits (inQuotes depth) previous (others ++ '"' :: rest) = false := rfl
    simp [notEscape, noSlash, goesOn, goesOnPlain, read, LiteralRun.cons]

/-- Quotes delimit the texts without such quotes. -/
theorem delimits_quotes (depth : Int) : Delimits (inQuotes depth) '"' ('"' ∉ ·) where
  run := fun verbatim unquoted => literalRun_unquoted depth verbatim unquoted
  behind := fun _ absent present => absent (List.mem_append_right _ present)
  uncounted := by decide

/-! ### Its value -/

/-- A text behind a value that is one text becomes one with it. -/
theorem textValue_pushText (front : String) {text : String} (filled : text ≠ "") :
    (textValue front).pushText text = textValue (front ++ text) := by
  have written : (front ++ text).toList ≠ [] := by
    simpa using fun _ => filled
  simp only [textValue, if_neg written]
  split
  · next empty =>
    have isEmpty : front = "" := by simpa using empty
    simp [isEmpty, Value.pushText, Value.push]
  · simp [Value.pushText, Value.push]

/-- A token that is text goes behind the text before it. -/
theorem tokensValue_text {options : ReadOptions} {enclosing : List Iteration} {token : Token}
    {progress : Progress} {text : String}
    (shown : tokenText options enclosing token progress = (text, progress))
    (noField : ∀ index name, token.kind ≠ .field (some index) name) (front : String)
    (rest : List Token) :
    tokensValue options enclosing (textValue front) (token :: rest) progress =
      tokensValue options enclosing (textValue (front ++ text)) rest progress := by
  rw [tokensValue]
  split
  · next index name isField => exact absurd isField (noField index name)
  · rw [shown]
    by_cases empty : text = ""
    · simp [empty]
    · simp [empty, textValue_pushText front empty]

/-- The value of the tokens of a text is the text with its counts printed anew. -/
theorem tokensValue_verbatim (options : ReadOptions) (enclosing : List Iteration)
    {text : List Char} {tokens : List Token} (same : tokens.map Token.kind = verbatimKinds text)
    (front : String) (progress : Progress) :
    tokensValue options enclosing (textValue front) tokens progress =
      (textValue (front ++ String.ofList (recounted text)), progress) := by
  fun_induction verbatimKinds text generalizing tokens front with
  | case1 =>
    rw [List.map_eq_nil_iff] at same
    simp [same, tokensValue, recounted]
  | case2 c rest blank ih =>
    obtain ⟨token, others, rfl, isBlank, sameOthers⟩ := List.map_eq_cons_iff.mp same
    -- A run of blanks is one token, which is printed as it stands.
    have blanks : ∀ other ∈ c :: rest.takeWhile CharClass.space, CharClass.space other :=
      List.forall_mem_cons.mpr ⟨blank, fun other member => List.mem_takeWhile_imp member⟩
    have split := recounted_blanks blanks (rest.dropWhile CharClass.space)
    rw [List.cons_append, List.takeWhile_append_dropWhile] at split
    rw [tokensValue_text (by rw [tokenText, isBlank]) (by simp [isBlank]), ih sameOthers, split,
      String.ofList_append, String.append_assoc]
  | case3 rest digits notBlank =>
    rename_i ih
    obtain ⟨token, others, rfl, isCount, sameOthers⟩ := List.map_eq_cons_iff.mp same
    -- A star and its digits are a repeater, whose count is printed anew.
    have printed : tokenText options enclosing token progress =
        (String.ofList ('*' :: reprinted digits), progress) := by
      rw [tokenText, isCount]
      simp only [List.isEmpty_iff, reprinted, Prod.mk.injEq, and_true]
      split
      · rfl
      · rw [← String.toList_inj]
        simp
    rw [tokensValue_text printed (by simp [isCount]), ih sameOthers, recounted, if_neg notBlank,
      if_pos rfl, ← List.cons_append, String.ofList_append, String.append_assoc]
  | case4 c rest notBlank notStar =>
    obtain ⟨token, others, rfl, isLiteral, sameOthers⟩ := List.map_eq_cons_iff.mp same
    rw [List.map_eq_nil_iff] at sameOthers
    subst sameOthers
    rw [tokensValue_text (by rw [tokenText, isLiteral]) (by simp [isLiteral]), tokensValue,
      recounted, if_neg notBlank, if_neg notStar]

/-! ### The element around it -/

/-- The tokens of a text are neither brackets nor quotes. -/
theorem verbatimKinds_neutral (text : List Char) : ∀ kind ∈ verbatimKinds text,
    (∀ isOpen enclosure, kind ≠ .bracket isOpen enclosure) ∧
      ∀ isSingle, kind ≠ .quote isSingle := by
  fun_induction verbatimKinds text with
  | case1 => simp
  | case2 c rest blank ih => exact List.forall_mem_cons.mpr ⟨by simp, ih⟩
  | case3 rest digits notBlank =>
    rename_i ih
    exact List.forall_mem_cons.mpr ⟨by simp, ih⟩
  | case4 => simp

/-- A name is extended to a head. -/
theorem readHead_extended {jsx : Bool} {own : Token} {name : String} {tokens left : List Token}
    {head : Head} (noComponent : (jsx && own.isCapitalized) = false)
    (isName : own.kind = .literal name) (apart : Apart tokens)
    (extended : extendHead jsx ⟨some [own], none, none, none, false⟩ tokens = .ok (head, left))
    (carries : head.isEmpty = false) : readHead jsx (own :: tokens) = .ok (some (head, left)) := by
  simp only [readHead, readName_literal noComponent isName apart, List.isEmpty_cons,
    Bool.false_eq_true, if_false, Head.empty, extended, carries]

/-- A name and what extends it to a head are the only statement of an abbreviation. -/
theorem statementsOfTokens_named {jsx : Bool} {own : Token} {name : String} {tokens : List Token}
    {head : Head} (noComponent : (jsx && own.isCapitalized) = false)
    (isName : own.kind = .literal name) (apart : Apart tokens)
    (extended : extendHead jsx ⟨some [own], none, none, none, false⟩ tokens = .ok (head, []))
    (carries : head.isEmpty = false) :
    statementsOfTokens jsx (own :: tokens) = .ok [.element head []] := by
  have read := readHead_extended noComponent isName apart extended carries
  simp only [statementsOfTokens, readStatements_head .top [] read, Place.put, readStatements]
  rfl

/-- The tokens of an element with a name and a text in braces. -/
theorem tokens_braced {name : String} {text : List Char} {kinds : List Token.Kind}
    (named : name.toList ≠ []) (plain : ∀ c ∈ name.toList, isPlainNameChar c)
    (inside : Lexes (inText 0) text ['}'] kinds (inText 0)) :
    ∃ own opening inner closing, own.kind = .literal name ∧
      opening.kind = .bracket true .expression ∧ inner.map Token.kind = kinds ∧
      closing.kind = .bracket false .expression ∧
      tokens (String.ofList (name.toList ++ '{' :: (text ++ ['}']))) =
        .ok (own :: opening :: (inner ++ [closing])) := by
  have ownName : Lexes (inGroups 0) _ _ _ (inGroups 0) := lexes_plain rfl rfl named plain
    ((borders_cons (c := '{') (text ++ ['}'] ++ []) (by decide)).endsLiteral 0)
  obtain ⟨tokens, sameKinds, lexed⟩ := (ownName.append inside.braced rfl).tokens
  simp only [List.cons_append, List.nil_append, List.map_eq_cons_iff, List.map_eq_append_iff,
    List.map_eq_nil_iff] at sameKinds
  obtain ⟨own, _, rfl, isName, opening, _, rfl, opens, inner, _, rfl, sameInner, closing, _, rfl,
    closes, rfl⟩ := sameKinds
  exact ⟨own, opening, inner, closing, isName, opens, sameInner, closes, lexed⟩

/-- An element with a name and a text in braces, none of whose tokens is a brace. -/
theorem statements_braced {jsx : Bool} {name : String} {text : List Char}
    {kinds : List Token.Kind} (named : name.toList ≠ [])
    (plain : ∀ c ∈ name.toList, isPlainNameChar c)
    (noComponent : (jsx && name.toList.head?.any CharClass.capital) = false)
    (inside : Lexes (inText 0) text ['}'] kinds (inText 0))
    (unbraced : ∀ kind ∈ kinds, ∀ isOpen, kind ≠ .bracket isOpen .expression) :
    ∃ own inner, own.kind = .literal name ∧ inner.map Token.kind = kinds ∧
      statements jsx (String.ofList (name.toList ++ '{' :: (text ++ ['}']))) =
        .ok [.element ⟨some [own], none, some inner, none, false⟩ []] := by
  obtain ⟨own, opening, inner, closing, isName, opens, sameInner, closes, lexed⟩ :=
    tokens_braced named plain inside
  refine ⟨own, inner, isName, sameInner, ?_⟩
  have others : ∀ token ∈ inner, ∀ isOpen, token.isBracket .expression isOpen = false := by
    intro token member isOpen
    have neutral := unbraced token.kind (sameInner ▸ List.mem_map_of_mem member) isOpen
    simpa [Token.isBracket] using neutral
  have apart : Apart (opening :: (inner ++ [closing])) := by
    simp [Apart, Token.isNamePart, opens]
  have extended :
      extendHead jsx ⟨some [own], none, none, none, false⟩ (opening :: (inner ++ [closing])) =
        .ok (⟨some [own], none, some inner, none, false⟩, []) := by
    rw [extendHead_braced rfl opens others closes, extendHead]
  rw [statements_eq lexed, mapError_within_eq_ok_iff]
  exact statementsOfTokens_named (by rwa [Token.isCapitalized, isName]) isName apart extended rfl

/-- The tokens of an element with a name and one attribute in double quotes. -/
theorem statements_assigned {name label : String} {text : List Char}
    (named : name.toList ≠ []) (plain : ∀ c ∈ name.toList, isPlainNameChar c)
    (labelled : label.toList ≠ [])
    (plainLabel : ∀ c ∈ label.toList, isPlainNameChar c) (verbatim : IsVerbatim text)
    (unquoted : '"' ∉ text) :
    ∃ own key opening inner closing, own.kind = .literal name ∧ key.kind = .literal label ∧
      opening.kind = .quote false ∧ inner.map Token.kind = verbatimKinds text ∧
      closing.kind = .quote false ∧
      statements false (String.ofList (name.toList ++
          '[' :: (label.toList ++ '=' :: '"' :: (text ++ ['"']) ++ [']']))) =
        .ok [.element ⟨some [own], some [⟨some [key], some (opening :: (inner ++ [closing])), false,
          false⟩], none, none, false⟩ []] := by
  have ownName : Lexes (inGroups 0) _ _ _ (inGroups 0) := lexes_plain rfl rfl named plain
    ((borders_cons (c := '[') (label.toList ++ '=' :: '"' :: (text ++ ['"']) ++ [']'] ++ [])
      (by decide)).endsLiteral 0)
  have inside :=
    (((delimits_quotes 0).lexes verbatim unquoted [']']).assigned labelled
      plainLabel).bracketed
  obtain ⟨tokens, sameKinds, lexed⟩ := (ownName.append inside rfl).tokens
  simp only [List.cons_append, List.nil_append, List.append_assoc, List.map_eq_cons_iff,
    List.map_eq_append_iff, List.map_eq_nil_iff] at sameKinds
  obtain ⟨own, _, rfl, isName, bracket, _, rfl, isBracket, key, _, rfl, isKey, equal, _, rfl,
    isEqual, opening, _, rfl, opens, inner, _, rfl, sameInner, closing, _, rfl, closes, last, _,
    rfl, isLast, rfl⟩ := sameKinds
  refine ⟨own, key, opening, inner, closing, isName, isKey, opens, sameInner, closes, ?_⟩
  -- No token of the text is a double quote, so that the value goes on to the last one.
  have others : ∀ token ∈ inner, token.kind ≠ .quote false := by
    intro token member
    exact (verbatimKinds_neutral text token.kind (sameInner ▸ List.mem_map_of_mem member)).2 false
  have apart : Apart (bracket :: key :: equal :: opening :: (inner ++ [closing, last])) := by
    simp [Apart, Token.isNamePart, isBracket]
  have listRead := readAttributeList_cons
    (readAttribute_assigned isKey isEqual opens others closes [last])
    (readAttributeList_closing [] isLast)
  have extended : extendHead false ⟨some [own], none, none, none, false⟩ (bracket :: _) =
      extendHead false _ [] :=
    extendHead_bracketed ⟨some [own], none, none, none, false⟩ isBracket listRead
  rw [extendHead] at extended
  rw [statements_eq lexed, mapError_within_eq_ok_iff]
  exact statementsOfTokens_named (Bool.false_and _) isName apart extended rfl

/-- The parts of a text tell the text. -/
theorem textValue_inj {first second : String} :
    textValue first = textValue second ↔ first = second := by
  constructor
  · intro same
    unfold textValue at same
    rw [← String.toList_inj]
    split at same <;> split at same <;> simp_all
  · exact congrArg textValue

/-- A single element without a count and a text to wrap is unrolled to one copy of it. -/
theorem nodes_single {options : ReadOptions} (unwrapped : options.text = none) {source : String}
    {head : Head} (found : statements options.jsx source = .ok [.element head []])
    (single : head.repetition = none) :
    nodes options source = .ok (elementCopy options head [] none (fun progress => ([], progress))
      (.start options.maxRepeat)).1 := by
  rw [nodes, found]
  simp only [bind, Except.bind, pure, Except.pure, nodesOfStatements, unwrapped, unrollAll, unroll,
    single, copies, List.append_nil]

/-- A text between braces or double quotes, without dollar signs and backslashes, comes back as
one text in which the counts that it begins with are printed anew. So it is kept exactly when
these counts are written without needless zeros and fit into a machine word. -/
theorem nodes_verbatim (linkAddresses : Bool) (variableTexts : Table) (maxRepeat : Option Nat)
    (text : String) (verbatim : IsVerbatim text.toList) :
    let read := nodes { jsx := false, linkAddresses, text := none, variableTexts, maxRepeat }
    let value := textValue (String.ofList (recounted text.toList))
    (Pairing.Balanced text.toList → read ("p\x7b" ++ text ++ "\x7d") =
        .ok [.node { Element.named "p" with value } []]) ∧
      ('"' ∉ text.toList → read ("p[t=\"" ++ text ++ "\"]") =
        .ok [.node { Element.named "p" with
          attributes := [{ Attribute.named "t" (some value) with kind := .doubleQuoted }] } []]) ∧
      (value = textValue text ↔ ∀ digits ∈ leadingCounts text.toList, IsNumeral digits) := by
  intro read value
  have named : "p".toList ≠ [] := by decide
  have plain : ∀ c ∈ "p".toList, isPlainNameChar c := List.all_eq_true.mp (by decide)
  have labelled : "t".toList ≠ [] := by decide
  have letters : ∀ c ∈ "t".toList, CharClass.letter c := List.all_eq_true.mp (by decide)
  have plainLabel : ∀ c ∈ "t".toList, isPlainNameChar c := List.all_eq_true.mp (by decide)
  have single {token : Token} {label : String} (isLiteral : token.kind = .literal label) :
      [token].map Token.kind = [.literal label] := by
    rw [List.map_singleton, isLiteral]
  have readName {own : Token} (isName : own.kind = .literal "p") (progress : Progress) :=
    tokensText_literal { jsx := false, linkAddresses, text := none, variableTexts, maxRepeat } []
      (single isName) progress
  have readValue {inner : List Token} (same : inner.map Token.kind = verbatimKinds text.toList)
      (progress : Progress) :=
    tokensValue_verbatim { jsx := false, linkAddresses, text := none, variableTexts, maxRepeat } []
      same "" progress
  rw [String.empty_append, show textValue "" = [] from rfl] at readValue
  -- The text is read the same way in braces and in quotes; what differs is only what its end is
  -- told by: balanced braces, or no quote inside.
  refine ⟨fun balanced => ?_, fun unquoted => ?_, ?_⟩
  · obtain ⟨own, inner, isName, same, found⟩ := statements_braced named plain (Bool.false_and _)
      ((delimits_braces 0).lexes verbatim balanced [])
      fun kind member isOpen => (verbatimKinds_neutral text.toList kind member).1 isOpen _
    have source : "p\x7b" ++ text ++ "\x7d" =
        String.ofList ("p".toList ++ '{' :: (text.toList ++ ['}'])) := by
      rw [← String.toList_inj]
      simp
    rw [source]
    refine (nodes_single rfl found rfl).trans ?_
    simp only [elementCopy, readName isName, readValue same, attributesOfTokens, Element.isBare,
      Option.getD_some, Option.getD_none, Option.isNone_some, Bool.false_and, Bool.false_eq_true,
      if_false]
    rfl
  · obtain ⟨own, key, opening, inner, closing, isName, isKey, opens, same, closes, found⟩ :=
      statements_assigned named plain labelled plainLabel verbatim unquoted
    have source : "p[t=\"" ++ text ++ "\"]" = String.ofList ("p".toList ++
        '[' :: ("t".toList ++ '=' :: '"' :: (text.toList ++ ['"']) ++ [']'])) := by
      rw [← String.toList_inj]
      simp
    have assigned := attributeOfTokens_assigned (single isKey) letters opens closes
      (readValue same (.start maxRepeat))
    rw [source]
    refine (nodes_single rfl found rfl).trans ?_
    simp only [elementCopy, readName isName, tokensValue, attributesOfTokens, assigned,
      Element.isBare, Option.getD_some, Option.getD_none, Option.isNone_some, Bool.false_and,
      Bool.false_eq_true, if_false]
    rfl
  · rw [textValue_inj, ← recounted_eq_iff, ← String.toList_inj, String.toList_ofList]

/-- The count that a text begins with loses its leading zero. -/
theorem nodes_verbatim_leadingZero :
    let read := nodes ⟨false, true, none, .empty, none⟩
    IsVerbatim "*02".toList ∧ Pairing.Balanced "*02".toList ∧ '"' ∉ "*02".toList ∧
      read "p\x7b*02\x7d" = .ok [.node { Element.named "p" with value := [.text "*2"] } []] ∧
      read "p[t=\"*02\"]" = .ok [.node { Element.named "p" with
        attributes :=
          [{ Attribute.named "t" (some [.text "*2"]) with kind := .doubleQuoted }] } []] := by
  intro read
  have verbatim : IsVerbatim "*02".toList := by
    simp [IsVerbatim]
  have balanced : Pairing.Balanced "*02".toList := by decide
  have unquoted : '"' ∉ "*02".toList := by decide
  have shown : textValue (String.ofList (recounted "*02".toList)) = [.text "*2"] := by
    decide +kernel
  obtain ⟨braced, quoted, _⟩ := nodes_verbatim true .empty none "*02" verbatim
  rw [shown] at braced quoted
  exact ⟨verbatim, balanced, unquoted, braced balanced, quoted unquoted⟩

end Shorthand.Markup
