import Shorthand.Proofs.Markup.NumberWidths
import Shorthand.Proofs.Markup.Statement.Findings
import Shorthand.Proofs.Markup.Verbatim

/-!
# Where a text in braces ends

Braces inside of a text belong to its literals, but a dollar sign ends a literal. The braces that
are pending there are closed by braces that are tokens of their own, and the reader of statements
takes the first of these for the end of the text. So a text ends at its matching brace exactly if
every dollar sign stands outside of its inner braces.
-/

namespace Shorthand.Markup

/-! ### Tokens of a text -/

/-- The brace that closes a text. -/
def closingBrace : Token.Kind := .bracket false .expression

/-- A kind of token that a text may hold. -/
def Token.Kind.standsInText : Token.Kind → Bool
  | .literal _ | .whiteSpace _ | .repeater _ _ | .repeaterNumber _ _ _ _ => true
  | .repeaterPlaceholder | .bracket false .expression => true
  | _ => false

/-- Every dollar sign of a text stands outside of its inner braces. -/
def NumbersOutside (text : List Char) : Prop :=
  ∀ front rest, text = front ++ '$' :: rest → Pairing.Balanced front

/-- Numbers stand outside if the text in front of each is balanced. -/
theorem numbersOutside_iff {text : List Char} : NumbersOutside text ↔
    ∀ index < text.length, text[index]? = some '$' → Pairing.Balanced (text.take index) := by
  constructor
  · intro all index inside isDollar
    refine all (text.take index) (text.drop (index + 1)) ?_
    rw [List.getElem?_eq_getElem inside, Option.some.injEq] at isDollar
    rw [← isDollar, ← List.drop_eq_getElem_cons inside, List.take_append_drop]
  · rintro all front rest rfl
    have here := all front.length (by simp) (by simp)
    rwa [List.take_left] at here

instance (text : List Char) : Decidable (NumbersOutside text) :=
  decidable_of_iff _ numbersOutside_iff.symm

/-- Behind a part with paired braces, whose own dollar signs stand outside of them, the same is
asked of what follows. -/
theorem numbersOutside_append {front : List Char} (balanced : Pairing.Balanced front)
    (outside : NumbersOutside front) (behind : List Char) :
    NumbersOutside (front ++ behind) ↔ NumbersOutside behind := by
  have further (inner : List Char) :
      Pairing.Balanced (front ++ inner) ↔ Pairing.Balanced inner := by
    rw [Pairing.Balanced, Pairing.braceDepth?, Pairing.depthBehind?_append, show
      Pairing.depthBehind? (· == '{') (· == '}') 0 front = some 0 from balanced]
    rfl
  constructor
  · rintro all inner rest rfl
    exact (further inner).mp (all (front ++ inner) rest (List.append_assoc ..).symm)
  · intro all inner rest same
    obtain ⟨more, rfl, rfl⟩ | ⟨more, rfl, isDollar⟩ := List.append_eq_append_iff.mp same
    · exact (further more).mpr (all more rest rfl)
    · cases more with
      | nil =>
        rw [List.append_nil] at balanced
        exact balanced
      | cons c more =>
        obtain ⟨rfl, -⟩ := List.cons.inj isDollar
        exact outside inner more rfl

/-- Without braces every dollar sign stands outside of them. -/
theorem numbersOutside_of_unbraced {text : List Char}
    (unbraced : ∀ c ∈ text, c ≠ '{' ∧ c ≠ '}') :
    Pairing.Balanced text ∧ NumbersOutside text := by
  have balanced {part : List Char} (subset : ∀ c ∈ part, c ∈ text) : Pairing.Balanced part := by
    refine Pairing.depthBehind?_neutral 0 fun c member => ?_
    simp [unbraced c (subset c member)]
  refine ⟨balanced fun _ => id, ?_⟩
  rintro front rest rfl
  exact balanced fun c => List.mem_append_left _

/-! ### Tokens without braces -/

/-- A text has a wide run in a token in front, or in what follows. -/
def SplitsRun (front behind : List Char) (kind : Token.Kind) : Prop :=
  HasWideRun (front ++ behind) ↔ kind.isTooWide ∨ HasWideRun behind

/-- A token that has no dollar sign has no part in a run. -/
theorem SplitsRun.of_noDollar {front : List Char} {kind : Token.Kind} (noDollar : '$' ∉ front)
    (narrow : kind.isTooWide = false) (behind : List Char) : SplitsRun front behind kind := by
  rw [SplitsRun, HasWideRun.append_iff noDollar, narrow]
  simp

/-- A character and some behind it are a token without braces, which closes no text. -/
def BeginsUnbraced (depths : Depths) (c : Char) (others rest : List Char) : Prop :=
  ∃ front behind kind, others = front ++ behind ∧
    (∀ other ∈ c :: front, other ≠ '{' ∧ other ≠ '}') ∧ kind.standsInText ∧ kind ≠ closingBrace ∧
    SplitsRun (c :: front) behind kind ∧
    Lexes depths (c :: front) (behind ++ '}' :: rest) [kind] depths

/-- The number of a copy is written without braces. -/
theorem unbraced_of_number {size base parent : Nat} {isReverse : Bool} {text : List Char}
    (written : (Token.Kind.repeaterNumber size isReverse base parent).WrittenAs text) :
    text ≠ [] ∧ ∀ c ∈ text, c ≠ '{' ∧ c ≠ '}' := by
  have noBrace {c mark : Char} (same : c = mark) (other : mark ≠ '{' ∧ mark ≠ '}') :
      c ≠ '{' ∧ c ≠ '}' := same ▸ other
  refine ⟨?_, fun c member => ?_⟩
  · cases written with
    | number filled => simpa using Nat.ne_of_gt filled
    | numberFrom => simp
  cases written with
  | number => exact noBrace (List.eq_of_mem_replicate member) (by decide)
  | numberFrom _ decimal =>
    simp only [List.mem_append, List.mem_cons] at member
    obtain dollar | rfl | caret | dash | isDigit := member
    · exact noBrace (List.eq_of_mem_replicate dollar) (by decide)
    · decide
    · exact noBrace (List.eq_of_mem_replicate caret) (by decide)
    · split at dash
      · exact noBrace (List.mem_singleton.mp dash) (by decide)
      · cases dash
    · have digit := decimal c isDigit
      constructor <;>
      · rintro rfl
        exact absurd digit (by decide)

/-- A dollar sign always begins a number, which takes all dollar signs that follow. -/
theorem scanNumber_dollar (others : List Char) : ∃ isReverse base parent width,
    scanNumber ('$' :: others) =
      some ⟨.repeaterNumber (('$' :: others).takeWhile (· == '$')).length isReverse base parent,
        width⟩ := by
  unfold scanNumber
  rw [List.takeWhile_cons_of_pos rfl]
  dsimp only [List.length_cons]
  rw [if_neg (Nat.succ_ne_zero _)]
  split <;> exact ⟨_, _, _, _, rfl⟩

/-- A number is too wide if it begins with a wide run. -/
theorem splitsRun_number {base parent size : Nat} {isReverse : Bool} {text : List Char}
    (written : (Token.Kind.repeaterNumber size isReverse base parent).WrittenAs text)
    (behind rest : List Char)
    (longest : size = ((text ++ behind ++ rest).takeWhile (· == '$')).length) :
    SplitsRun text behind (.repeaterNumber size isReverse base parent) := by
  have wide : (Token.Kind.repeaterNumber size isReverse base parent).isTooWide ↔
      digitLimit < size := decide_eq_true_iff
  rw [SplitsRun, wide]
  cases written with
  | number filled =>
    refine HasWideRun.dollars_iff size fun isDollar => ?_
    obtain ⟨more, rfl⟩ := List.head?_eq_some_iff.mp isDollar
    have all : ∀ c ∈ List.replicate size '$', (c == '$') = true := fun c member =>
      beq_iff_eq.mpr (List.eq_of_mem_replicate member)
    rw [List.append_assoc, List.takeWhile_append_of_pos all, List.length_append,
      List.length_replicate, List.cons_append, List.takeWhile_cons_of_pos rfl,
      List.length_cons] at longest
    omega
  | @numberFrom _ _ _ digits filled decimal =>
    have noDollar : '$' ∉ '@' :: (List.replicate parent '^' ++
        ((if isReverse then ['-'] else []) ++ digits)) := by
      simp only [List.mem_cons, List.mem_append, not_or]
      refine ⟨by decide, fun member => ?_, by cases isReverse <;> simp, fun member => ?_⟩
      · cases List.eq_of_mem_replicate member
      · cases decimal '$' member
    rw [List.append_assoc, HasWideRun.dollars_iff size (by simp), HasWideRun.append_iff noDollar]

/-- What a dollar sign begins has no braces and ends before a closing brace. -/
theorem scan_dollar (others rest : List Char) :
    ∃ front behind kind, others = front ++ behind ∧ (∀ c ∈ '$' :: front, c ≠ '{' ∧ c ≠ '}') ∧
      (∀ depths : Depths, depths.after '$' kind = depths) ∧ kind.standsInText ∧
      kind ≠ closingBrace ∧ SplitsRun ('$' :: front) behind kind ∧
      (scanPlaceholder ('$' :: (others ++ '}' :: rest)) <|>
        scanNumber ('$' :: (others ++ '}' :: rest))) = some ⟨kind, front.length + 1⟩ := by
  by_cases isPlace : others.head? = some '#'
  · obtain ⟨behind, rfl⟩ := List.head?_eq_some_iff.mp isPlace
    have splits : SplitsRun ['$', '#'] behind .repeaterPlaceholder := by
      have narrow : ¬ digitLimit < 1 := by decide
      have single : HasWideRun ('$' :: '#' :: behind) ↔
          digitLimit < 1 ∨ HasWideRun ('#' :: behind) := HasWideRun.dollars_iff 1 (by simp)
      have noDollar : '$' ∉ ['#'] := by decide
      have hash : HasWideRun (['#'] ++ behind) ↔ HasWideRun behind :=
        HasWideRun.append_iff noDollar
      rw [or_iff_right narrow] at single
      simpa [SplitsRun, Token.Kind.isTooWide] using single.trans hash
    exact ⟨['#'], behind, .repeaterPlaceholder, rfl, by simp, fun _ => rfl, rfl,
      Token.Kind.noConfusion, splits, rfl⟩
  · have noPlace : scanPlaceholder ('$' :: (others ++ '}' :: rest)) = none := by
      cases others with
      | nil => rfl
      | cons c others =>
        have notHash : c ≠ '#' := by simpa using isPlace
        simp [scanPlaceholder, notHash]
    obtain ⟨isReverse, base, parent, width, scanned⟩ :=
      scanNumber_dollar (others ++ '}' :: rest)
    obtain ⟨text, left, whole, rfl, written⟩ := scanNumber_begins scanned
    obtain ⟨filled, unbraced⟩ := unbraced_of_number written
    obtain ⟨behind, same⟩ : ∃ behind, '$' :: others = text ++ behind := by
      rw [← List.cons_append] at whole
      -- The number ends inside of the text: otherwise it would hold the closing brace.
      obtain ⟨more, isText, closes⟩ | ⟨more, same, -⟩ := List.append_eq_append_iff.mp whole
      · cases more with
        | nil => exact ⟨[], by rw [isText, List.append_nil, List.append_nil]⟩
        | cons c more =>
          obtain ⟨rfl, -⟩ := List.cons.inj closes
          exact absurd rfl (unbraced '}' (by simp [isText])).2
      · exact ⟨more, same⟩
    cases text with
    | nil => exact absurd rfl filled
    | cons c front =>
      obtain ⟨rfl, rfl⟩ := List.cons.inj same
      have splits := splitsRun_number written behind ('}' :: rest) rfl
      exact ⟨front, behind, _, rfl, unbraced, fun _ => rfl, rfl, Token.Kind.noConfusion, splits,
        by rw [noPlace, scanned]; rfl⟩

/-- A dollar sign that begins no field begins a token without braces. -/
theorem lexes_dollar (depths : Depths) {others : List Char} (rest : List Char)
    (noField : others.head? ≠ some '{') : BeginsUnbraced depths '$' others rest := by
  have unfielded : FieldMark.scan ('$' :: (others ++ '}' :: rest)) = .ok none := by
    cases others with
    | nil => rfl
    | cons c others =>
      have notBrace : c ≠ '{' := by simpa using noField
      unfold FieldMark.scan
      split
      · simp_all
      · rfl
  obtain ⟨front, behind, kind, rfl, unbraced, stays, stands, notClosing, splits, scanned⟩ :=
    scan_dollar others rest
  rw [List.append_assoc] at scanned unfielded
  have first : Lexes depths _ _ _ (depths.after '$' kind) := .dollar unfielded scanned
  rw [stays] at first
  exact ⟨front, behind, kind, rfl, unbraced, stands, notClosing, splits, first⟩

/-- Dollar signs, asterisks and blanks begin tokens without braces. -/
theorem lexes_marked (depths : Depths) {c : Char} {others : List Char} (rest : List Char)
    (marked : isUnmarked c = false) (noField : c = '$' → others.head? ≠ some '{') :
    BeginsUnbraced depths c others rest := by
  have run (test : Char → Bool) (closes : test '}' = false) :
      others = others.takeWhile test ++ others.dropWhile test ∧
        (∀ other ∈ others.takeWhile test, test other) ∧
        ∀ other ∈ (others.dropWhile test ++ '}' :: rest).head?, test other = false :=
    ⟨List.takeWhile_append_dropWhile.symm, fun _ member => List.mem_takeWhile_imp member,
      head?_append_cons rest (head?_dropWhile_run test others) closes⟩
  have unbraced {test : Char → Bool} (opens : test '{' = false) (closes : test '}' = false)
      {other : Char} (isTest : test other) : other ≠ '{' ∧ other ≠ '}' := by
    constructor <;>
    · rintro rfl
      simp_all
  simp only [isUnmarked, Bool.and_eq_false_iff, bne_eq_false_iff_eq, Bool.not_eq_false'] at marked
  obtain (rfl | rfl) | blank := marked
  · exact lexes_dollar depths rest (noField rfl)
  · obtain ⟨same, decimal, stops⟩ := run CharClass.digit rfl
    have noDollar : '$' ∉ '*' :: others.takeWhile CharClass.digit := by
      rw [List.mem_cons, not_or]
      exact ⟨by decide, fun member => absurd (decimal '$' member) (by decide)⟩
    exact ⟨_, _, _, same, List.forall_mem_cons.mpr ⟨by decide, fun other member =>
      unbraced rfl rfl (decimal other member)⟩, rfl, Token.Kind.noConfusion,
      .of_noDollar noDollar rfl _, .repeater decimal stops⟩
  · obtain ⟨same, blanks, stops⟩ := run CharClass.space rfl
    have allBlank : ∀ other ∈ c :: others.takeWhile CharClass.space, CharClass.space other :=
      List.forall_mem_cons.mpr ⟨blank, blanks⟩
    have noDollar : '$' ∉ c :: others.takeWhile CharClass.space := fun member =>
      absurd (allBlank '$' member) (by decide)
    exact ⟨_, _, _, same, fun other member => unbraced rfl rfl (allBlank other member), rfl,
      Token.Kind.noConfusion, .of_noDollar noDollar rfl _, .blanks allBlank stops⟩

/-! ### Tokens of a text -/

/-- What is left of a text when `pending` braces are open: it closes them all. -/
structure IsTextRest (pending : Nat) (text : List Char) : Prop where
  unescaped : '\\' ∉ text
  unfielded : ¬ ['$', '{'] <:+: text
  closed : Pairing.braceDepth? pending text = some 0

/-- What is left behind the front of a text is the rest of one. -/
theorem IsTextRest.behind {pending next : Nat} {front behind : List Char}
    (isRest : IsTextRest pending (front ++ behind))
    (reached : Pairing.braceDepth? pending front = some next) : IsTextRest next behind where
  unescaped := fun member => isRest.unescaped (List.mem_append_right front member)
  unfielded := fun isInfix =>
    isRest.unfielded (isInfix.trans (List.suffix_append front behind).isInfix)
  closed := by
    have closed := isRest.closed
    rw [Pairing.braceDepth?] at reached
    rwa [Pairing.braceDepth?, Pairing.depthBehind?_append, reached] at closed

/-- The tokens of a text behind `pending` braces, up to the brace that closes them all. One of
them closes the text too early, unless no brace is pending in front of a dollar sign. One of them is
too wide if a run of the text is. -/
structure ReadsText (depth : Int) (pending : Nat) (text rest : List Char)
    (kinds : List Token.Kind) : Prop where
  lexes : Lexes (inBraces depth pending) text ('}' :: rest) kinds (inText depth)
  stands : ∀ kind ∈ kinds, kind.standsInText
  closes : closingBrace ∈ kinds ↔ ¬ (pending = 0 ∧ NumbersOutside text)
  wide : (∃ kind ∈ kinds, kind.isTooWide) ↔ HasWideRun text

namespace ReadsText

variable {depth : Int} {pending : Nat} {front behind rest : List Char} {kinds : List Token.Kind}

/-- A token in front of a text that is read leaves it read. -/
theorem cons {next : Nat} {kind : Token.Kind} (reads : ReadsText depth next behind rest kinds)
    (first : Lexes (inBraces depth pending) front (behind ++ '}' :: rest) [kind]
      (inBraces depth next))
    (stands : kind.standsInText) (notClosing : kind ≠ closingBrace)
    (splits : SplitsRun front behind kind)
    (same : pending = 0 ∧ NumbersOutside (front ++ behind) ↔ next = 0 ∧ NumbersOutside behind) :
    ReadsText depth pending (front ++ behind) rest (kind :: kinds) where
  lexes := first.append reads.lexes rfl
  stands := List.forall_mem_cons.mpr ⟨stands, reads.stands⟩
  closes := by
    rw [List.mem_cons, same, ← reads.closes, or_iff_right (Ne.symm notClosing)]
  wide := by
    rw [SplitsRun, ← reads.wide] at splits
    rw [splits]
    simp

/-- A token in front leaves the pending braces as they are if it has none. -/
theorem unbraced {kind : Token.Kind} (reads : ReadsText depth pending behind rest kinds)
    (noBraces : ∀ c ∈ front, c ≠ '{' ∧ c ≠ '}')
    (first : Lexes (inBraces depth pending) front (behind ++ '}' :: rest) [kind]
      (inBraces depth pending))
    (stands : kind.standsInText) (notClosing : kind ≠ closingBrace)
    (splits : SplitsRun front behind kind) :
    ReadsText depth pending (front ++ behind) rest (kind :: kinds) := by
  obtain ⟨balanced, outside⟩ := numbersOutside_of_unbraced noBraces
  exact reads.cons first stands notClosing splits
    (and_congr_right' (numbersOutside_append balanced outside behind))

/-- A literal in front leads into braces that are pending behind it. -/
theorem literal {reached : Nat} {text : String}
    (reads : ReadsText depth (pending + reached) behind rest kinds) (noDollar : '$' ∉ front)
    (isReached : Pairing.braceDepth? 0 front = some reached)
    (stops : behind.head? = some '$' ∨ reached = 0)
    (first : Lexes (inBraces depth pending) front (behind ++ '}' :: rest) [.literal text]
      (inBraces depth (pending + reached))) :
    ReadsText depth pending (front ++ behind) rest (.literal text :: kinds) := by
  refine reads.cons first rfl Token.Kind.noConfusion (.of_noDollar noDollar rfl behind) ?_
  cases reached with
  | zero =>
    have outside : NumbersOutside front := by
      rintro inner more rfl
      exact absurd (List.mem_append_right inner List.mem_cons_self) noDollar
    exact and_congr_right' (numbersOutside_append isReached outside behind)
  | succ reached =>
    -- The dollar sign behind the literal stands inside of braces.
    obtain ⟨more, rfl⟩ := List.head?_eq_some_iff.mp (stops.resolve_right (Nat.succ_ne_zero _))
    constructor
    · rintro ⟨-, outside⟩
      cases isReached.symm.trans (outside front more rfl)
    · rintro ⟨none, -⟩
      cases none

/-- A brace in front closes the innermost pending one with a token of its own. -/
theorem closing (reads : ReadsText depth pending behind rest kinds) :
    ReadsText depth (pending + 1) ('}' :: behind) rest (closingBrace :: kinds) where
  lexes := by
    have deep : 0 < (inBraces depth (pending + 1)).expression := by
      simp only [inBraces]
      omega
    have first : Lexes (inBraces depth (pending + 1)) ['}'] (behind ++ '}' :: rest)
        [closingBrace] ((inBraces depth (pending + 1)).after '}' closingBrace) :=
      Lexes.mark rfl (endsLiteral_cons _ (by decide) (by decide) (.inr (.inl ⟨deep, rfl⟩))) rfl
    have shallower : (inBraces depth (pending + 1)).after '}' closingBrace =
        inBraces depth pending := by
      simp only [Depths.after, closingBrace, inBraces, Bool.false_eq_true, if_false,
        Int.add_neg_cancel_right, Int.natCast_add, Int.cast_ofNat_Int]
    rw [shallower] at first
    exact first.append reads.lexes rfl
  stands := List.forall_mem_cons.mpr ⟨rfl, reads.stands⟩
  closes := by simp
  wide := by
    have noDollar : '$' ∉ ['}'] := by decide
    have splits : SplitsRun ['}'] behind closingBrace := .of_noDollar noDollar rfl behind
    rw [SplitsRun, ← reads.wide] at splits
    simpa using splits.symm

end ReadsText

/-- What is left of a text is read token by token. -/
theorem IsTextRest.reads (depth : Int) {pending : Nat} {text : List Char}
    (isRest : IsTextRest pending text) (rest : List Char) :
    ∃ kinds, ReadsText depth pending text rest kinds := by
  generalize size : text.length = length
  induction length using Nat.strong_induction_on generalizing pending text with
  | h length ih =>
  subst size
  match text with
  | [] =>
    obtain rfl : pending = 0 := by
      simpa [Pairing.braceDepth?, Pairing.depthBehind?] using isRest.closed
    have outside : NumbersOutside [] := fun front rest same => by simp at same
    have narrow : ¬ HasWideRun [] := HasWideRun.not_of_length (Nat.zero_le _)
    exact ⟨[], Lexes.nil _ _, List.forall_mem_nil _, by simp [outside], by simp [narrow]⟩
  | c :: others =>
    by_cases unmarked : isUnmarked c
    case neg =>
      have noField : c = '$' → others.head? ≠ some '{' := by
        rintro rfl isBrace
        obtain ⟨behind, rfl⟩ := List.head?_eq_some_iff.mp isBrace
        exact isRest.unfielded (List.prefix_append ['$', '{'] behind).isInfix
      obtain ⟨front, behind, kind, rfl, noBraces, stands, notClosing, splits, first⟩ :=
        lexes_marked (inBraces depth pending) rest (Bool.eq_false_iff.mpr unmarked) noField
      have neutral : Pairing.braceDepth? pending (c :: front) = some pending := by
        refine Pairing.depthBehind?_neutral pending fun other member => ?_
        simp [noBraces other member]
      have shorter : behind.length < (c :: (front ++ behind)).length := by
        rw [List.length_cons, List.length_append]
        omega
      obtain ⟨kinds, reads⟩ := ih _ shorter (isRest.behind neutral) rfl
      exact ⟨kind :: kinds, reads.unbraced noBraces first stands notClosing splits⟩
    case pos =>
      obtain ⟨front, behind, reached, same, noDollar, isReached, stops, read⟩ :=
        literalRun_inBraces depth pending 0 isRest.unescaped isRest.closed rest
      cases front with
      | nil =>
        -- The brace in front closes one that is pending from before a dollar sign.
        have notDollar : c ≠ '$' := by
          rintro rfl
          cases unmarked
        rw [List.nil_append] at same
        subst same
        obtain ⟨-, isClosing⟩ := stops.resolve_left (by simpa using notDollar)
        obtain rfl : c = '}' := isClosing c rfl
        cases pending with
        | zero => cases isRest.closed
        | succ pending =>
          have closed : Pairing.braceDepth? (pending + 1) ['}'] = some pending := rfl
          obtain ⟨kinds, reads⟩ := ih _ (Nat.lt_succ_self _) (IsTextRest.behind isRest closed) rfl
          exact ⟨closingBrace :: kinds, reads.closing⟩
      | cons first front =>
        rw [List.cons_append, List.cons.injEq] at same
        obtain ⟨rfl, rfl⟩ := same
        have literal : Lexes (inBraces depth pending) (c :: front) (behind ++ '}' :: rest)
            [.literal (String.ofList (c :: front))] (inBraces depth (pending + reached)) :=
          Lexes.literalTo unmarked fun previous => by
            rw [← List.append_assoc]
            exact read previous
        have reachedOut := Pairing.depthBehind?_add pending isReached
        have shorter : behind.length < (c :: (front ++ behind)).length := by
          rw [List.length_cons, List.length_append]
          omega
        obtain ⟨kinds, reads⟩ := ih _ shorter (IsTextRest.behind isRest reachedOut) rfl
        exact ⟨_, reads.literal noDollar isReached (stops.imp_right And.left) literal⟩

/-! ### What is left behind a text -/

/-- A token of a text is no operator and no opening bracket. -/
theorem Token.of_standsInText {token : Token} (stands : token.kind.standsInText) :
    (∀ operator, token.isOperator operator = false) ∧
      ∀ enclosure, token.isBracket enclosure true = false := by
  obtain ⟨kind, span⟩ := token
  unfold Token.Kind.standsInText at stands
  split at stands <;> simp_all [Token.isOperator, Token.isBracket]

/-- Tokens of a text, of which one closes it. -/
structure LeftInText (tokens : List Token) : Prop where
  stands : ∀ token ∈ tokens, token.kind.standsInText
  closes : closingBrace ∈ tokens.map Token.kind

/-- Behind tokens that do not close it a text goes on. -/
theorem LeftInText.behind {front behind : List Token} (left : LeftInText (front ++ behind))
    (others : ∀ token ∈ front, token.kind ≠ closingBrace) : LeftInText behind where
  stands := fun token member => left.stands token (List.mem_append_right front member)
  closes := by
    have closes := left.closes
    rw [List.map_append, List.mem_append] at closes
    refine closes.resolve_left fun member => ?_
    obtain ⟨token, isFront, isClosing⟩ := List.mem_map.mp member
    exact others token isFront isClosing

/-- Only counts of copies go to an element from here. -/
theorem extendHead_inText (jsx : Bool) (head : Head) {tokens : List Token}
    (left : LeftInText tokens) :
    ∃ repetition behind, extendHead jsx head tokens = .ok ({ head with repetition }, behind) ∧
      LeftInText behind := by
  induction tokens generalizing head with
  | nil => cases left.closes
  | cons token rest ih =>
    cases repeats : if head.repetition.isNone && !head.isEmpty then token.repeat? else none with
    | some repetition =>
      obtain ⟨mayRepeat, isRepeat⟩ := Option.ite_none_right_eq_some.mp repeats
      rw [Bool.and_eq_true, Option.isNone_iff_eq_none, Bool.not_eq_true'] at mayRepeat
      have notClosing : ∀ other ∈ [token], other.kind ≠ closingBrace := by
        simp [Token.kind_of_repeat? isRepeat, closingBrace]
      rw [extendHead_repeat rest mayRepeat.1 mayRepeat.2 isRepeat]
      exact ih { head with repetition := some repetition } (left.behind notClosing)
    | none =>
      obtain ⟨noOperator, noBracket⟩ :=
        Token.of_standsInText (left.stands token List.mem_cons_self)
      refine ⟨head.repetition, token :: rest, extendHead_stop rest repeats ?_ ?_ ?_, left⟩
      · simp [readText, noBracket]
      · simp [readAttributes, readShortAttribute, noOperator, noBracket]
      · exact noOperator .close

/-- A name that is read here leaves the closing brace. -/
theorem readName_inText (jsx : Bool) {tokens : List Token} (left : LeftInText tokens) :
    LeftInText (readName jsx tokens).2 := by
  have parts {tokens : List Token} (left : LeftInText tokens) :
      LeftInText (tokens.dropWhile Token.isNamePart) := by
    rw [← List.takeWhile_append_dropWhile (p := Token.isNamePart) (l := tokens)] at left
    refine left.behind fun token member isClosing => ?_
    have isPart : token.isNamePart := List.mem_takeWhile_imp member
    simp [Token.isNamePart, isClosing, closingBrace] at isPart
  obtain ⟨component, behind, read, ⟨-, rfl⟩ | ⟨-, first, rest, isCapitalized, rfl, -, rfl⟩⟩ :=
    readName_finds jsx tokens
  · rw [read]
    exact parts left
  · have notClosing : ∀ token ∈ [first], token.kind ≠ closingBrace := by
      simp only [List.mem_singleton, forall_eq]
      intro isClosing
      simp [Token.isCapitalized, isClosing, closingBrace] at isCapitalized
    have leftBehind : LeftInText rest := left.behind notClosing
    have undotted : readDottedNames rest = ([], rest) := by
      refine readDottedNames_none fun token isFirst => ?_
      have stands := leftBehind.stands token (List.mem_of_mem_head? isFirst)
      exact (Token.of_standsInText stands).1 .className
    rw [read, undotted]
    exact parts leftBehind

/-- An element that is read here leaves the closing brace. -/
theorem readHead_inText (jsx : Bool) {tokens : List Token} (left : LeftInText tokens) :
    readHead jsx tokens = .ok none ∨
      ∃ head behind, readHead jsx tokens = .ok (some (head, behind)) ∧ LeftInText behind := by
  obtain ⟨repetition, behind, extended, leftBehind⟩ :=
    extendHead_inText jsx
      (if (readName jsx tokens).1.isEmpty then Head.empty else
        { Head.empty with name := some (readName jsx tokens).1 }) (readName_inText jsx left)
  simp only [readHead, extended]
  split
  · exact .inl rfl
  · exact .inr ⟨_, behind, rfl, leftBehind⟩

/-- No operator follows an element here. -/
theorem put_inText (place : Place) (statement : Statement) {tokens : List Token}
    (left : LeftInText tokens) : place.put statement tokens = (place.add statement, tokens) := by
  cases tokens with
  | nil => cases left.closes
  | cons token rest =>
    obtain ⟨noOperator, -⟩ := Token.of_standsInText (left.stands token List.mem_cons_self)
    simp [Place.put, noOperator, Place.climbs]

/-- A closing brace is left in the end, or what stands before it. -/
theorem readStatements_inText (jsx : Bool) (place : Place) {tokens : List Token}
    (left : LeftInText tokens) :
    ∃ found token rest, readStatements jsx place [] tokens = .ok (found, token :: rest) := by
  generalize size : tokens.length = length
  induction length using Nat.strong_induction_on generalizing place tokens with
  | h length ih =>
  subst size
  obtain none | ⟨head, behind, read, leftBehind⟩ := readHead_inText jsx left
  · cases tokens with
    | nil => cases left.closes
    | cons token rest =>
      obtain ⟨-, noBracket⟩ := Token.of_standsInText (left.stands token List.mem_cons_self)
      refine ⟨place.close, token, rest, ?_⟩
      rw [readStatements]
      split
      · simp_all
      · simp_all
      · simp [noBracket]
  · rw [readStatements_head place [] read, put_inText place _ leftBehind]
    exact ih behind.length (readHead_length read) (place.add (.element head [])) leftBehind rfl

/-! ### The element around a text -/

/-- A text that is closed too early leaves tokens behind its element. -/
theorem statements_closedEarly {jsx : Bool} {name : String} {text : List Char}
    {kinds : List Token.Kind} (named : name.toList ≠ [])
    (plain : ∀ c ∈ name.toList, isPlainNameChar c)
    (noComponent : (jsx && name.toList.head?.any CharClass.capital) = false)
    (inside : Lexes (inText 0) text ['}'] kinds (inText 0))
    (stands : ∀ kind ∈ kinds, kind.standsInText) (closes : closingBrace ∈ kinds) :
    let source := String.ofList (name.toList ++ '{' :: (text ++ ['}']))
    ∃ offset, statements jsx source = .error ⟨.unexpectedCharacter, offset, source⟩ := by
  intro source
  obtain ⟨own, opening, inner, closing, isName, opens, rfl, isClosing, lexed⟩ :=
    tokens_braced named plain inside
  obtain ⟨before, after, same, notBefore⟩ := List.eq_append_cons_of_mem closes
  obtain ⟨value, _, rfl, rfl, sameBehind⟩ := List.map_eq_append_iff.mp same
  obtain ⟨early, behind, rfl, closesEarly, rfl⟩ := List.map_eq_cons_iff.mp sameBehind
  have standsToken : ∀ token ∈ value ++ early :: behind, token.kind.standsInText :=
    fun token member => stands token.kind (List.mem_map_of_mem member)
  have unbraced : ∀ token ∈ value, ∀ isOpen, token.isBracket .expression isOpen = false := by
    intro token member isOpen
    cases isOpen with
    | true =>
      exact (Token.of_standsInText (standsToken token (List.mem_append_left _ member))).2 _
    | false =>
      have other : token.kind ≠ closingBrace :=
        fun isClosing => notBefore (isClosing ▸ List.mem_map_of_mem member)
      simpa [Token.isBracket, closingBrace] using other
  have left : LeftInText (behind ++ [closing]) := by
    refine ⟨List.forall_mem_append.mpr ⟨fun token member => ?_, ?_⟩, ?_⟩
    · exact standsToken token (List.mem_append_right value (List.mem_cons_of_mem early member))
    · simp [isClosing, Token.Kind.standsInText]
    · simp [isClosing, closingBrace]
  obtain ⟨repetition, rest, extended, leftRest⟩ := extendHead_inText jsx
    ⟨some [own], none, some value, none, false⟩ left
  have braced : extendHead jsx ⟨some [own], none, none, none, false⟩
      (opening :: (value ++ early :: (behind ++ [closing]))) =
        .ok (⟨some [own], none, some value, repetition, false⟩, rest) :=
    (extendHead_braced rfl opens unbraced closesEarly _).trans extended
  have apart : Apart (opening :: (value ++ early :: (behind ++ [closing]))) := by
    simp [Apart, Token.isNamePart, opens]
  -- The element ends at the brace that closes early; no statement begins with what is left, and it
  -- does not end a group, so that it is refused.
  have read := readHead_extended (by rwa [Token.isCapitalized, isName]) isName apart braced rfl
  obtain ⟨found, token, more, readAll⟩ := readStatements_inText jsx
    (Place.top.add (.element ⟨some [own], none, some value, repetition, false⟩ [])) leftRest
  rw [List.append_assoc, List.cons_append] at lexed
  refine ⟨token.span.start, ?_⟩
  rw [statements_eq lexed, statementsOfTokens, readStatements_head .top [] read,
    put_inText _ _ leftRest, readAll]
  rfl

/-- A text with paired braces, without escapes and fields, ends at its matching brace exactly if
every dollar sign stands outside of its inner braces. Then the abbreviation is one element with a
text, unless a run of dollar signs is too wide for a number, at which the program stops. Otherwise
the text ends at the first brace behind such a dollar sign, and what is left behind it is
refused. -/
theorem nodes_braced (options : ReadOptions) (unwrapped : options.text = none) (text : String)
    (unescaped : '\\' ∉ text.toList) (unfielded : ¬ ['$', '{'] <:+: text.toList)
    (balanced : Pairing.Balanced text.toList) :
    let source := "p\x7b" ++ text ++ "\x7d"
    (NumbersOutside text.toList → ¬ HasWideRun text.toList →
      ∃ value, parse options source = .ok [.node { Element.named "p" with value } []]) ∧
    (NumbersOutside text.toList → HasWideRun text.toList →
      parse options source = .error .crash) ∧
    (¬ NumbersOutside text.toList →
      ∃ offset, parse options source =
        .error (.fault ⟨.unexpectedCharacter, offset, source⟩)) := by
  intro source
  have named : "p".toList ≠ [] := by decide
  have plain : ∀ c ∈ "p".toList, isPlainNameChar c := List.all_eq_true.mp (by decide)
  have noComponent : (options.jsx && "p".toList.head?.any CharClass.capital) = false :=
    Bool.and_false _
  have written : source = String.ofList ("p".toList ++ '{' :: (text.toList ++ ['}'])) := by
    rw [← String.toList_inj]
    simp [source]
  have isRest : IsTextRest 0 text.toList := ⟨unescaped, unfielded, balanced⟩
  -- Everything about the text is said by the kinds of its tokens: whether one of them closes it
  -- early, and whether one holds a number that is too wide.
  obtain ⟨kinds, inside, stands, closes, wide⟩ := isRest.reads 0 []
  have read (outside : NumbersOutside text.toList) :
      ∃ own value, own.kind = .literal "p" ∧ value.map Token.kind = kinds ∧
        statements options.jsx source =
          .ok [.element ⟨some [own], none, some value, none, false⟩ []] := by
    have unbraced : ∀ kind ∈ kinds, ∀ isOpen, kind ≠ .bracket isOpen .expression := by
      rintro kind member isOpen rfl
      cases isOpen with
      | true => cases stands _ member
      | false => exact closes.mp member ⟨rfl, outside⟩
    rw [written]
    exact statements_braced named plain noComponent inside unbraced
  have wideNumber {own : Token} {value : List Token} (isName : own.kind = .literal "p")
      (same : value.map Token.kind = kinds) :
      hasWideNumber [.element ⟨some [own], none, some value, none, false⟩ []] ↔
        HasWideRun text.toList := by
    rw [← wide, ← same]
    simp [hasWideNumber, headsAll, Statement.heads, Head.tokens, isName, Token.Kind.isTooWide]
  refine ⟨fun outside narrow => ?_, fun outside isWide => ?_, fun inner => ?_⟩
  · obtain ⟨own, value, isName, same, found⟩ := read outside
    have single : [own].map Token.kind = [.literal "p"] := by rw [List.map_singleton, isName]
    have nameText := tokensText_literal options [] single
    refine ⟨(tokensValue options [] [] value (.start options.maxRepeat)).1, ?_⟩
    rw [parse_written options found fun isWide => narrow ((wideNumber isName same).mp isWide),
      nodes_single unwrapped found rfl]
    simp only [elementCopy, nameText, attributesOfTokens, Element.isBare, Option.getD_some,
      Option.getD_none, Option.isNone_some, Bool.false_and, Bool.false_eq_true, if_false]
    rfl
  · obtain ⟨own, value, isName, same, found⟩ := read outside
    simp only [parse, found, (wideNumber isName same).mpr isWide, if_true]
  · have early : closingBrace ∈ kinds := closes.mpr fun outside => inner outside.2
    obtain ⟨offset, refused⟩ :=
      statements_closedEarly named plain noComponent inside stands early
    rw [← written] at refused
    exact ⟨offset, by rw [parse, refused]⟩

/-- A number inside of inner braces ends the text at the brace behind it, outside of them it does
not, and at one that is too wide the program stops. -/
theorem nodes_braced_number :
    let options : ReadOptions := ⟨false, true, none, .empty, none⟩
    let wide := String.ofList (List.replicate 65536 '$')
    (∃ value, parse options "p\x7ba\x7bb\x7d$\x7d" =
      .ok [.node { Element.named "p" with value } []]) ∧
    parse options ("p\x7b" ++ wide ++ "\x7d") = .error .crash ∧
    ∃ offset, parse options "p\x7ba\x7b$\x7db\x7d" =
      .error (.fault ⟨.unexpectedCharacter, offset, "p\x7ba\x7b$\x7db\x7d"⟩) := by
  intro options wide
  have outside : NumbersOutside "a\x7bb\x7d$".toList := by decide
  have narrow : ¬ HasWideRun "a\x7bb\x7d$".toList := HasWideRun.not_of_length (by decide)
  have inner : ¬ NumbersOutside "a\x7b$\x7db".toList := by decide
  have dollars : ∀ c ∈ wide.toList, c = '$' := fun c member =>
    List.eq_of_mem_replicate (String.toList_ofList ▸ member)
  have others {c : Char} (other : c ≠ '$') : c ∉ wide.toList := fun member =>
    other (dollars c member)
  have unbraced : ∀ c ∈ wide.toList, c ≠ '{' ∧ c ≠ '}' := fun c member => by
    rw [dollars c member]
    decide
  obtain ⟨balanced, wideOutside⟩ := numbersOutside_of_unbraced unbraced
  have isWide : HasWideRun wide.toList := by
    rw [String.toList_ofList]
    exact (HasWideRun.replicate_iff 65536).mpr (Nat.lt_succ_self digitLimit)
  have unfielded : ¬ ['$', '{'] <:+: wide.toList := fun isInfix =>
    others (by decide) (isInfix.subset (List.mem_cons_of_mem '$' (List.mem_singleton_self '{')))
  exact ⟨(nodes_braced options rfl "a\x7bb\x7d$" (by decide) (by decide) (by decide)).1 outside
      narrow,
    (nodes_braced options rfl wide (others (by decide)) unfielded balanced).2.1 wideOutside isWide,
    (nodes_braced options rfl "a\x7b$\x7db" (by decide) (by decide) (by decide)).2.2 inner⟩

end Shorthand.Markup
