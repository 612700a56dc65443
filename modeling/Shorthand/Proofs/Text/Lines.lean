import Mathlib.Tactic.SplitIfs
import Shorthand.Config.Options
import Shorthand.Proofs.Text.Words

/-!
# Lines of a text

An unbroken text holds no character that ends a line. A text that is put together from unbroken
pieces has a line more for every line break between them, and any text has one line more than it
has line terminators.
-/

namespace Shorthand.Text

/-- A text that does not end a line. -/
def IsUnbroken (text : List Char) : Prop := ∀ c ∈ text, isLineEnd c = false

instance (text : List Char) : Decidable (IsUnbroken text) :=
  List.decidableBAll (fun c => isLineEnd c = false) text

/-- The empty text has no line break in it. -/
@[simp] theorem isUnbroken_nil : IsUnbroken [] := List.forall_mem_nil _

/-- A text is unbroken if both of its pieces are. -/
@[simp] theorem isUnbroken_append {left right : List Char} :
    IsUnbroken (left ++ right) ↔ IsUnbroken left ∧ IsUnbroken right := by
  simp [IsUnbroken, or_imp, forall_and]

/-- A text is unbroken if its first character ends no line and the others do not either. -/
theorem isUnbroken_cons {c : Char} {text : List Char} :
    IsUnbroken (c :: text) ↔ isLineEnd c = false ∧ IsUnbroken text := List.forall_mem_cons

/-- A text is unbroken if its characters stem from an unbroken one. -/
theorem IsUnbroken.of_subset {text other : List Char} (unbroken : IsUnbroken other)
    (subset : text ⊆ other) : IsUnbroken text :=
  fun c member => unbroken c (subset member)

/-- An unbroken text is unbroken as often as it is repeated. -/
theorem isUnbroken_repeated {text : String} (unbroken : IsUnbroken text.toList) (count : Nat) :
    IsUnbroken (repeated text count).toList := by
  refine unbroken.of_subset fun c member => ?_
  simp only [repeated, String.toList_ofList, List.mem_flatten, List.mem_replicate] at member
  obtain ⟨_, ⟨_, rfl⟩, inside⟩ := member
  exact inside

/-- Unbroken pieces with an unbroken separator make an unbroken text. -/
theorem isUnbroken_join {separator : String} {pieces : List String}
    (apart : IsUnbroken separator.toList)
    (unbroken : ∀ piece ∈ pieces, IsUnbroken piece.toList) :
    IsUnbroken (join separator pieces).toList := by
  rw [join]
  induction pieces with
  | nil => simp
  | cons first rest ih =>
    obtain ⟨unbrokenFirst, others⟩ := List.forall_mem_cons.mp unbroken
    cases rest with
    | nil => simpa using unbrokenFirst
    | cons second rest =>
      rw [String.intercalate_cons_cons]
      simpa [apart, unbrokenFirst] using ih others

/-- Words hold no white space, and so no line break. -/
theorem isUnbroken_of_mem_words {text word : String} (member : word ∈ words text) :
    IsUnbroken word.toList := by
  intro c inside
  have notBlank := (mem_words member).2 c inside
  rw [isLineEnd, Bool.or_eq_false_iff, beq_eq_false_iff_ne, beq_eq_false_iff_ne]
  constructor <;> (rintro rfl; exact absurd notBlank (by decide))

/-! ### Splitting -/

/-- Every line of a text is unbroken. -/
theorem isUnbroken_of_mem_linesOf {text line : List Char} (member : line ∈ linesOf text) :
    IsUnbroken line := by
  intro c inside
  have among : c ∈ (linesOf text).flatten := List.mem_flatten_of_mem member inside
  rw [flatten_linesOf, List.mem_filter] at among
  simpa using among.2

/-- An unbroken text is one line. -/
theorem linesOf_unbroken {text : List Char} (unbroken : IsUnbroken text) :
    linesOf text = [text] := by
  induction text with
  | nil => rfl
  | cons c text ih =>
    obtain ⟨inside, others⟩ := isUnbroken_cons.mp unbroken
    rw [linesOf_inside (by simp [inside]), ih others, pushFront]

/-- A text without a line break is the only line there is. -/
theorem isUnbroken_of_linesOf {text line : List Char} (single : linesOf text = [line]) :
    IsUnbroken text := by
  induction text using linesOf.induct generalizing line with
  | case1 => simp
  | case2 rest => simp [linesOf, linesOf_ne_nil] at single
  | case3 c rest apart isEnd => simp [linesOf_lineEnd isEnd apart, linesOf_ne_nil] at single
  | case4 c rest apart inside ih =>
    rw [linesOf_inside inside] at single
    cases lines : linesOf rest with
    | nil => exact absurd lines (linesOf_ne_nil rest)
    | cons first others =>
      rw [lines, pushFront, List.cons.injEq] at single
      obtain ⟨-, rfl⟩ := single
      exact isUnbroken_cons.mpr ⟨Bool.eq_false_iff.mpr inside, ih lines⟩

/-- An unbroken text in front belongs to the first line. -/
theorem linesOf_append {text rest first : List Char} {others : List (List Char)}
    (unbroken : IsUnbroken text) (lines : linesOf rest = first :: others) :
    linesOf (text ++ rest) = (text ++ first) :: others := by
  induction text with
  | nil => exact lines
  | cons c text ih =>
    obtain ⟨inside, more⟩ := isUnbroken_cons.mp unbroken
    rw [List.cons_append, linesOf_inside (by simp [inside]), ih more, pushFront]
    rfl

/-- A line feed behind an unbroken text ends the line. -/
theorem linesOf_lineFeed {text : List Char} (unbroken : IsUnbroken text) (rest : List Char) :
    linesOf (text ++ '\n' :: rest) = text :: linesOf rest := by
  have fed : linesOf ('\n' :: rest) = [] :: linesOf rest :=
    linesOf_lineEnd rfl fun _ isReturn => absurd isReturn (by decide)
  simpa using linesOf_append unbroken fed

/-! ### Line terminators -/

/-- Whether a text begins with the last character of a line terminator: a line feed, or a carriage
return that no line feed follows. -/
def endsLine : List Char → Bool
  | '\n' :: _ => true
  | '\r' :: rest => rest.head? != some '\n'
  | _ => false

/-- The number of line terminators of a text. -/
def terminators (text : List Char) : Nat := text.tails.countP endsLine

/-- The terminators of a text are counted from its first character on. -/
theorem terminators_cons (c : Char) (rest : List Char) :
    terminators (c :: rest) = terminators rest + (endsLine (c :: rest)).toNat := by
  rw [terminators, List.tails, List.countP_cons]
  cases endsLine (c :: rest) <;> rfl

/-- A character that ends a line does so where the pair of both does not go on. -/
theorem endsLine_lineEnd {c : Char} {rest : List Char} (isEnd : isLineEnd c)
    (apart : ∀ more, c = '\r' → rest = '\n' :: more → False) : endsLine (c :: rest) = true := by
  rw [isLineEnd, Bool.or_eq_true, beq_iff_eq, beq_iff_eq] at isEnd
  obtain rfl | rfl := isEnd
  · rw [endsLine, bne_iff_ne]
    intro feeds
    obtain ⟨more, rfl⟩ := List.head?_eq_some_iff.mp feeds
    exact apart more rfl rfl
  · rfl

/-- A character inside of a line ends none. -/
theorem endsLine_inside {c : Char} (rest : List Char) (inside : ¬ isLineEnd c) :
    endsLine (c :: rest) = false := by
  rw [isLineEnd, Bool.or_eq_true, beq_iff_eq, beq_iff_eq, not_or] at inside
  simp [endsLine, inside]

/-- A character in front of the first piece adds no piece. -/
theorem length_pushFront (c : Char) {pieces : List (List Char)} (filled : pieces ≠ []) :
    (pushFront c pieces).length = pieces.length := by
  obtain ⟨first, rest, rfl⟩ := List.exists_cons_of_ne_nil filled
  rfl

/-- A text has one line more than it has line terminators. -/
theorem length_linesOf (text : List Char) : (linesOf text).length = terminators text + 1 := by
  induction text using linesOf.induct with
  | case1 => rfl
  | case2 rest ih =>
    -- The carriage return is not counted, as the line feed behind it is.
    rw [linesOf, List.length_cons, ih, terminators_cons, terminators_cons]
    rfl
  | case3 c rest apart isEnd ih =>
    rw [linesOf_lineEnd isEnd apart, List.length_cons, ih, terminators_cons,
      endsLine_lineEnd isEnd apart]
    rfl
  | case4 c rest apart inside ih =>
    rw [linesOf_inside inside, length_pushFront c (linesOf_ne_nil rest), ih, terminators_cons,
      endsLine_inside rest inside]
    rfl

/-- A line feed belongs to the carriage return in front of it, and only to that one. -/
example : terminators "a\r\n\rb\n\nc\r\r\n".toList = 6 := by decide

/-! ### Letter case -/

/-- Characters behind the carriage return end no line. -/
theorem not_lineEnd_ofNat {value : Nat} (behind : 13 < value) :
    isLineEnd (Char.ofNat value) = false := by
  by_cases valid : value.isValidChar
  · have number : (Char.ofNat value).toNat = value := by
      rw [Char.ofNat, dif_pos valid]
      rfl
    rw [isLineEnd, Bool.or_eq_false_iff, beq_eq_false_iff_ne, beq_eq_false_iff_ne]
    constructor
    · intro isReturn
      rw [isReturn] at number
      exact absurd (number ▸ behind) (by decide)
    · intro isFeed
      rw [isFeed] at number
      exact absurd (number ▸ behind) (by decide)
  · rw [Char.ofNat, dif_neg valid]
    rfl

/-- A table whose images all lie behind the control characters leads to no line end. -/
theorem not_lineEnd_shifted {table : List CharTable.Shift}
    (behind : ∀ entry ∈ table, 13 < (entry.first : Int) + entry.shift) {c : Char}
    (inside : isLineEnd c = false) : isLineEnd (LetterCase.shifted table c) = false := by
  rw [LetterCase.shifted]
  split
  case h_1 value image =>
    obtain ⟨entry, member, applied⟩ := List.exists_of_findSome?_eq_some image
    have := behind entry member
    unfold CharTable.Shift.apply? at applied
    split at applied
    · cases applied
      exact not_lineEnd_ofNat (by omega)
    · cases applied
  case h_2 => exact inside

/-- Neither case of an ASCII character inside of a line ends one. -/
theorem not_lineEnd_ascii {c : Char} (ascii : c.toNat < 128) (inside : isLineEnd c = false) :
    isLineEnd c.toLower = false ∧ isLineEnd c.toUpper = false := by
  have all : ∀ number < 128, isLineEnd (Char.ofNat number) = false →
      isLineEnd (Char.ofNat number).toLower = false ∧
        isLineEnd (Char.ofNat number).toUpper = false := by
    decide +kernel
  have same := Char.ofNat_toNat c
  rw [← same] at inside ⊢
  exact all c.toNat ascii inside

/-- The lower case of a character inside of a line ends none. -/
theorem isUnbroken_lowerChar {c : Char} (inside : isLineEnd c = false) :
    IsUnbroken (LetterCase.lowerChar c) := by
  rw [LetterCase.lowerChar]
  split
  case isTrue ascii => simpa [isUnbroken_cons] using (not_lineEnd_ascii ascii inside).1
  case isFalse =>
    split
    · decide
    · simpa [isUnbroken_cons] using not_lineEnd_shifted (by decide +kernel) inside

/-- The upper case of a character inside of a line ends none. -/
theorem isUnbroken_upperChar {c : Char} (inside : isLineEnd c = false) :
    IsUnbroken (LetterCase.upperChar c) := by
  rw [LetterCase.upperChar]
  split
  case isTrue ascii => simpa [isUnbroken_cons] using (not_lineEnd_ascii ascii inside).2
  case isFalse =>
    split
    case h_1 image found =>
      have all : ∀ entry ∈ CharTable.upperSequences, ∀ value ∈ entry.2, 13 < value := by
        decide +kernel
      intro d member
      obtain ⟨value, among, rfl⟩ := List.mem_map.mp member
      obtain ⟨front, rest, table, -⟩ := List.lookup_eq_some_iff.mp found
      have entry : (c.toNat, image) ∈ CharTable.upperSequences := by simp [table]
      exact not_lineEnd_ofNat (all _ entry value among)
    case h_2 => simpa [isUnbroken_cons] using not_lineEnd_shifted (by decide +kernel) inside

/-- Lower case keeps a text on one line. -/
theorem isUnbroken_lowerFrom (before : List Char) {text : List Char}
    (unbroken : IsUnbroken text) : IsUnbroken (LetterCase.lowerFrom before text) := by
  induction text generalizing before with
  | nil => exact unbroken
  | cons c rest ih =>
    obtain ⟨inside, others⟩ := isUnbroken_cons.mp unbroken
    rw [LetterCase.lowerFrom, isUnbroken_append]
    refine ⟨?_, ih (c :: before) others⟩
    split_ifs
    · decide
    · decide
    · exact isUnbroken_lowerChar inside

/-- An unbroken text stays unbroken in any case. -/
theorem isUnbroken_casing (casing : Casing) {text : String} (unbroken : IsUnbroken text.toList) :
    IsUnbroken (casing.apply text).toList := by
  cases casing with
  | keep => exact unbroken
  | lower =>
    rw [Casing.apply, LetterCase.lower, String.toList_ofList]
    exact isUnbroken_lowerFrom [] unbroken
  | upper =>
    rw [Casing.apply, LetterCase.upper, String.toList_ofList]
    intro c member
    obtain ⟨original, among, image⟩ := List.mem_flatMap.mp member
    exact isUnbroken_upperChar (unbroken original among) c image

end Shorthand.Text
