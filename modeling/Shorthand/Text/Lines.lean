import Shorthand.Text.CharClass

/-!
# Lines, words and edges of a text

A line ends at `\r\n`, at a lone `\r` or at a lone `\n`. Words are separated by white space
of any kind.
-/

namespace Shorthand.Text

/-- Put a character in front of the first of several pieces. -/
def pushFront (c : Char) : List (List Char) → List (List Char)
  | [] => [[c]]
  | first :: rest => (c :: first) :: rest

/-- The lines of a character list; a terminator belongs to none of them. -/
def linesOf : List Char → List (List Char)
  | [] => [[]]
  | '\r' :: '\n' :: rest => [] :: linesOf rest
  | c :: rest => if c == '\r' || c == '\n' then [] :: linesOf rest else pushFront c (linesOf rest)

/-- A character that ends a line. -/
def isLineEnd (c : Char) : Bool := c == '\r' || c == '\n'

/-- There is a first piece with the character. -/
theorem pushFront_ne_nil (c : Char) (pieces : List (List Char)) : pushFront c pieces ≠ [] := by
  cases pieces <;> exact List.cons_ne_nil _ _

/-- A character that is pushed in front stands in front of all pieces. -/
theorem flatten_pushFront (c : Char) (pieces : List (List Char)) :
    (pushFront c pieces).flatten = c :: pieces.flatten := by
  cases pieces <;> rfl

/-- A character that ends a line leaves an empty one in front of the others. -/
theorem linesOf_lineEnd {c : Char} {rest : List Char} (isEnd : isLineEnd c)
    (apart : ∀ more, c = '\r' → rest = '\n' :: more → False) :
    linesOf (c :: rest) = [] :: linesOf rest := by
  rw [linesOf]
  · exact if_pos isEnd
  · exact apart

/-- A character that ends no line is put in front of the first one. -/
theorem linesOf_inside {c : Char} {rest : List Char} (inside : ¬ isLineEnd c) :
    linesOf (c :: rest) = pushFront c (linesOf rest) := by
  rw [linesOf]
  · exact if_neg inside
  · rintro more rfl
    exact absurd rfl inside

/-- A text has at least one line. -/
theorem linesOf_ne_nil (text : List Char) : linesOf text ≠ [] := by
  induction text using linesOf.induct with
  | case1 => exact List.cons_ne_nil _ _
  | case2 rest => exact List.cons_ne_nil _ _
  | case3 c rest apart isEnd => rw [linesOf_lineEnd isEnd apart]; exact List.cons_ne_nil _ _
  | case4 c rest apart inside => rw [linesOf_inside inside]; exact pushFront_ne_nil c _

/-- The lines hold the characters that end no line, in their order. -/
theorem flatten_linesOf (text : List Char) :
    (linesOf text).flatten = text.filter fun c => !isLineEnd c := by
  induction text using linesOf.induct with
  | case1 => rfl
  | case2 rest ih => simpa [linesOf, isLineEnd] using ih
  | case3 c rest apart isEnd ih =>
    have ends : isLineEnd c := isEnd
    simp [linesOf_lineEnd ends apart, ih, ends]
  | case4 c rest apart inside ih =>
    have goesOn : ¬ isLineEnd c := inside
    simp [linesOf_inside goesOn, flatten_pushFront, ih, goesOn]

/-- The lines of a text. There is always at least one. -/
def splitLines (text : String) : List String := (linesOf text.toList).map String.ofList

/-- The pieces between the characters that satisfy the test; there is always at least one. -/
def splitAt (separator : Char → Bool) : List Char → List (List Char)
  | [] => [[]]
  | c :: rest =>
    if separator c then [] :: splitAt separator rest else pushFront c (splitAt separator rest)

/-- The pieces between the occurrences of `\r\n`; there is always at least one. -/
def splitAtPair : List Char → List (List Char)
  | [] => [[]]
  | '\r' :: '\n' :: rest => [] :: splitAtPair rest
  | c :: rest => pushFront c (splitAtPair rest)

/-- A text has at least one piece. -/
theorem splitAt_ne_nil (separator : Char → Bool) (text : List Char) :
    splitAt separator text ≠ [] := by
  cases text with
  | nil => exact List.cons_ne_nil _ _
  | cons c rest =>
    rw [splitAt]
    split
    · exact List.cons_ne_nil _ _
    · exact pushFront_ne_nil c _

/-- A text has at least one piece. -/
theorem splitAtPair_ne_nil (text : List Char) : splitAtPair text ≠ [] := by
  fun_cases splitAtPair text with
  | case1 => exact List.cons_ne_nil _ _
  | case2 => exact List.cons_ne_nil _ _
  | case3 => exact pushFront_ne_nil _ _

/-- One pass over a text finds the lines that two splits find, one at the pairs and one at the
single characters that are left in each of its pieces. -/
theorem linesOf_eq_splits (text : List Char) :
    linesOf text = (splitAtPair text).flatMap (splitAt isLineEnd) := by
  induction text using linesOf.induct with
  | case1 => rfl
  | case2 rest ih => simp [linesOf, splitAtPair, splitAt, ih]
  | case3 c rest apart isEnd ih =>
    obtain ⟨first, others, pieces⟩ := List.exists_cons_of_ne_nil (splitAtPair_ne_nil rest)
    have ends : isLineEnd c := isEnd
    rw [linesOf_lineEnd ends apart, ih, splitAtPair, pieces]
    · simp [pushFront, splitAt, ends]
    · exact apart
  | case4 c rest apart inside ih =>
    obtain ⟨first, others, pieces⟩ := List.exists_cons_of_ne_nil (splitAtPair_ne_nil rest)
    obtain ⟨line, lines, split⟩ := List.exists_cons_of_ne_nil (splitAt_ne_nil isLineEnd first)
    have goesOn : ¬ isLineEnd c := inside
    rw [linesOf_inside goesOn, ih, splitAtPair, pieces]
    · simp [pushFront, splitAt, goesOn, split]
    · exact apart

/-- The maximal runs of characters that are not white space. -/
def words (text : String) : List String :=
  ((splitAt CharClass.blank text.toList).filter (!·.isEmpty)).map String.ofList

/-- Drop white space at the front. -/
def trimStart (text : String) : String := String.ofList (text.toList.dropWhile CharClass.blank)

/-- Drop from the end the characters that satisfy the test. -/
def dropEndWhile (test : Char → Bool) (cs : List Char) : List Char :=
  (cs.reverse.dropWhile test).reverse

/-- Drop white space at both ends. -/
def trim (text : String) : String :=
  String.ofList (dropEndWhile CharClass.blank (text.toList.dropWhile CharClass.blank))

/-- Whether a text holds nothing but white space. -/
def isBlank (text : String) : Bool := text.toList.all CharClass.blank

/-- Append several texts, with a separator between them. -/
def join (separator : String) (pieces : List String) : String := separator.intercalate pieces

/-- A text written several times. -/
def repeated (text : String) (count : Nat) : String :=
  String.ofList (List.replicate count text.toList).flatten

/-- What follows a leading piece of text, if the text begins with it. -/
def afterStart? (start text : String) : Option String :=
  if start.toList.isPrefixOf text.toList then
    some (String.ofList (text.toList.drop start.length))
  else
    none

/-- What precedes a final piece of text, if the text ends with it. -/
def beforeEnd? (final text : String) : Option String :=
  if final.toList.isSuffixOf text.toList then
    some (String.ofList (text.toList.take (text.length - final.length)))
  else
    none

end Shorthand.Text
