import Shorthand.Proofs.Output.Numbering
import Shorthand.Proofs.Text.Run

/-!
# Tabstops of a text

An editor finds a tabstop in a text by its mark: a dollar sign, an opening brace, digits, and a
closing brace or a colon. A field is written as such a mark, but a text or a placeholder may hold
one too. A mark never reaches over a dollar sign, so the tabstops of a text made of pieces are
those of its fields and those that remain when the fields lose their numbers.
-/

namespace Shorthand

/-- The number of the tabstop at the front of a text. -/
def tabstop? : List Char → Option Nat
  | '$' :: '{' :: rest =>
    let digits := rest.takeWhile CharClass.digit
    let isEnded := (rest.dropWhile CharClass.digit).head?.any fun c => c == '}' || c == ':'
    if !digits.isEmpty && isEnded then some (Digits.natOf digits) else none
  | _ => none

/-- The numbers of the tabstops in a text. -/
def tabstops : List Char → List Nat
  | [] => []
  | c :: rest => (tabstop? (c :: rest)).toList ++ tabstops rest

/-- A field without its number: what an editor does not take for a tabstop. -/
def bareField (_ : Nat) (placeholder : String) : String :=
  if placeholder.isEmpty then "$\x7d" else "$:" ++ placeholder ++ "\x7d"

/-- A tabstop begins with a dollar sign. -/
theorem tabstop?_of_ne {c : Char} (other : c ≠ '$') (rest : List Char) :
    tabstop? (c :: rest) = none := by
  rw [tabstop?]
  rintro digits same
  exact other (List.cons.inj same).1

/-- Behind the dollar sign a brace opens. -/
theorem tabstop?_of_not_open {c : Char} (other : c ≠ '{') (rest : List Char) :
    tabstop? ('$' :: c :: rest) = none := by
  rw [tabstop?]
  rintro digits same
  exact other (List.cons.inj (List.cons.inj same).2).1

/-- A mark does not reach over a dollar sign. -/
theorem tabstop?_until (c : Char) (text left right : List Char) :
    tabstop? (c :: (text ++ '$' :: left)) = tabstop? (c :: (text ++ '$' :: right)) := by
  have dollar : CharClass.digit '$' = false := rfl
  by_cases begins : c = '$'
  · subst begins
    cases text with
    | nil => rw [List.nil_append, List.nil_append, tabstop?_of_not_open (by decide),
        tabstop?_of_not_open (by decide)]
    | cons brace text =>
      rw [List.cons_append, List.cons_append]
      by_cases opens : brace = '{'
      · subst opens
        simp only [tabstop?, takeWhile_until dollar, dropWhile_until dollar, List.head?_append,
          List.head?_cons]
      · rw [tabstop?_of_not_open opens, tabstop?_of_not_open opens]
  · rw [tabstop?_of_ne begins, tabstop?_of_ne begins]

/-- What stands in front of a dollar sign has tabstops of its own. -/
theorem tabstops_until (text : List Char) :
    ∃ found, ∀ rest, tabstops (text ++ '$' :: rest) = found ++ tabstops ('$' :: rest) := by
  induction text with
  | nil => exact ⟨[], fun rest => rfl⟩
  | cons c text ih =>
    obtain ⟨found, behind⟩ := ih
    refine ⟨(tabstop? (c :: (text ++ ['$']))).toList ++ found, fun rest => ?_⟩
    rw [List.cons_append, tabstops, behind, tabstop?_until c text rest [], List.append_assoc]

/-- Characters other than dollar signs have no tabstops. -/
theorem tabstops_skip {text : List Char} (dollarless : '$' ∉ text) (rest : List Char) :
    tabstops (text ++ rest) = tabstops rest := by
  induction text with
  | nil => rfl
  | cons c text ih =>
    rw [List.mem_cons, not_or] at dollarless
    rw [List.cons_append, tabstops, tabstop?_of_ne (Ne.symm dollarless.1), ih dollarless.2]
    rfl

/-- What stands behind the number of a field. -/
def fieldEnd (placeholder : String) : List Char :=
  if placeholder.isEmpty then ['}'] else ':' :: (placeholder.toList ++ ['}'])

/-- A field ends with a brace, behind a colon if it has a placeholder. -/
theorem fieldEnd_cons (placeholder : String) :
    ∃ first others, fieldEnd placeholder = first :: others ∧ (first = '}' ∨ first = ':') := by
  rw [fieldEnd]
  split
  · exact ⟨_, _, rfl, .inl rfl⟩
  · exact ⟨_, _, rfl, .inr rfl⟩

/-- A field is written with its number between a brace and its end. -/
theorem toList_defaultField (number : Nat) (placeholder : String) :
    (defaultField number placeholder).toList =
      '$' :: '{' :: (Nat.toDigits 10 number ++ fieldEnd placeholder) := by
  rw [defaultField, fieldEnd]
  split <;> simp

/-- Without a brace and a number only the dollar sign and the end of a field are left. -/
theorem toList_bareField (number : Nat) (placeholder : String) :
    (bareField number placeholder).toList = '$' :: fieldEnd placeholder := by
  rw [bareField, fieldEnd]
  split <;> simp

/-- A written field is a tabstop, and its placeholder may hold others. -/
theorem tabstops_field (number : Nat) (placeholder : String) (rest : List Char) :
    tabstops ((defaultField number placeholder).toList ++ rest) =
      number :: tabstops ((bareField number placeholder).toList ++ rest) := by
  obtain ⟨first, others, ending, isEnd⟩ := fieldEnd_cons placeholder
  have stops : CharClass.digit first = false := by
    rcases isEnd with rfl | rfl <;> rfl
  have closed : first ≠ '{' := by
    rcases isEnd with rfl | rfl <;> decide
  have digits : ∀ c ∈ Nat.toDigits 10 number, CharClass.digit c :=
    fun c member => Digits.digit_of_mem_toDigits member
  have ends : ∀ c ∈ (first :: (others ++ rest)).head?, CharClass.digit c = false := by
    rintro c ⟨⟩
    exact stops
  have mark : tabstop? ('$' :: '{' :: (Nat.toDigits 10 number ++ first :: (others ++ rest))) =
      some number := by
    have filled : (Nat.toDigits 10 number).isEmpty = false := by simp [Nat.toDigits_ne_nil]
    have isEnded : (first == '}' || first == ':') = true := by simpa using isEnd
    simp only [tabstop?, takeWhile_run digits ends, dropWhile_run digits ends, filled,
      List.head?_cons, Option.any_some, isEnded, Digits.natOf_toDigits]
    rfl
  have dollarless : '$' ∉ '{' :: Nat.toDigits 10 number := by
    rw [List.mem_cons, not_or]
    exact ⟨by decide, fun member => Bool.false_ne_true (digits '$' member)⟩
  rw [toList_defaultField, toList_bareField, ending]
  calc
    _ = tabstops ('$' :: '{' :: (Nat.toDigits 10 number ++ first :: (others ++ rest))) := by simp
    _ = number :: tabstops (first :: (others ++ rest)) := by
      rw [tabstops, mark, ← List.cons_append, tabstops_skip dollarless]
      rfl
    _ = number :: tabstops ('$' :: first :: (others ++ rest)) := by
      rw [tabstops.eq_2 '$', tabstop?_of_not_open closed]
      rfl

/-- The tabstops of a text made of pieces are those of its fields and those that remain when the
fields lose their numbers. -/
theorem mem_tabstops_pieces (number : Nat) (pieces : List WrittenPiece) (before : List Char) :
    number ∈ tabstops (before ++ pieces.flatMap (WrittenPiece.shown defaultField)) ↔
      number ∈ (pieces.filterMap WrittenPiece.field?).map WrittenField.written ∨
        number ∈ tabstops (before ++ pieces.flatMap (WrittenPiece.shown bareField)) := by
  induction pieces generalizing before with
  | nil => simp
  | cons piece rest ih =>
    cases piece with
    | text chars =>
      have moved := ih (before ++ chars)
      rw [List.append_assoc, List.append_assoc] at moved
      exact moved
    | field field placeholder =>
      -- In front of a field the two texts are the same, and a mark does not reach into the field.
      obtain ⟨found, behind⟩ := tabstops_until before
      have moved := ih (bareField field.written placeholder).toList
      have bare (left : List Char) :
          tabstops (before ++ ((bareField field.written placeholder).toList ++ left)) =
            found ++ tabstops ((bareField field.written placeholder).toList ++ left) := by
        rw [toList_bareField, List.cons_append, behind]
      have written (left : List Char) :
          tabstops (before ++ ((defaultField field.written placeholder).toList ++ left)) =
            found ++ field.written ::
              tabstops ((bareField field.written placeholder).toList ++ left) := by
        rw [← tabstops_field, toList_defaultField, List.cons_append, behind]
      simp only [List.flatMap_cons, WrittenPiece.shown, bare, written, List.mem_append,
        List.mem_cons, moved, List.filterMap_cons, WrittenPiece.field?, List.map_cons]
      rw [← or_assoc (a := number = field.written), or_left_comm]

end Shorthand
