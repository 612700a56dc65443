import Shorthand.FieldMark
import Shorthand.Proofs.Text.Pairing
import Shorthand.Proofs.Text.Run

/-!
# How field marks are written

`Spells` lists the written forms of a field mark. The scanner finds a mark exactly where one
of its forms stands in front, whatever follows it: `spells_of_scan` and `Spells.scan`.
-/

namespace Shorthand.FieldMark

open Pairing

/-- The written forms of a field mark: empty braces, a number alone or with a placeholder, and
the name of a variable. -/
inductive Spells : FieldMark → List Char → Prop where
  | bare : Spells ⟨none, ""⟩ ['$', '{', '}']
  | numbered {digits : List Char} (filled : digits ≠ [])
      (decimal : ∀ c ∈ digits, CharClass.digit c) :
      Spells ⟨Digits.word? digits, ""⟩ ('$' :: '{' :: (digits ++ ['}']))
  | captioned {digits name : List Char} (filled : digits ≠ [])
      (decimal : ∀ c ∈ digits, CharClass.digit c) (balanced : Balanced name) :
      Spells ⟨Digits.word? digits, String.ofList name⟩
        ('$' :: '{' :: (digits ++ ':' :: (name ++ ['}'])))
  | ofVariable {first : Char} {name : List Char} (letter : CharClass.letter first)
      (balanced : Balanced (first :: name)) :
      Spells ⟨none, String.ofList (first :: name)⟩ ('$' :: '{' :: (first :: name ++ ['}']))

/-! ### Placeholders -/

/-- A placeholder that is scanned pairs the braces that are pending, and ends at a closing
brace or with the input. -/
theorem placeholderFrom_ok {offset stop : Nat} {pending : List Nat} {input : List Char}
    (scanned : placeholderFrom offset pending input = .ok stop) :
    ∃ text rest, input = text ++ rest ∧ stop = offset + text.length ∧
      braceDepth? pending.length text = some 0 := by
  induction input generalizing offset pending with
  | nil =>
    cases pending with
    | nil =>
      cases scanned
      exact ⟨[], [], rfl, rfl, rfl⟩
    | cons => cases scanned
  | cons c others ih =>
    simp only [placeholderFrom] at scanned
    split at scanned
    case isTrue isOpen =>
      obtain ⟨text, rest, rfl, rfl, paired⟩ := ih scanned
      exact ⟨c :: text, rest, rfl, by simp only [List.length_cons]; omega,
        by simpa [braceDepth?, depthBehind?, isOpen] using paired⟩
    case isFalse notOpen =>
      split at scanned
      case isTrue isClosed =>
        cases pending with
        | nil =>
          cases scanned
          exact ⟨[], c :: others, rfl, rfl, rfl⟩
        | cons innermost outer =>
          obtain ⟨text, rest, rfl, rfl, paired⟩ := ih scanned
          exact ⟨c :: text, rest, rfl, by simp only [List.length_cons]; omega,
            by simpa [braceDepth?, depthBehind?, isClosed] using paired⟩
      case isFalse notClosed =>
        obtain ⟨text, rest, rfl, rfl, paired⟩ := ih scanned
        exact ⟨c :: text, rest, rfl, by simp only [List.length_cons]; omega,
          by simpa [braceDepth?, depthBehind?, notOpen, notClosed] using paired⟩

/-- A text that pairs the braces that are pending is passed over up to the closing brace. -/
theorem placeholderFrom_paired (pending : List Nat) {text : List Char} (offset : Nat)
    (rest : List Char) (paired : braceDepth? pending.length text = some 0) :
    placeholderFrom offset pending (text ++ '}' :: rest) = .ok (offset + text.length) := by
  induction text generalizing offset pending with
  | nil =>
    simp only [braceDepth?, depthBehind?, Option.some.injEq, List.length_eq_zero_iff] at paired
    subst paired
    rfl
  | cons c text ih =>
    have further : offset + (c :: text).length = offset + 1 + text.length := by
      simp only [List.length_cons]
      omega
    rw [List.cons_append, further]
    simp only [braceDepth?, depthBehind?, beq_iff_eq] at paired
    simp only [placeholderFrom]
    split at paired
    case isTrue isOpen =>
      rw [if_pos isOpen]
      exact ih _ (offset + 1) paired
    case isFalse notOpen =>
      rw [if_neg notOpen]
      split at paired
      case isTrue isClosed =>
        rw [if_pos isClosed]
        cases pending with
        | nil => cases paired
        | cons innermost outer => exact ih _ (offset + 1) paired
      case isFalse notClosed =>
        rw [if_neg notClosed]
        exact ih _ (offset + 1) paired

/-- A balanced name is passed over up to the brace behind it. -/
theorem placeholder_balanced {name : List Char} (rest : List Char) (balanced : Balanced name) :
    placeholder (name ++ '}' :: rest) = .ok name.length := by
  rw [placeholder, placeholderFrom_paired [] 0 rest balanced, Nat.zero_add]

/-- A brace that is not closed was opened inside of the placeholder. -/
theorem placeholderFrom_error {offset innermost : Nat} {pending : List Nat} {input : List Char}
    (scanned : placeholderFrom offset pending input = .error innermost)
    (opened : ∀ brace ∈ pending, brace ≤ offset) : innermost ≤ offset + input.length := by
  induction input generalizing offset pending with
  | nil =>
    cases pending with
    | nil => cases scanned
    | cons last outer =>
      cases scanned
      exact opened _ List.mem_cons_self
  | cons c others ih =>
    have later : ∀ brace ∈ pending, brace ≤ offset + 1 :=
      fun brace member => Nat.le_succ_of_le (opened brace member)
    have further {read : List Nat} (continued : placeholderFrom (offset + 1) read others =
        .error innermost) (opened : ∀ brace ∈ read, brace ≤ offset + 1) :
        innermost ≤ offset + (c :: others).length := by
      have bounded := ih continued opened
      simp only [List.length_cons]
      omega
    simp only [placeholderFrom] at scanned
    split at scanned
    case isTrue => exact further scanned (List.forall_mem_cons.mpr ⟨Nat.le_refl _, later⟩)
    case isFalse =>
      split at scanned
      case isTrue =>
        cases pending with
        | nil => cases scanned
        | cons last outer => exact further scanned (List.forall_mem_cons.mp later).2
      case isFalse => exact further scanned later

/-- A placeholder ends inside of the input, and so does the search for a brace that closes it. -/
theorem placeholder_le {input : List Char} {width : Nat}
    (scanned : placeholder input = .ok width ∨ placeholder input = .error width) :
    width ≤ input.length := by
  obtain ended | failed := scanned
  · obtain ⟨text, rest, rfl, rfl, -⟩ := placeholderFrom_ok ended
    simp
  · simpa using placeholderFrom_error failed (List.forall_mem_nil _)

/-! ### Marks -/

/-- A mark that is closed has its closing brace in front. -/
theorem closed_ok {mark found : FieldMark} {width total : Nat} {input : List Char}
    (scanned : closed mark width input = .ok (found, total)) :
    found = mark ∧ total = width + 1 ∧ ∃ rest, input = '}' :: rest := by
  unfold closed at scanned
  split at scanned
  · cases scanned
    exact ⟨rfl, rfl, _, rfl⟩
  · cases scanned

/-- A mark with a placeholder has it in front, and the closing brace behind it. -/
theorem named_ok {index : Option Nat} {found : FieldMark} {width total : Nat}
    {input : List Char} (scanned : named index width input = .ok (found, total)) :
    ∃ name rest, input = name ++ '}' :: rest ∧ Balanced name ∧
      found = ⟨index, String.ofList name⟩ ∧ total = width + name.length + 1 := by
  unfold named at scanned
  split at scanned
  · cases scanned
  · next size sized =>
    obtain ⟨name, rest, rfl, rfl, balanced⟩ := placeholderFrom_ok sized
    rw [Nat.zero_add, List.take_left, List.drop_left] at scanned
    obtain ⟨rfl, rfl, behind, rfl⟩ := closed_ok scanned
    exact ⟨name, behind, rfl, balanced, rfl, rfl⟩

/-- A field with a balanced name ends behind it. -/
theorem named_balanced {name : List Char} (index : Option Nat) (width : Nat) (rest : List Char)
    (balanced : Balanced name) :
    named index width (name ++ '}' :: rest) =
      .ok (⟨index, String.ofList name⟩, width + name.length + 1) := by
  simp [named, placeholder_balanced rest balanced, closed]

/-- What follows the opening brace of a mark completes one of its written forms. -/
theorem body_ok {mark : FieldMark} {width : Nat} {input : List Char}
    (scanned : body input = .ok (mark, width)) :
    ∃ text rest, input = text ++ rest ∧ width = text.length + 2 ∧
      Spells mark ('$' :: '{' :: text) := by
  simp only [body] at scanned
  split at scanned
  case isTrue undigited =>
    split at scanned
    · next first others =>
      split at scanned
      case isTrue letter =>
        obtain ⟨name, rest, same, balanced, rfl, rfl⟩ := named_ok scanned
        -- A name without characters would let the letter be the closing brace.
        cases name with
        | nil =>
          cases same
          exact absurd letter (by decide)
        | cons first name =>
          cases same
          refine ⟨first :: name ++ ['}'], rest, by simp, ?_, .ofVariable letter balanced⟩
          simp only [List.length_append, List.length_cons, List.length_nil]
          omega
      case isFalse =>
        obtain ⟨rfl, rfl, rest, same⟩ := closed_ok scanned
        exact ⟨['}'], rest, same, rfl, .bare⟩
    · obtain ⟨rfl, rfl, rest, same⟩ := closed_ok scanned
      cases same
  case isFalse digited =>
    have decimal : ∀ c ∈ input.takeWhile CharClass.digit, CharClass.digit c :=
      fun c member => List.mem_takeWhile_imp member
    have split := List.takeWhile_append_dropWhile (p := CharClass.digit) (l := input)
    rw [List.isEmpty_iff] at digited
    generalize input.takeWhile CharClass.digit = digits at *
    generalize input.dropWhile CharClass.digit = behind at split
    subst split
    rw [List.drop_left] at scanned
    split at scanned
    · next rest =>
      obtain ⟨name, behind, rfl, balanced, rfl, rfl⟩ := named_ok scanned
      refine ⟨digits ++ ':' :: (name ++ ['}']), behind, by simp, ?_,
        .captioned digited decimal balanced⟩
      simp only [List.length_append, List.length_cons, List.length_nil]
      omega
    · obtain ⟨rfl, rfl, rest, rfl⟩ := closed_ok scanned
      refine ⟨digits ++ ['}'], rest, by simp, ?_, .numbered digited decimal⟩
      simp only [List.length_append, List.length_cons, List.length_nil]
      omega

/-- A mark that is scanned stands in front in one of its written forms. -/
theorem spells_of_scan {mark : FieldMark} {width : Nat} {input : List Char}
    (scanned : scan input = .ok (some (mark, width))) :
    ∃ text rest, input = text ++ rest ∧ text.length = width ∧ Spells mark text := by
  unfold scan at scanned
  split at scanned
  case h_2 => cases scanned
  case h_1 rest =>
    cases read : body rest with
    | error offset => simp [read, Except.map] at scanned
    | ok answer =>
      simp only [read, Except.map, Except.ok.injEq, Option.some.injEq] at scanned
      subst scanned
      obtain ⟨text, behind, rfl, rfl, spells⟩ := body_ok read
      exact ⟨'$' :: '{' :: text, behind, rfl, rfl, spells⟩

/-- Anything but a closing brace is a fault. -/
theorem closed_other {c : Char} (mark : FieldMark) (width : Nat) (rest : List Char)
    (other : c ≠ '}') : closed mark width (c :: rest) = .error width := by
  unfold closed
  split
  · simp_all
  · rfl

/-- A field that is not closed fails where its brace is missing. -/
theorem closed_error {mark : FieldMark} {width offset : Nat} {input : List Char}
    (scanned : closed mark width input = .error offset) : offset = width := by
  unfold closed at scanned
  split at scanned <;> cases scanned
  rfl

/-- A name that is not closed fails within the input. -/
theorem named_error {index : Option Nat} {width offset : Nat} {input : List Char}
    (scanned : named index width input = .error offset) : offset ≤ width + input.length := by
  unfold named at scanned
  split at scanned
  case h_1 failed =>
    cases scanned
    exact Nat.add_le_add_left (placeholder_le (.inr failed)) width
  case h_2 ended =>
    rw [closed_error scanned]
    exact Nat.add_le_add_left (placeholder_le (.inl ended)) width

/-- A field fails within the input. -/
theorem body_error {offset : Nat} {input : List Char} (scanned : body input = .error offset) :
    offset ≤ 2 + input.length := by
  simp only [body] at scanned
  split at scanned
  case isTrue =>
    split at scanned
    · split at scanned
      · exact named_error scanned
      · rw [closed_error scanned]
        exact Nat.le_add_right 2 _
    · rw [closed_error scanned]
      exact Nat.le_add_right 2 _
  case isFalse =>
    have digits := (List.takeWhile_sublist CharClass.digit (l := input)).length_le
    split at scanned
    · next rest behind =>
      have left := congrArg List.length behind
      have bounded := named_error scanned
      simp only [List.length_drop, List.length_cons] at left
      omega
    · rw [closed_error scanned]
      omega

/-- A mark that is not closed is noticed inside of the input or behind it. -/
theorem scan_error {offset : Nat} {input : List Char} (scanned : scan input = .error offset) :
    offset ≤ input.length := by
  unfold scan at scanned
  split at scanned
  case h_2 => cases scanned
  case h_1 rest =>
    cases read : body rest with
    | ok answer => simp [read, Except.map] at scanned
    | error distance =>
      simp only [read, Except.map, Except.error.injEq] at scanned
      have bounded := body_error read
      simp only [List.length_cons]
      omega

/-- A mark in one of its written forms is scanned, whatever follows it. -/
theorem Spells.scan {mark : FieldMark} {text : List Char} (spells : Spells mark text)
    (rest : List Char) : scan (text ++ rest) = .ok (some (mark, text.length)) := by
  cases spells with
  | bare => rfl
  | @numbered digits filled decimal =>
    have run : (digits ++ '}' :: rest).takeWhile CharClass.digit = digits :=
      takeWhile_run decimal (by simp [CharClass.digit])
    simp [FieldMark.scan, body, run, filled, closed, Except.map]
    omega
  | @captioned digits name filled decimal balanced =>
    have run : (digits ++ ':' :: (name ++ '}' :: rest)).takeWhile CharClass.digit = digits :=
      takeWhile_run decimal (by simp [CharClass.digit])
    simp [FieldMark.scan, body, run, filled, named_balanced _ _ rest balanced, Except.map]
    omega
  | @ofVariable first name letter balanced =>
    have undigited := CharClass.digit_of_letter letter
    have read := named_balanced none 2 rest balanced
    rw [List.cons_append] at read
    simp [FieldMark.scan, body, undigited, letter, read, Except.map]
    omega

end Shorthand.FieldMark
