import Mathlib.Data.List.Forall2
import Shorthand.Markup.Filler
import Shorthand.Proofs.Text.Run

/-!
# Names of fillers

A name has a word in any case, letters of a language, and the digits of up to two counts with a
dash between them. These names are read, and no others.
-/

namespace Shorthand.Markup.Filler

/-- Letters that write a word in any case. -/
def Writes (word letters : List Char) : Prop :=
  List.Forall₂ (fun letter c => isLetter letter c) word letters

instance (word letters : List Char) : Decidable (Writes word letters) :=
  inferInstanceAs (Decidable (List.Forall₂ _ _ _))

/-- The name of a filler: its word, the letters of a language, the digits of the least count and,
behind a dash, those of the largest one. All but the word may be missing. -/
structure FillerName where
  word : List Char
  letters : List Char
  least : List Char
  most : Option (List Char)
  isWord : Writes "lorem".toList word ∨ Writes "lipsum".toList word
  areLetters : ∀ c ∈ letters, CharClass.foldedLetter c
  areLeast : ∀ c ∈ least, CharClass.anyDigit c
  areMost : ∀ digits ∈ most, ∀ c ∈ digits, CharClass.anyDigit c

namespace FillerName

variable (name : FillerName)

/-- What stands behind the digits of the least count. -/
def ending : List Char := name.most.elim [] ('-' :: ·)

def text : String := String.ofList (name.word ++ (name.letters ++ (name.least ++ name.ending)))

def language : String := LetterCase.lower (String.ofList name.letters)

/-- At least one; the usual count where no machine word is written. -/
def leastCount : Nat := ((Digits.word? name.least).map (max 1)).getD defaultCount

/-- No less than the least count, and the same where no machine word is written. -/
def mostCount : Nat :=
  ((name.most.bind Digits.word?).map (max name.leastCount)).getD name.leastCount

/-- At least one word is asked for. -/
theorem leastCount_pos : 0 < name.leastCount := by
  rw [leastCount]
  cases Digits.word? name.least with
  | none => exact Nat.succ_pos _
  | some count => exact Nat.le_max_left 1 count

/-- The least count is not above the most. -/
theorem leastCount_le : name.leastCount ≤ name.mostCount := by
  rw [mostCount]
  cases name.most.bind Digits.word? with
  | none => exact Nat.le_refl _
  | some count => exact Nat.le_max_left _ count

end FillerName

/-- A word is recognized in either case. -/
theorem afterWord?_writes {word letters : List Char} (writes : Writes word letters)
    (rest : List Char) : afterWord? word (letters ++ rest) = some rest := by
  induction writes with
  | nil => rfl
  | cons isLetter _ ih => rw [List.cons_append, afterWord?, if_pos isLetter, ih]

/-- A name does not begin with both words. -/
theorem afterWord?_other {letters : List Char} (writes : Writes "lipsum".toList letters)
    (rest : List Char) : afterWord? "lorem".toList (letters ++ rest) = none := by
  have spelled : "lipsum".toList = ['l', 'i', 'p', 's', 'u', 'm'] := by decide
  have others : "lorem".toList = ['l', 'o', 'r', 'e', 'm'] := by decide
  rw [spelled, Writes] at writes
  cases writes with
  | cons first writes =>
    cases writes with
    | @cons _ second _ _ isSecond _ =>
      have small : second.toLower = 'i' := by simpa [isLetter] using isSecond
      have apart : isLetter 'o' second = false := by simp [isLetter, small]
      rw [others, List.cons_append, List.cons_append, afterWord?, if_pos first, afterWord?, apart]
      rfl

/-- No digit of any script is a letter. -/
theorem foldedLetter_of_anyDigit {c : Char} (isDigit : CharClass.anyDigit c) :
    CharClass.foldedLetter c = false := by
  rw [Bool.eq_false_iff]
  intro isLetter
  simp only [CharClass.foldedLetter, Bool.or_eq_true, beq_iff_eq] at isLetter
  rcases isLetter with (isLetter | rfl) | rfl
  · have bounds := (CharClass.letter_iff c).mp isLetter
    have small : ¬128 ≤ c.toNat := by
      have values : 'z'.toNat = 122 ∧ 'Z'.toNat = 90 := by decide
      omega
    simp [CharClass.anyDigit, CharClass.digit_of_letter isLetter, small] at isDigit
  · revert isDigit
    decide
  · revert isDigit
    decide

section

variable (name : FillerName)

/-- What stands behind the digits is no digit. -/
theorem FillerName.anyDigit_ending : ∀ c ∈ name.ending.head?, CharClass.anyDigit c = false := by
  rw [FillerName.ending]
  cases name.most with
  | none => simp
  | some digits =>
    rintro c ⟨⟩
    decide

/-- What stands behind the language is no letter. -/
theorem FillerName.foldedLetter_behind :
    ∀ c ∈ (name.least ++ name.ending).head?, CharClass.foldedLetter c = false := by
  cases digits : name.least with
  | nil =>
    rw [FillerName.ending]
    cases name.most with
    | none => simp
    | some digits =>
      rintro c ⟨⟩
      decide
  | cons digit others =>
    rintro c ⟨⟩
    exact foldedLetter_of_anyDigit (name.areLeast _ (by rw [digits]; exact List.mem_cons_self))

/-- What stands behind the word of a name. -/
theorem FillerName.afterWord?_text :
    (afterWord? "lorem".toList name.text.toList <|> afterWord? "lipsum".toList name.text.toList) =
      some (name.letters ++ (name.least ++ name.ending)) := by
  have characters : name.text.toList = name.word ++ (name.letters ++ (name.least ++ name.ending)) :=
    String.toList_ofList
  rw [characters]
  rcases name.isWord with isWord | isWord
  · rw [afterWord?_writes isWord]
    rfl
  · rw [afterWord?_other isWord, afterWord?_writes isWord]
    rfl

/-- The name of a filler is read as it is written. -/
theorem request?_text :
    request? name.text = some ⟨name.language, name.leastCount, name.mostCount⟩ := by
  rw [request?, name.afterWord?_text]
  simp only [takeWhile_run name.areLetters name.foldedLetter_behind,
    dropWhile_run name.areLetters name.foldedLetter_behind,
    takeWhile_run name.areLeast name.anyDigit_ending,
    dropWhile_run name.areLeast name.anyDigit_ending]
  rw [FillerName.ending, FillerName.mostCount]
  cases most : name.most with
  | none => rfl
  | some digits =>
    have all : digits.all CharClass.anyDigit = true :=
      List.all_eq_true.mpr (name.areMost digits most)
    simp only [Option.elim_some, all, if_true, Option.bind_some, Option.map_some]
    rfl

end

/-! ### Names that are read -/

/-- What is recognized as a word is that word in some case. -/
theorem writes_of_afterWord? {word text rest : List Char}
    (read : afterWord? word text = some rest) :
    ∃ letters, Writes word letters ∧ text = letters ++ rest := by
  induction word generalizing text with
  | nil =>
    cases read
    exact ⟨[], .nil, rfl⟩
  | cons letter word ih =>
    cases text with
    | nil => cases read
    | cons c text =>
      rw [afterWord?] at read
      split at read
      · next same =>
        obtain ⟨letters, writes, rfl⟩ := ih read
        exact ⟨c :: letters, .cons same writes, rfl⟩
      · cases read

/-- A word, letters and counts make the name of a filler. -/
theorem exists_fillerName {text : String} {word letters least : List Char}
    (most : Option (List Char))
    (isWord : Writes "lorem".toList word ∨ Writes "lipsum".toList word)
    (areLetters : ∀ c ∈ letters, CharClass.foldedLetter c)
    (areLeast : ∀ c ∈ least, CharClass.anyDigit c)
    (areMost : ∀ digits ∈ most, ∀ c ∈ digits, CharClass.anyDigit c)
    (isText : text.toList = word ++ (letters ++ (least ++ most.elim [] ('-' :: ·)))) :
    ∃ name : FillerName, name.text = text := by
  refine ⟨⟨word, letters, least, most, isWord, areLetters, areLeast, areMost⟩, ?_⟩
  rw [FillerName.text, FillerName.ending, ← isText, String.ofList_toList]

/-- Every name that asks for a filler is one. -/
theorem request?_isSome {text : String} (read : (request? text).isSome) :
    ∃ name : FillerName, name.text = text := by
  rw [request?] at read
  split at read
  · cases read
  next rest found =>
    obtain ⟨word, isWord, isText⟩ : ∃ word, (Writes "lorem".toList word ∨
        Writes "lipsum".toList word) ∧ text.toList = word ++ rest := by
      rw [Option.orElse_eq_orElse, Option.orElse_eq_or, Option.or_eq_some_iff] at found
      rcases found with first | ⟨-, second⟩
      · obtain ⟨word, writes, apart⟩ := writes_of_afterWord? first
        exact ⟨word, .inl writes, apart⟩
      · obtain ⟨word, writes, apart⟩ := writes_of_afterWord? second
        exact ⟨word, .inr writes, apart⟩
    have areLetters : ∀ c ∈ rest.takeWhile CharClass.foldedLetter, CharClass.foldedLetter c :=
      fun c => List.mem_takeWhile_imp
    dsimp only at read
    rw [← List.takeWhile_append_dropWhile (p := CharClass.foldedLetter) (l := rest)] at isText
    generalize rest.dropWhile CharClass.foldedLetter = behind at read isText
    have areLeast : ∀ c ∈ behind.takeWhile CharClass.anyDigit, CharClass.anyDigit c :=
      fun c => List.mem_takeWhile_imp
    rw [← List.takeWhile_append_dropWhile (p := CharClass.anyDigit) (l := behind)] at isText
    split at read
    case h_1 ended =>
      rw [ended] at isText
      exact exists_fillerName none isWord areLetters areLeast (by simp) isText
    case h_2 digits ended =>
      split at read
      · next all =>
        rw [ended] at isText
        exact exists_fillerName (some digits) isWord areLetters areLeast (by simpa using all) isText
      · cases read
    case h_3 => cases read

/-- Just the names of this form are read. -/
theorem request?_isSome_iff {text : String} :
    (request? text).isSome ↔ ∃ name : FillerName, name.text = text := by
  constructor
  · exact request?_isSome
  · rintro ⟨name, rfl⟩
    rw [request?_text]
    rfl

end Shorthand.Markup.Filler
