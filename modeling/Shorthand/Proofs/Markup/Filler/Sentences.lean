import Mathlib.Data.List.Dedup
import Mathlib.Data.List.Perm.Subperm
import Shorthand.Markup.Filler
import Shorthand.Proofs.Text.Words

/-!
# Sentences of the filler text

A sentence has clean words, commas behind some of them but never behind the last one, and a mark.
What is drawn is chosen from the vocabulary, then gets commas and a capital; each of these steps is
followed here. An entry of a vocabulary may hold several words.
-/

namespace Shorthand

namespace Markup.Filler

/-! ### Clean words -/

/-- A character that is no white space, no comma and no mark that sentences end with. -/
def IsPlain (c : Char) : Prop := CharClass.blank c = false ∧ c ∉ [',', '.', '?', '!']

instance (c : Char) : Decidable (IsPlain c) :=
  inferInstanceAs (Decidable (_ ∧ _))

/-- A word of plain characters. -/
def IsClean (word : String) : Prop := word ≠ "" ∧ ∀ c ∈ word.toList, IsPlain c

instance (word : String) : Decidable (IsClean word) :=
  have := List.decidableBAll IsPlain word.toList
  inferInstanceAs (Decidable (_ ∧ _))

/-- Clean words with single blanks between them. -/
def IsPhrase (text : String) : Prop :=
  Text.words text ≠ [] ∧ Text.join " " (Text.words text) = text ∧
    ∀ word ∈ Text.words text, IsClean word

instance (text : String) : Decidable (IsPhrase text) :=
  inferInstanceAs (Decidable (_ ∧ _ ∧ _))

/-- The number of words in entries. -/
def wordCount (entries : List String) : Nat := (entries.flatMap Text.words).length

/-- A clean word that may carry one comma. -/
def IsFrontWord (word : String) : Prop :=
  IsClean word ∨ ∃ clean, IsClean clean ∧ word = clean ++ ","

/-- A sentence: words of which those in front may carry a comma, a last one without, and a mark. -/
structure Sentence where
  front : List String
  last : String
  mark : String
  isFront : ∀ word ∈ front, IsFrontWord word
  isLast : IsClean last
  isMark : mark ∈ ["?", "!", "."]

namespace Sentence

/-- The words as they are written: the last one with the mark. -/
def words (sentence : Sentence) : List String :=
  sentence.front ++ [sentence.last ++ sentence.mark]

def text (sentence : Sentence) : String := Text.join " " sentence.words

end Sentence

/-- Texts are sentences with a number of words in all. -/
def IsProse (texts : List String) (size : Nat) : Prop :=
  ∃ sentences : List Sentence, texts = sentences.map Sentence.text ∧
    (sentences.flatMap Sentence.words).length = size

/-- Without sentences there are no words. -/
theorem IsProse.nil : IsProse [] 0 := ⟨[], rfl, rfl⟩

/-- A sentence in front adds its words. -/
theorem IsProse.cons {texts : List String} {size : Nat} (sentence : Sentence)
    (others : IsProse texts size) :
    IsProse (sentence.text :: texts) (sentence.words.length + size) := by
  obtain ⟨sentences, rfl, rfl⟩ := others
  exact ⟨sentence :: sentences, rfl, by simp⟩

/-! ### Commas -/

/-- Commas stand behind some entries, but not behind the last one. -/
inductive Punctuated : List String → List String → Prop where
  | nil : Punctuated [] []
  | last (entry : String) : Punctuated [entry] [entry]
  | plain (entry : String) {second : String} {rest written : List String}
      (others : Punctuated (second :: rest) written) :
      Punctuated (entry :: second :: rest) (entry :: written)
  | comma (entry : String) {second : String} {rest written : List String}
      (others : Punctuated (second :: rest) written) :
      Punctuated (entry :: second :: rest) ((entry ++ ",") :: written)

section

variable {entries written : List String}

/-- No commas need to be put. -/
theorem Punctuated.refl (entries : List String) : Punctuated entries entries := by
  induction entries with
  | nil => exact .nil
  | cons entry rest ih =>
    cases rest with
    | nil => exact .last entry
    | cons second rest => exact .plain entry ih

/-- A comma belongs to the entry in front of it. -/
theorem Punctuated.length_eq (punctuated : Punctuated entries written) :
    written.length = entries.length := by
  induction punctuated with
  | nil => rfl
  | last entry => rfl
  | plain entry others ih => simpa using ih
  | comma entry others ih => simpa using ih

/-- An entry with a comma ends with one. -/
theorem endsWith_comma (entry : String) : (entry ++ ",").endsWith "," = true := by
  rw [String.endsWith_eq_endsWith_toSlice, String.Slice.endsWith_string_iff]
  simp

/-- A second comma is not put behind an entry, and none behind the last one. -/
theorem Punctuated.addComma (punctuated : Punctuated entries written) {place : Nat}
    (inFront : place + 1 < entries.length) : Punctuated entries (addComma place written) := by
  induction punctuated generalizing place with
  | nil => cases inFront
  | last entry => simp at inFront
  | plain entry others ih =>
    cases place with
    | zero =>
      rw [Filler.addComma, List.modify_zero_cons]
      split
      · exact .plain entry others
      · exact .comma entry others
    | succ place => exact .plain entry (ih (by simpa using inFront))
  | comma entry others ih =>
    cases place with
    | zero =>
      rw [Filler.addComma, List.modify_zero_cons, if_pos (endsWith_comma entry)]
      exact .comma entry others
    | succ place => exact .comma entry (ih (by simpa using inFront))

variable {State : Type} (draws : Draws State)

/-- Drawing commas puts them behind entries that have none, and never behind the last one. -/
theorem Punctuated.addCommas (punctuated : Punctuated entries written)
    (several : 2 ≤ entries.length) (count : Nat) (state : State) :
    Punctuated entries (addCommas draws count written state).1 := by
  induction count generalizing written state with
  | zero => exact punctuated
  | succ count ih =>
    have bounded := draws.below_le state 0 (written.length - 2)
    rw [punctuated.length_eq] at bounded
    have inFront : (draws.below 0 (entries.length - 2) state).1 + 1 < entries.length := by omega
    rw [Filler.addCommas, punctuated.length_eq]
    exact ih (punctuated.addComma inFront) _

/-- The commas of a sentence are put behind some of its entries. -/
theorem punctuate_punctuated (entries : List String) (state : State) :
    Punctuated entries (punctuate draws entries state).1 := by
  rw [punctuate]
  split
  · exact .refl entries
  · next several => exact (Punctuated.refl entries).addCommas draws (by omega) _ _

end

/-! ### Words of a sentence -/

/-- What is put behind the last text is put behind all of them. -/
theorem join_concat_append (front : List String) (last more : String) :
    Text.join " " (front ++ [last ++ more]) = Text.join " " (front ++ [last]) ++ more := by
  by_cases filled : front = []
  · simp [filled, Text.join]
  · rw [Text.join, Text.join, String.intercalate_append_of_ne_nil filled (List.cons_ne_nil _ _),
      String.intercalate_append_of_ne_nil filled (List.cons_ne_nil _ _),
      String.intercalate_singleton, String.intercalate_singleton]
    simp only [String.append_assoc]

/-- A phrase has a last word. -/
theorem IsPhrase.exists_concat {text : String} (phrase : IsPhrase text) :
    ∃ front last, Text.words text = front ++ [last] ∧ Text.join " " (front ++ [last]) = text ∧
      (∀ word ∈ front, IsFrontWord word) ∧ IsClean last := by
  obtain ⟨filled, joined, clean⟩ := phrase
  rcases List.eq_nil_or_concat (Text.words text) with empty | ⟨front, last, split⟩
  · exact absurd empty filled
  · rw [List.concat_eq_append] at split
    rw [split] at joined clean
    refine ⟨front, last, split, joined, fun word member => .inl ?_, ?_⟩
    · exact clean word (List.mem_append_left _ member)
    · exact clean last (List.mem_append_right _ (List.mem_singleton_self last))

/-- A phrase is not empty. -/
theorem IsPhrase.ne_empty {text : String} (phrase : IsPhrase text) : text ≠ "" := by
  rintro rfl
  exact phrase.1 (by decide)

/-- A text has the words of a sentence without its mark. -/
def IsClause (text : String) (size : Nat) : Prop :=
  ∃ front last, text = Text.join " " (front ++ [last]) ∧ front.length + 1 = size ∧
    (∀ word ∈ front, IsFrontWord word) ∧ IsClean last

/-- Words in front of a clause make a longer clause. -/
theorem IsClause.behind {text : String} {size : Nat} (clause : IsClause text size)
    {words : List String} (filled : words ≠ []) (areFront : ∀ word ∈ words, IsFrontWord word) :
    IsClause (Text.join " " words ++ " " ++ text) (words.length + size) := by
  obtain ⟨front, last, rfl, rfl, isFront, isLast⟩ := clause
  refine ⟨words ++ front, last, ?_, by rw [List.length_append, Nat.add_assoc], ?_, isLast⟩
  · rw [List.append_assoc, Text.join, Text.join, Text.join,
      String.intercalate_append_of_ne_nil filled (by simp)]
  · exact fun word member => (List.mem_append.mp member).elim (areFront word) (isFront word)

/-- A text in front of others that are not missing. -/
theorem join_cons_of_ne_nil (first : String) {rest : List String} (filled : rest ≠ []) :
    Text.join " " (first :: rest) = first ++ " " ++ Text.join " " rest := by
  have apart : first :: rest = [first] ++ rest := rfl
  rw [apart, Text.join, String.intercalate_append_of_ne_nil (List.cons_ne_nil _ _) filled,
    String.intercalate_singleton]
  rfl

/-- The words of entries are counted entry by entry. -/
theorem wordCount_cons (entry : String) (entries : List String) :
    wordCount (entry :: entries) = (Text.words entry).length + wordCount entries := by
  rw [wordCount, List.flatMap_cons, List.length_append, wordCount]

/-- Phrases with commas make a clause, which has as many words as the phrases. -/
theorem Punctuated.isClause {entries written : List String}
    (punctuated : Punctuated entries written) (filled : entries ≠ [])
    (phrases : ∀ entry ∈ entries, IsPhrase entry) :
    IsClause (Text.join " " written) (wordCount entries) := by
  induction punctuated with
  | nil => exact absurd rfl filled
  | last entry =>
    obtain ⟨front, last, split, joined, isFront, isLast⟩ :=
      (phrases entry List.mem_cons_self).exists_concat
    refine ⟨front, last, ?_, by simp [wordCount, split], isFront, isLast⟩
    rw [joined, Text.join, String.intercalate_singleton]
  | plain entry others ih =>
    obtain ⟨phrase, phrases⟩ := List.forall_mem_cons.mp phrases
    have clause := ih (List.cons_ne_nil _ _) phrases
    have more : _ ≠ [] := List.ne_nil_of_length_pos (by rw [others.length_eq]; simp)
    rw [join_cons_of_ne_nil entry more, wordCount_cons]
    nth_rewrite 1 [← phrase.2.1]
    exact clause.behind phrase.1 fun word member => .inl (phrase.2.2 word member)
  | comma entry others ih =>
    obtain ⟨phrase, phrases⟩ := List.forall_mem_cons.mp phrases
    have clause := ih (List.cons_ne_nil _ _) phrases
    have more : _ ≠ [] := List.ne_nil_of_length_pos (by rw [others.length_eq]; simp)
    obtain ⟨front, last, split, joined, isFront, isLast⟩ := phrase.exists_concat
    have sizes : (front ++ [last ++ ","]).length = (Text.words entry).length := by simp [split]
    rw [join_cons_of_ne_nil _ more, wordCount_cons, ← joined, ← join_concat_append, joined, ← sizes]
    refine clause.behind (by simp) fun word member => ?_
    rcases List.mem_append.mp member with inFront | isFinal
    · exact isFront word inFront
    · exact .inr ⟨last, isLast, List.mem_singleton.mp isFinal⟩

/-! ### Capitals -/

/-- The values between two bounds are those of plain characters. -/
def ArePlain (first last : Int) : Prop :=
  64 ≤ first ∧ (last < 0x85 ∨ 0xA0 < first) ∧ (last < 0x1680 ∨ 0x1680 < first) ∧
    (last < 0x2000 ∨ 0x205F < first) ∧ (last < 0x3000 ∨ 0x3000 < first)

instance (first last : Int) : Decidable (ArePlain first last) :=
  inferInstanceAs (Decidable (_ ∧ _ ∧ _ ∧ _ ∧ _))

/-- Characters within a range of plain numbers are plain. -/
theorem isPlain_ofNat {value : Nat} {first last : Int} (plain : ArePlain first last)
    (inside : first ≤ value ∧ value ≤ last) : IsPlain (Char.ofNat value) := by
  obtain ⟨behind, latin, ogham, general, ideographic⟩ := plain
  by_cases valid : value.isValidChar
  · have number : (Char.ofNat value).toNat = value := by
      rw [Char.ofNat, dif_pos valid]
      rfl
    constructor
    · rw [CharClass.blank, number, Bool.eq_false_iff]
      simp only [ne_eq, Bool.or_eq_true, Bool.and_eq_true, decide_eq_true_eq, beq_iff_eq]
      omega
    · intro isMark
      have small : (Char.ofNat value).toNat < 64 := by
        have all : [',', '.', '?', '!'].all (·.toNat < 64) := by decide
        exact of_decide_eq_true (List.all_eq_true.mp all _ isMark)
      omega
  · rw [Char.ofNat, dif_neg valid]
    decide

/-- The capitals of plain characters are plain. -/
theorem isPlain_upperChar {c : Char} (plain : IsPlain c) :
    ∀ d ∈ LetterCase.upperChar c, IsPlain d := by
  rw [LetterCase.upperChar]
  split
  case isTrue ascii =>
    have all : ∀ number < 128, IsPlain (Char.ofNat number) →
        IsPlain (Char.ofNat number).toUpper := by decide +kernel
    have capital := all c.toNat ascii
    rw [Char.ofNat_toNat] at capital
    exact List.forall_mem_singleton.mpr (capital plain)
  case isFalse =>
    split
    case h_1 image found =>
      have all : ∀ entry ∈ CharTable.upperSequences, ∀ value ∈ entry.2,
          ArePlain value value := by decide +kernel
      intro d member
      obtain ⟨value, among, rfl⟩ := List.mem_map.mp member
      obtain ⟨front, rest, table, -⟩ := List.lookup_eq_some_iff.mp found
      have entry : (c.toNat, image) ∈ CharTable.upperSequences := by simp [table]
      exact isPlain_ofNat (all _ entry value among) ⟨Int.le_refl _, Int.le_refl _⟩
    case h_2 =>
      have all : ∀ entry ∈ CharTable.upperShifts,
          ArePlain (entry.first + entry.shift) (entry.last + entry.shift) := by decide +kernel
      rw [List.forall_mem_singleton, LetterCase.shifted]
      split
      case h_1 value image =>
        obtain ⟨entry, member, applied⟩ := List.exists_of_findSome?_eq_some image
        unfold CharTable.Shift.apply? at applied
        split at applied
        · have bounds := all entry member
          cases applied
          exact isPlain_ofNat bounds (by have := bounds.1; omega)
        · cases applied
      case h_2 => exact plain

/-- The upper case of a character is at least one character. -/
theorem upperChar_ne_nil (c : Char) : LetterCase.upperChar c ≠ [] := by
  have all : ∀ entry ∈ CharTable.upperSequences, entry.2 ≠ [] := by decide +kernel
  rw [LetterCase.upperChar]
  split
  · exact List.cons_ne_nil _ _
  · split
    next image found =>
      obtain ⟨front, rest, table, -⟩ := List.lookup_eq_some_iff.mp found
      have entry : (c.toNat, image) ∈ CharTable.upperSequences := by simp [table]
      simpa using all _ entry
    next => exact List.cons_ne_nil _ _

/-- A capital is put at the beginning, so what stands behind does not matter. -/
theorem capitalize_append {entry : String} (filled : entry ≠ "") (more : String) :
    capitalize (entry ++ more) = capitalize entry ++ more := by
  rw [capitalize, capitalize, String.toList_append]
  cases characters : entry.toList with
  | nil => exact absurd (String.toList_eq_nil_iff.mp characters) filled
  | cons first rest =>
    rw [List.cons_append, ← String.toList_inj]
    simp

/-- A clean word is clean with a capital. -/
theorem IsClean.capitalize {word : String} (clean : IsClean word) : IsClean (capitalize word) := by
  obtain ⟨filled, plain⟩ := clean
  rw [Filler.capitalize]
  cases characters : word.toList with
  | nil => exact absurd (String.toList_eq_nil_iff.mp characters) filled
  | cons first rest =>
    rw [characters, List.forall_mem_cons] at plain
    constructor
    · simp [String.ofList_eq_empty_iff, upperChar_ne_nil]
    · rw [String.toList_ofList]
      exact List.forall_mem_append.mpr ⟨isPlain_upperChar plain.1, plain.2⟩

/-- A word with a comma is one with a capital too. -/
theorem IsFrontWord.capitalize {word : String} (isFront : IsFrontWord word) :
    IsFrontWord (capitalize word) := by
  rcases isFront with clean | ⟨clean, isClean, rfl⟩
  · exact .inl clean.capitalize
  · rw [capitalize_append isClean.1]
    exact .inr ⟨_, isClean.capitalize, rfl⟩

/-- A word with a comma is not empty. -/
theorem IsFrontWord.ne_empty {word : String} (isFront : IsFrontWord word) : word ≠ "" := by
  rcases isFront with clean | ⟨clean, -, rfl⟩
  · exact clean.1
  · simp [String.append_eq_empty_iff]

/-- Commas leave no entry empty. -/
theorem Punctuated.ne_empty {entries written : List String}
    (punctuated : Punctuated entries written) (filled : ∀ entry ∈ entries, entry ≠ "") :
    ∀ word ∈ written, word ≠ "" := by
  induction punctuated with
  | nil => exact filled
  | last entry => exact filled
  | plain entry others ih =>
    rw [List.forall_mem_cons] at filled ⊢
    exact ⟨filled.1, ih filled.2⟩
  | comma entry others ih =>
    rw [List.forall_mem_cons] at filled ⊢
    exact ⟨by simp [String.append_eq_empty_iff], ih filled.2⟩

/-- A sentence begins with a capital. -/
theorem sentenceText_cons {first : String} (filled : first ≠ "") (rest : List String) :
    sentenceText (first :: rest) = capitalize (Text.join " " (first :: rest)) := by
  cases rest with
  | nil => simp only [sentenceText, Text.join, String.intercalate_singleton]
  | cons second rest =>
    have more := List.cons_ne_nil second rest
    rw [sentenceText, join_cons_of_ne_nil _ more, join_cons_of_ne_nil _ more, String.append_assoc,
      String.append_assoc, capitalize_append filled]

/-- A clause with a capital is a clause of as many words. -/
theorem IsClause.capitalize {text : String} {size : Nat} (clause : IsClause text size) :
    IsClause (capitalize text) size := by
  obtain ⟨front, last, rfl, rfl, isFront, isLast⟩ := clause
  cases front with
  | nil =>
    refine ⟨[], Filler.capitalize last, ?_, rfl, isFront, isLast.capitalize⟩
    simp only [List.nil_append, Text.join, String.intercalate_singleton]
  | cons first front =>
    rw [List.forall_mem_cons] at isFront
    refine ⟨Filler.capitalize first :: front, last, ?_, rfl, ?_, isLast⟩
    · exact (sentenceText_cons isFront.1.ne_empty (front ++ [last])).symm
    · exact List.forall_mem_cons.mpr ⟨isFront.1.capitalize, isFront.2⟩

/-- Phrases that are written as a sentence make one with as many words as they hold. -/
theorem Punctuated.exists_sentence {entries written : List String}
    (punctuated : Punctuated entries written) (filled : entries ≠ [])
    (phrases : ∀ entry ∈ entries, IsPhrase entry) {mark : String}
    (isMark : mark ∈ ["?", "!", "."]) :
    ∃ sentence : Sentence, sentence.text = sentenceText written ++ mark ∧
      sentence.words.length = wordCount entries := by
  have clause := (punctuated.isClause filled phrases).capitalize
  have isFilled := punctuated.ne_empty fun entry member => (phrases entry member).ne_empty
  have more : written ≠ [] :=
    List.ne_nil_of_length_pos (by rw [punctuated.length_eq]; exact List.length_pos_iff.mpr filled)
  obtain ⟨first, rest, rfl⟩ := List.exists_cons_of_ne_nil more
  rw [← sentenceText_cons (isFilled first List.mem_cons_self)] at clause
  obtain ⟨front, last, isText, isSize, isFront, isLast⟩ := clause
  refine ⟨⟨front, last, mark, isFront, isLast, isMark⟩, ?_, ?_⟩
  · rw [isText, Sentence.text, Sentence.words, join_concat_append]
  · rw [Sentence.words, List.length_append, List.length_singleton, isSize]

/-! ### Words of a text -/

/-- A clean word has no blanks. -/
theorem IsClean.blankless {word : String} (clean : IsClean word) : Text.IsBlankless word :=
  fun c member => (clean.2 c member).1

/-- Neither a comma nor a mark parts words. -/
theorem Sentence.blankless (sentence : Sentence) :
    ∀ word ∈ sentence.words, Text.IsBlankless word := by
  refine List.forall_mem_append.mpr ⟨fun word member => ?_, List.forall_mem_singleton.mpr ?_⟩
  · rcases sentence.isFront word member with clean | ⟨word, clean, rfl⟩
    · exact clean.blankless
    · exact Text.isBlankless_append.mpr ⟨clean.blankless, by decide⟩
  · have isMark : ∀ mark ∈ ["?", "!", "."], Text.IsBlankless mark := by decide
    exact Text.isBlankless_append.mpr ⟨sentence.isLast.blankless, isMark _ sentence.isMark⟩

/-- No word of a sentence is empty. -/
theorem Sentence.ne_empty (sentence : Sentence) : ∀ word ∈ sentence.words, word ≠ "" := by
  refine List.forall_mem_append.mpr ⟨fun word member => ?_, List.forall_mem_singleton.mpr ?_⟩
  · exact (sentence.isFront word member).ne_empty
  · simp [String.append_eq_empty_iff, sentence.isLast.1]

/-- A sentence has a word. -/
theorem Sentence.words_ne_nil (sentence : Sentence) : sentence.words ≠ [] :=
  List.append_ne_nil_of_right_ne_nil _ (List.cons_ne_nil _ _)

/-- Sentences with blanks between them are their words with blanks between them. -/
theorem join_text (sentences : List Sentence) :
    Text.join " " (sentences.map Sentence.text) =
      Text.join " " (sentences.flatMap Sentence.words) := by
  induction sentences with
  | nil => rfl
  | cons sentence sentences ih =>
    by_cases alone : sentences = []
    · simp [alone, Sentence.text, Text.join]
    · obtain ⟨second, member⟩ := List.exists_mem_of_ne_nil sentences alone
      have more : sentences.flatMap Sentence.words ≠ [] :=
        fun empty => second.words_ne_nil (List.flatMap_eq_nil_iff.mp empty second member)
      rw [List.map_cons, join_cons_of_ne_nil _ (by simpa using alone), ih, List.flatMap_cons,
        Sentence.text, Text.join, Text.join, Text.join,
        String.intercalate_append_of_ne_nil sentence.words_ne_nil more]

/-- The words of a text are those of its sentences, with their commas and marks. -/
theorem words_text (sentences : List Sentence) :
    Text.words (Text.join " " (sentences.map Sentence.text)) =
      sentences.flatMap Sentence.words := by
  have blankless : ∀ word ∈ sentences.flatMap Sentence.words, Text.IsBlankless word := by
    intro word member
    obtain ⟨sentence, -, isWord⟩ := List.mem_flatMap.mp member
    exact sentence.blankless word isWord
  have filled : ∀ word ∈ sentences.flatMap Sentence.words, decide (word ≠ "") := by
    intro word member
    obtain ⟨sentence, -, isWord⟩ := List.mem_flatMap.mp member
    exact decide_eq_true (sentence.ne_empty word isWord)
  rw [join_text, Text.words_join blankless, List.filter_eq_self.mpr filled]

end Markup.Filler

end Shorthand
