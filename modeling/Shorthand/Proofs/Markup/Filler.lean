import Shorthand.Proofs.Markup.Filler.Names
import Shorthand.Proofs.Markup.Filler.Words

/-!
# The length of the filler text

A filler text is made of sentences, and every entry that is taken from the vocabulary counts as one
word. That is what the entries are, but for one in the opening of the Russian text, which holds two
words: a text that has it is one word longer than it should be.
-/

namespace Shorthand.Markup.Filler

/-! ### Sentences of single words -/

/-- Every final mark is one of three. -/
theorem mem_finalMark (number : Nat) : finalMark number ∈ ["?", "!", "."] := by
  unfold finalMark
  split <;> decide

/-- Clean entries are as many words. -/
theorem wordCount_of_clean {entries : List String} (clean : ∀ entry ∈ entries, IsClean entry) :
    wordCount entries = entries.length := by
  induction entries with
  | nil => rfl
  | cons entry entries ih =>
    obtain ⟨first, others⟩ := List.forall_mem_cons.mp clean
    rw [wordCount_cons, first.words, ih others, List.length_singleton, List.length_cons,
      Nat.add_comm]

section

variable {State : Type} (draws : Draws State) {vocabulary : Vocabulary} (sound : IsSound vocabulary)

/-- Clean entries with commas and a mark are a sentence. -/
theorem exists_sentence_of_clean {entries : List String} (filled : entries ≠ [])
    (clean : ∀ entry ∈ entries, IsClean entry) (state : State) (mark : Nat) :
    ∃ sentence : Sentence,
      sentence.text = sentenceText (punctuate draws entries state).1 ++ finalMark mark ∧
        sentence.words.length = entries.length := by
  have written := punctuate_punctuated draws entries state
  rw [← wordCount_of_clean clean]
  exact written.exists_sentence filled (fun entry member => (clean entry member).isPhrase)
    (mem_finalMark mark)

/-- One sentence, and those behind it. -/
theorem sentences_succ (vocabulary : Vocabulary) (limit missing : Nat) (state : State) :
    sentences draws vocabulary (limit + 1) missing state =
      if missing = 0 then
        ([], state)
      else
        let (size, state) := draws.below 2 30 state
        let (words, state) := choose draws vocabulary.words (min size missing) state
        let left := missing - words.length
        let (words, state) := punctuate draws words state
        let (mark, state) := draws.below 0 3 state
        let (others, state) := sentences draws vocabulary limit left state
        ((sentenceText words ++ finalMark mark) :: others, state) := rfl

include sound

/-- The sentences that are drawn have the words that are missing. -/
theorem sentences_isProse {limit missing : Nat} (reached : missing ≤ limit) (state : State) :
    IsProse (sentences draws vocabulary limit missing state).1 missing := by
  induction limit generalizing missing state with
  | zero =>
    rw [Nat.le_zero.mp reached]
    exact .nil
  | succ limit ih =>
    rw [sentences_succ]
    split
    · next complete =>
      rw [complete]
      exact .nil
    next incomplete =>
      -- What is drawn is taken apart first, as the kernel must not compare runs of `choose`.
      have bounds := draws.below_bounds state (by decide : 2 < 30)
      generalize draws.below 2 30 state = drawn at bounds ⊢
      obtain ⟨size, state⟩ := drawn
      have enough : min size missing ≤ vocabulary.words.dedup.length := by
        have many := sound.many
        omega
      have chosen := choose_length draws enough state
      dsimp only at bounds ⊢
      generalize choose draws vocabulary.words (min size missing) state = choice at chosen ⊢
      obtain ⟨words, state⟩ := choice
      obtain ⟨isSize, isChosen⟩ := chosen
      dsimp only at isSize isChosen ⊢
      generalize punctuation : punctuate draws words state = written
      obtain ⟨sentence, isText, wordsOf⟩ := exists_sentence_of_clean draws
        (List.ne_nil_of_length_pos (by omega) : words ≠ [])
        (fun word member => sound.words word (isChosen member)) state (draws.below 0 3 written.2).1
      have others := ih (by omega : missing - words.length ≤ limit) (draws.below 0 3 written.2).2
      have prose := others.cons sentence
      rwa [isText, punctuation, wordsOf, Nat.add_sub_cancel' (by omega)] at prose

/-- A paragraph has as many words as its opening holds, and one for each entry that is missing. -/
theorem paragraph_isProse {count : Nat} (asked : 0 < count) (hasOpening : Bool) (state : State) :
    ∃ texts, (paragraph draws vocabulary count hasOpening state).1 = Text.join " " texts ∧
      IsProse texts
        (if hasOpening then
          wordCount (vocabulary.opening.take count) +
            (count - (vocabulary.opening.take count).length)
        else count) := by
  cases hasOpening with
  | false => exact ⟨_, rfl, sentences_isProse draws sound (Nat.le_refl count) state⟩
  | true =>
    have filled : vocabulary.opening.take count ≠ [] := by
      rw [Ne, List.take_eq_nil_iff, not_or]
      exact ⟨Nat.ne_of_gt asked, sound.filled⟩
    have phrases : ∀ entry ∈ vocabulary.opening.take count, IsPhrase entry :=
      fun entry member => sound.opening entry (List.mem_of_mem_take member)
    rw [paragraph, if_pos rfl]
    dsimp only
    generalize vocabulary.opening.take count = opening at filled phrases ⊢
    have written := punctuate_punctuated draws opening state
    obtain ⟨sentence, isText, size⟩ := written.exists_sentence filled phrases (by decide : "." ∈ _)
    have others := sentences_isProse draws sound (Nat.sub_le count opening.length)
      (punctuate draws opening state).2
    have prose := others.cons sentence
    rw [isText, size] at prose
    exact ⟨_, rfl, prose⟩

end

/-! ### Openings -/

/-- The Russian opening has two words in its fifth entry. -/
def surplus (language : String) (count : Nat) : Nat :=
  if language = "ru" ∧ 5 ≤ count then 1 else 0

/-- In other languages every entry of the opening is one word. -/
theorem surplus_other {language : String} (other : language ≠ "ru") (count : Nat) :
    surplus language count = 0 :=
  if_neg fun both => other both.1

/-- The words of an opening are its entries and the surplus of its language. -/
theorem wordCount_opening (language : String) (count : Nat) :
    wordCount ((Vocabulary.ofLanguage language).opening.take count) =
      ((Vocabulary.ofLanguage language).opening.take count).length + surplus language count := by
  have single : ∀ opening : List String, (∀ entry ∈ opening, IsClean entry) →
      wordCount (opening.take count) = (opening.take count).length := fun opening clean =>
    wordCount_of_clean fun entry member => clean entry (List.mem_of_mem_take member)
  unfold Vocabulary.ofLanguage
  split
  · by_cases reached : 11 ≤ count
    · have all : Vocabulary.russian.opening.take count = Vocabulary.russian.opening :=
        List.take_of_length_le reached
      have more : surplus "ru" count = 1 := if_pos ⟨rfl, by omega⟩
      rw [all, more]
      decide +kernel
    · have few : ∀ count < 11, wordCount (Vocabulary.russian.opening.take count) =
          (Vocabulary.russian.opening.take count).length + surplus "ru" count := by decide +kernel
      exact few count (by omega)
  · rw [surplus_other (by decide), single _ (by decide +kernel), Nat.add_zero]
  · next other _ => rw [surplus_other other, single _ (by decide +kernel), Nat.add_zero]

/-! ### Fillers -/

/-- The count that is drawn lies between the two that are asked for. -/
theorem count_bounds {State : Type} (draws : Draws State) {least most : Nat}
    (ordered : least ≤ most) (state : State) :
    least ≤ (if least < most then draws.within least most state else (least, state)).1 ∧
      (if least < most then draws.within least most state else (least, state)).1 ≤ most := by
  split
  · exact draws.within_bounds state ordered
  · exact ⟨Nat.le_refl _, ordered⟩

/-- A filler has as many words as it asks for, and one more with the Russian opening. -/
theorem words_of_filler {State : Type} (draws : Draws State) (config : Config)
    (ancestors : List Ancestor) (element : Element) (name : FillerName) (state : State) :
    ∃ count, 0 < name.leastCount ∧ name.leastCount ≤ count ∧ count ≤ name.mostCount ∧
      ∃ sentences : List Sentence,
        (apply draws config ancestors { element with name := some name.text } state).1.value =
          [.text (Text.join " " (sentences.map Sentence.text))] ∧
        Text.words (Text.join " " (sentences.map Sentence.text)) =
          sentences.flatMap Sentence.words ∧
        (sentences.flatMap Sentence.words).length =
          count + if (element.iteration <|> ancestors.findSome? Ancestor.iteration).all
            (·.index == 0) then surplus name.language count else 0 := by
  have bounds := count_bounds draws name.leastCount_le state
  have sound := isSound_ofLanguage name.language
  rw [apply, Option.bind_some, request?_text]
  dsimp only
  generalize (if name.leastCount < name.mostCount then _ else _ : Nat × State) = drawn at bounds ⊢
  obtain ⟨count, state⟩ := drawn
  generalize (element.iteration <|> _).all _ = hasOpening
  have asked : 0 < count := Nat.lt_of_lt_of_le name.leastCount_pos bounds.1
  obtain ⟨texts, isText, sentences, rfl, size⟩ :=
    paragraph_isProse draws sound asked hasOpening state
  refine ⟨count, name.leastCount_pos, bounds.1, bounds.2, sentences, ?_, words_text sentences, ?_⟩
  · rw [isText]
    split <;> rfl
  · have taken : (List.take count (Vocabulary.ofLanguage name.language).opening).length ≤ count :=
      List.length_take_le _ _
    rw [size, wordCount_opening]
    cases hasOpening with
    | false => rfl
    | true =>
      simp only [if_true]
      omega

/-- The name `loremru5`. -/
def fiveRussian : FillerName :=
  ⟨"lorem".toList, "ru".toList, ['5'], none, by decide, List.all_eq_true.mp (by decide),
    List.all_eq_true.mp (by decide), by simp⟩

/-- Five Russian words are six. -/
theorem words_of_filler_russian :
    fiveRussian.text = "loremru5" ∧ fiveRussian.leastCount = 5 ∧ fiveRussian.mostCount = 5 ∧
      ∃ sentences : List Sentence,
        (apply (⟨fun state => (0, state)⟩ : Draws Unit) (.ofSettings .blank) []
            { Element.empty with name := some fiveRussian.text } ()).1.value =
          [.text (Text.join " " (sentences.map Sentence.text))] ∧
        (Text.words (Text.join " " (sentences.map Sentence.text))).length = 6 := by
  have least : fiveRussian.leastCount = 5 := by decide +kernel
  have most : fiveRussian.mostCount = 5 := by decide +kernel
  obtain ⟨count, -, low, high, sentences, value, words, size⟩ :=
    words_of_filler (⟨fun state => (0, state)⟩ : Draws Unit) (.ofSettings .blank) [] Element.empty
      fiveRussian ()
  have asked : count = 5 := by omega
  refine ⟨by decide +kernel, least, most, sentences, value, ?_⟩
  rw [words, size, asked]
  decide +kernel

end Shorthand.Markup.Filler
