import Mathlib.Data.List.Dedup
import Mathlib.Data.List.Perm.Subperm
import Shorthand.Proofs.Markup.Filler.Sentences

/-!
# Words of the filler text

A sentence is made of different words, so the vocabularies need enough of them. Each word is clean
and each entry of an opening is a phrase; but for one in the Russian opening, which holds two words,
all of these phrases are single words.
-/

namespace Shorthand.Markup.Filler

/-! ### Choosing words -/

/-- What is chosen when up to `missing` words are added. -/
structure Fills (missing : Nat) (chosen rest result : List String) : Prop where
  mem : ∀ word ∈ result, word ∈ chosen ∨ word ∈ rest
  keeps : chosen ⊆ result
  length_le : result.length ≤ chosen.length + missing
  complete : result.length = chosen.length + missing ∨ rest ⊆ result

/-- Filling up a choice adds words that are missing. -/
theorem fill_fills (missing : Nat) (chosen rest : List String) :
    Fills missing chosen rest (fill missing chosen rest) := by
  fun_induction fill missing chosen rest with
  | case1 missing chosen =>
    exact ⟨fun _ => .inl, List.Subset.refl _, Nat.le_add_right _ _, .inr (List.nil_subset _)⟩
  | case2 chosen rest _ => exact ⟨fun _ => .inl, List.Subset.refl _, Nat.le_refl _, .inl rfl⟩
  | case3 missing chosen word rest known ih =>
    have isChosen : word ∈ chosen := by simpa using known
    exact ⟨fun other member => (ih.mem other member).imp id (List.mem_cons_of_mem word), ih.keeps,
      ih.length_le,
      ih.complete.imp id fun all => List.cons_subset.mpr ⟨ih.keeps isChosen, all⟩⟩
  | case4 missing chosen word rest new ih =>
    have kept := List.append_subset.mp ih.keeps
    have size : (chosen ++ [word]).length + missing = chosen.length + (missing + 1) := by
      simp only [List.length_append, List.length_singleton]
      omega
    have bounded := ih.length_le
    have complete := ih.complete
    rw [size] at bounded complete
    refine ⟨fun other member => ?_, kept.1, bounded,
      complete.imp id fun all => List.cons_subset.mpr ⟨kept.2 List.mem_cons_self, all⟩⟩
    rcases ih.mem other member with inFront | behind
    · rcases List.mem_append.mp inFront with isChosen | same
      · exact .inl isChosen
      · rw [List.mem_singleton.mp same]
        exact .inr List.mem_cons_self
    · exact .inr (List.mem_cons_of_mem _ behind)

section

variable {State : Type} (draws : Draws State) {words : List String} {count : Nat}

/-- If there are enough different words, as many are chosen as are asked for. -/
theorem chooseFrom_length (enough : count ≤ words.dedup.length) (limit : Nat)
    {chosen : List String} (isChosen : chosen ⊆ words) (bounded : chosen.length ≤ count)
    (state : State) :
    (chooseFrom draws words count limit chosen state).1.length = count ∧
      (chooseFrom draws words count limit chosen state).1 ⊆ words := by
  induction limit generalizing chosen state with
  -- Without tries left the choice is filled up with words in order, of which there are enough that
  -- differ.
  | zero =>
    rw [chooseFrom]
    dsimp only
    have fills := fill_fills (count - chosen.length) chosen words
    have known := fills.mem
    refine ⟨?_, fun word member => (known word member).elim (isChosen ·) id⟩
    have upTo := fills.length_le
    have isComplete : count ≤ (fill (count - chosen.length) chosen words).length := by
      rcases fills.complete with complete | all
      · omega
      · have different : words.dedup ⊆ _ := List.Subset.trans (List.dedup_subset words) all
        exact Nat.le_trans enough
          (List.subperm_of_subset (List.nodup_dedup words) different).length_le
    exact Nat.le_antisymm (by omega) isComplete
  | succ limit ih =>
    rw [chooseFrom]
    split
    · next reached => exact ⟨Nat.le_antisymm bounded reached, isChosen⟩
    · next missing =>
      have filled : 0 < words.length := by
        have fewer := (List.dedup_sublist words).length_le
        omega
      have inside := (draws.below_bounds state filled).2
      have drawn : (words[(draws.below 0 words.length state).1]?).getD "" ∈ words := by
        rw [List.getElem?_eq_getElem inside, Option.getD_some]
        exact List.getElem_mem inside
      dsimp only
      split
      · exact ih isChosen bounded _
      · refine ih (List.append_subset.mpr ⟨isChosen, ?_⟩) ?_ _
        · exact List.cons_subset.mpr ⟨drawn, List.nil_subset _⟩
        · rw [List.length_append, List.length_singleton]
          omega

/-- A choice has as many words as are asked for, all of the vocabulary. -/
theorem choose_length (enough : count ≤ words.dedup.length) (state : State) :
    (choose draws words count state).1.length = count ∧
      (choose draws words count state).1 ⊆ words := by
  have fewer := (List.dedup_sublist words).length_le
  rw [choose, Nat.min_eq_left (Nat.le_trans enough fewer)]
  exact chooseFrom_length draws enough _ (List.nil_subset _) (Nat.zero_le _) state

end

/-! ### Vocabularies -/

/-- A small letter of the vocabularies, or a dash. -/
def isSmall (c : Char) : Bool :=
  c == '-' || (decide (97 ≤ c.toNat) && decide (c.toNat ≤ 122)) ||
    (decide (0xE1 ≤ c.toNat) && decide (c.toNat ≤ 0x44F))

/-- Small letters are plain. -/
theorem isPlain_of_small {c : Char} (small : isSmall c) : IsPlain c := by
  simp only [isSmall, Bool.or_eq_true, beq_iff_eq, Bool.and_eq_true, decide_eq_true_eq] at small
  rcases small with (rfl | latin) | other
  · decide
  · rw [← Char.ofNat_toNat c]
    exact isPlain_ofNat (by decide : ArePlain 97 122) (by omega)
  · rw [← Char.ofNat_toNat c]
    exact isPlain_ofNat (by decide : ArePlain 0xE1 0x44F) (by omega)

def isSmallWord (word : String) : Bool := word != "" && word.toList.all isSmall

/-- A word of small letters is clean. -/
theorem isClean_of_small {word : String} (small : isSmallWord word) : IsClean word := by
  rw [isSmallWord, Bool.and_eq_true, bne_iff_ne, List.all_eq_true] at small
  exact ⟨small.1, fun c member => isPlain_of_small (small.2 c member)⟩

/-- A clean word is one word. -/
theorem IsClean.words {word : String} (clean : IsClean word) : Text.words word = [word] := by
  have alone : Text.join " " [word] = word := String.intercalate_singleton
  have blankless : ∀ name ∈ [word], Text.IsBlankless name :=
    List.forall_mem_singleton.mpr clean.blankless
  have words := Text.words_join blankless
  rwa [alone, List.filter_singleton, decide_eq_true clean.1, cond_true] at words

/-- A clean word is a phrase. -/
theorem IsClean.isPhrase {word : String} (clean : IsClean word) : IsPhrase word := by
  rw [IsPhrase, clean.words]
  exact ⟨List.cons_ne_nil _ _, String.intercalate_singleton, List.forall_mem_singleton.mpr clean⟩

/-- A vocabulary has an opening of phrases, and enough different words for any sentence. -/
structure IsSound (vocabulary : Vocabulary) : Prop where
  opening : ∀ entry ∈ vocabulary.opening, IsPhrase entry
  filled : vocabulary.opening ≠ []
  words : ∀ word ∈ vocabulary.words, IsClean word
  many : 29 ≤ vocabulary.words.dedup.length

/-- A list of distinct words is no longer than the words without repeats. -/
theorem length_le_dedup {distinct words : List String} (isSublist : distinct.Sublist words)
    (nodup : distinct.Nodup) : distinct.length ≤ words.dedup.length := by
  have known : distinct ⊆ words.dedup :=
    fun _ member => List.mem_dedup.mpr (isSublist.subset member)
  exact (List.subperm_of_subset nodup known).length_le

-- In each vocabulary the 29 words behind the first 23 are different. To compare these is enough,
-- and quicker than to drop the repeated words of a whole vocabulary.
/-- A vocabulary of small words is sound if there are enough of them. -/
theorem isSound_of_small {vocabulary : Vocabulary}
    (opening : ∀ entry ∈ vocabulary.opening, IsPhrase entry) (filled : vocabulary.opening ≠ [])
    (small : vocabulary.words.all isSmallWord)
    (nodup : ((vocabulary.words.drop 23).take 29).Nodup) (size : 52 ≤ vocabulary.words.length) :
    IsSound vocabulary := by
  refine ⟨opening, filled, fun word member => ?_, ?_⟩
  · exact isClean_of_small (List.all_eq_true.mp small word member)
  · have isSublist := (List.take_sublist 29 _).trans (List.drop_sublist 23 vocabulary.words)
    have enough := length_le_dedup isSublist nodup
    simp only [List.length_take, List.length_drop] at enough
    omega

/-- The vocabulary of every language is sound. -/
theorem isSound_ofLanguage (language : String) : IsSound (.ofLanguage language) := by
  unfold Vocabulary.ofLanguage
  split
  · exact isSound_of_small (by decide +kernel) (by decide) (by decide +kernel) (by decide +kernel)
      (by decide +kernel)
  · exact isSound_of_small (by decide +kernel) (by decide) (by decide +kernel) (by decide +kernel)
      (by decide +kernel)
  · exact isSound_of_small (by decide +kernel) (by decide) (by decide +kernel) (by decide +kernel)
      (by decide +kernel)

end Shorthand.Markup.Filler
