import Shorthand.Proofs.Markup.BlockNames.Notation
import Shorthand.Proofs.Markup.BlockNames.Writing

/-!
# Splitting class names again

The names that class names are split into are words, each of them occurs once, and none of them is
split again. So splitting the class names of an element a second time changes nothing, whatever
separates elements and modifiers.
-/

namespace Shorthand.Markup.BlockNames

section

variable (config : Config) (element : Element)

/-- The names of an element are the words of its classes, split and without repeats. -/
theorem classNames_split :
    (split config element).1.classNames =
      unique ((Text.words (classText config element)).flatMap
        (splitModifier config.options.block.element)) := by
  simp only [split, ofText]

/-- Splitting keeps the names and writes them back. -/
theorem split_eq :
    split config element =
      (⟨(split config element).1.classNames, findBlock (split config element).1.classNames⟩,
        putClasses config (split config element).1.classNames element) := by
  simp only [split]

/-- The element gets the names of its blocks as its classes. -/
theorem split_snd :
    (split config element).2 = putClasses config (split config element).1.classNames element := by
  simp only [split]

/-- No name of an element occurs twice. -/
theorem nodup_classNames : (split config element).1.classNames.Nodup := by
  rw [classNames_split]
  exact nodup_unique _

variable {config element}

/-- A class name of an element is a piece of a word of its class attribute. -/
theorem mem_classNames {name : String} :
    name ∈ (split config element).1.classNames ↔
      ∃ word ∈ Text.words (classText config element),
        name ∈ splitModifier config.options.block.element word := by
  rw [classNames_split, mem_unique, List.mem_flatMap]

/-- The names of an element are words without blanks. -/
theorem word_of_mem_classNames {name : String}
    (member : name ∈ (split config element).1.classNames) :
    name ≠ "" ∧ Text.IsBlankless name := by
  obtain ⟨word, isWord, isPiece⟩ := mem_classNames.mp member
  obtain ⟨filled, blankless⟩ := Text.mem_words isWord
  exact word_of_mem_splitModifier filled blankless isPiece

/-- Names that are words and are not split again are found where they are written. -/
theorem classNames_putClasses_split (filled : (split config element).1.classNames ≠ []) :
    (split config (split config element).2).1.classNames =
      (split config element).1.classNames := by
  have hasClass := hasClass_of_classNames filled
  have words : Text.words (classText config (split config element).2) =
      (split config element).1.classNames := by
    rw [split_snd, classText_putClasses config filled hasClass,
      Text.words_join fun name member => (word_of_mem_classNames member).2,
      List.filter_eq_self]
    intro name member
    exact decide_eq_true (word_of_mem_classNames member).1
  have pieces : ∀ name ∈ (split config element).1.classNames,
      splitModifier config.options.block.element name = [name] := by
    intro name member
    obtain ⟨word, -, isPiece⟩ := mem_classNames.mp member
    exact splitModifier_piece isPiece
  rw [classNames_split, words, List.flatMap_congr pieces, List.flatMap_singleton',
    classNames_split, unique_unique]

end

/-- Splitting class names again gives the same names, the same block and the same element. The names
are words, each of them occurs once, and they make up the words of the class attribute. If there are
any, then the class attribute becomes the names with blanks between them. -/
theorem split_again (config : Config) (element : Element) :
    let names := (split config element).1.classNames
    let named := (split config element).2
    split config named = split config element ∧
      names.Nodup ∧
      (∀ name ∈ names, name ≠ "" ∧ Text.IsBlankless name) ∧
      (∀ word ∈ Text.words (classText config element),
        ∃ pieces, String.join pieces = word ∧ ∀ piece ∈ pieces, piece ∈ names) ∧
      if names = [] then named = element
      else (named.attributes.find? (isClass config)).map Attribute.value =
        some (some [.text (Text.join " " names)]) := by
  intro names named
  have isNamed : named = putClasses config names element := split_snd config element
  have written : if names = [] then named = element
      else (named.attributes.find? (isClass config)).map Attribute.value =
        some (some [.text (Text.join " " names)]) := by
    split
    next empty =>
      rw [isNamed, empty]
      rfl
    next filled =>
      rw [isNamed]
      exact value_putClasses config filled (hasClass_of_classNames filled)
  refine ⟨?_, nodup_classNames config element, fun name => word_of_mem_classNames, ?_, written⟩
  -- The text that is put down is made of the names alone, and reading it finds them again.
  · by_cases filled : names = []
    · rw [if_pos filled] at written
      rw [written]
    · have same : (split config named).1.classNames = names := classNames_putClasses_split filled
      rw [split_eq config named, same, isNamed, putClasses_putClasses config filled]
      exact (split_eq config element).symm
  · intro word isWord
    refine ⟨splitModifier config.options.block.element word, join_splitModifier _ word, ?_⟩
    intro piece isPiece
    exact mem_classNames.mpr ⟨word, isWord, isPiece⟩

end Shorthand.Markup.BlockNames
