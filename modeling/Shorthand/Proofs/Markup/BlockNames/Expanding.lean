import Shorthand.Proofs.Markup.BlockNames.Notation

/-!
# What class names are written as

A short element becomes one of its block, a lone modifier its block and that block with the
modifier, and other names stay. With the usual marks no full name is a short element, and it is a
short modifier only where a block is missing.
-/

namespace Shorthand.Markup.BlockNames

/-- Elements and modifiers have the usual marks, and nothing is known about what stands around. -/
structure UsualMarks (config : Config) : Prop where
  element : config.options.block.element = "__"
  modifier : config.options.block.modifier = "_"
  alone : config.surroundings = none

/-- All blocks of a path are blocks. -/
def HasBlocks (path : List BlockNames) : Prop :=
  ∀ names ∈ path, ∀ block, names.block = some block → IsBlock block

/-- A class name is a short element, a short modifier or a plain name. -/
inductive Reading (name : String) : Prop where
  | element (marks : Nat) (element rest : List Char)
      (isElement : shortElement? name.toList = some (marks, element, rest))
  | modifier (marks : Nat) (modifier rest : List Char)
      (isNoElement : shortElement? name.toList = none)
      (isModifier : shortModifier? name.toList = some (marks, modifier, rest))
  | plain (isNoElement : shortElement? name.toList = none)
      (isNoModifier : shortModifier? name.toList = none)

/-- Every name is read in one of the three ways. -/
theorem reading (name : String) : Reading name := by
  cases isElement : shortElement? name.toList with
  | some found => exact .element _ _ _ isElement
  | none =>
    cases isModifier : shortModifier? name.toList with
    | some found => exact .modifier _ _ _ isElement isModifier
    | none => exact .plain isElement isModifier

section

variable {config : Config} (usual : UsualMarks config) {path : List BlockNames}
  {name full part : String} {marks : Nat} {element modifier rest : List Char}

/-! ### Full names -/

/-- A name that is neither short form stays as it is. -/
theorem expand_plain (isNoElement : shortElement? name.toList = none)
    (isNoModifier : shortModifier? name.toList = none) : expand config path name = [name] := by
  simp [expand, isNoElement, isNoModifier]

/-- A lone modifier is written as its block, and as that block with the modifier. -/
theorem expand_shortModifier (isNoElement : shortElement? name.toList = none)
    (isModifier : shortModifier? name.toList = some (marks, modifier, rest)) :
    expand config path name =
      [blockAt config path marks,
        blockAt config path marks ++ config.options.block.modifier ++ String.ofList modifier] := by
  simp [expand, isNoElement, isModifier]

/-- An element is written with its block, and once more with its modifier if it has one. -/
theorem expand_shortElement
    (isElement : shortElement? name.toList = some (marks, element, rest)) :
    expand config path name =
      let full := blockAt config path marks ++ config.options.block.element ++
        String.ofList element
      full :: (shortModifier? rest).toList.map fun found =>
        full ++ config.options.block.modifier ++ String.ofList found.2.1 := by
  obtain ⟨first, others, rfl, -⟩ := (IsMarked.of_marked? isElement).named
  cases isModifier : shortModifier? rest with
  | none => simp [expand, isElement, isModifier]
  | some found => simp [expand, isElement, isModifier]

/-- Something is written for every name. -/
theorem expand_ne_nil (config : Config) (path : List BlockNames) (name : String) :
    expand config path name ≠ [] := by
  cases reading name with
  | element count element behind isElement =>
    rw [expand_shortElement isElement]
    exact List.cons_ne_nil _ _
  | modifier count modifier behind isNoElement isModifier =>
    rw [expand_shortModifier isNoElement isModifier]
    exact List.cons_ne_nil _ _
  | plain isNoElement isNoModifier =>
    rw [expand_plain isNoElement isNoModifier]
    exact List.cons_ne_nil _ _

include usual

/-- A short modifier stands for its block, and for the block with the modifier. -/
theorem expand_modifier (isNoElement : shortElement? name.toList = none)
    (isModifier : shortModifier? name.toList = some (marks, modifier, rest)) :
    expand config path name =
      [blockAt config path marks, blockAt config path marks ++ "_" ++ String.ofList modifier] := by
  rw [expand_shortModifier isNoElement isModifier, usual.modifier]

/-- Those two names alone are written for a short modifier. -/
theorem mem_expand_modifier (isNoElement : shortElement? name.toList = none)
    (isModifier : shortModifier? name.toList = some (marks, modifier, rest)) :
    full ∈ expand config path name ↔
      full = blockAt config path marks ∨
        full = blockAt config path marks ++ "_" ++ String.ofList modifier := by
  rw [expand_modifier usual isNoElement isModifier, List.mem_cons, List.mem_singleton]

/-- A short element stands for its block with the element, and with a modifier that follows it. -/
theorem mem_expand_element (isElement : shortElement? name.toList = some (marks, element, rest)) :
    full ∈ expand config path name ↔
      full = blockAt config path marks ++ "__" ++ String.ofList element ∨
        ∃ own modifier behind, shortModifier? rest = some (own, modifier, behind) ∧
          full = blockAt config path marks ++ "__" ++
            (String.ofList element ++ "_" ++ String.ofList modifier) := by
  rw [expand_shortElement isElement, usual.element, usual.modifier]
  cases isModifier : shortModifier? rest with
  | none => simp
  | some found =>
    obtain ⟨own, modifier, behind⟩ := found
    simp [String.append_assoc]

/-- What is written for a name is not empty. -/
theorem exists_filled (filled : name ≠ "") : ∃ full ∈ expand config path name, full ≠ "" := by
  cases reading name with
  | element count element behind isElement =>
    exact ⟨_, (mem_expand_element usual isElement).mpr (.inl rfl), by simp⟩
  | modifier count modifier behind isNoElement isModifier =>
    exact ⟨_, (mem_expand_modifier usual isNoElement isModifier).mpr (.inr rfl), by simp⟩
  | plain isNoElement isNoModifier =>
    rw [expand_plain isNoElement isNoModifier]
    exact ⟨name, List.mem_singleton_self name, filled⟩

/-- A block is looked for, and where there is none its name is empty. -/
theorem blockAt_cases (blocks : HasBlocks path) (marks : Nat) :
    blockAt config path marks = "" ∨ IsBlock (blockAt config path marks) := by
  rw [blockAt]
  cases found : (path.drop (min marks path.length - 1)).findSome? block with
  | none =>
    left
    simp [usual.alone]
  | some name =>
    right
    obtain ⟨names, member, isBlock⟩ := List.exists_of_findSome?_eq_some found
    exact blocks names (List.drop_subset _ _ member) name isBlock

/-- A block has no blanks. -/
theorem isBlankless_blockAt (blocks : HasBlocks path) (marks : Nat) :
    Text.IsBlankless (blockAt config path marks) := by
  rcases blockAt_cases usual blocks marks with empty | isBlock
  · rw [empty]
    decide
  · exact isBlock.blankless

/-- Full names hold no white space. -/
theorem isBlankless_of_mem_expand (blankless : Text.IsBlankless name) (blocks : HasBlocks path)
    (member : full ∈ expand config path name) : Text.IsBlankless full := by
  have mark : Text.IsBlankless "_" := by decide
  have marks : Text.IsBlankless "__" := by decide
  have block := isBlankless_blockAt usual blocks
  have named {text : List Char} (inside : ∀ c ∈ text, CharClass.blank c = false) :
      Text.IsBlankless (String.ofList text) := by
    rwa [Text.IsBlankless, String.toList_ofList]
  cases reading name with
  | element count element behind isElement =>
    rw [Text.IsBlankless, (IsMarked.of_marked? isElement).text] at blankless
    simp only [List.forall_mem_append] at blankless
    obtain ⟨-, ofElement, ofRest⟩ := blankless
    rcases (mem_expand_element usual isElement).mp member with rfl | ⟨_, _, _, isModifier, rfl⟩
    · simp only [Text.isBlankless_append]
      exact ⟨⟨block count, marks⟩, named ofElement⟩
    · rw [(IsMarked.of_marked? isModifier).text] at ofRest
      simp only [List.forall_mem_append] at ofRest
      simp only [Text.isBlankless_append]
      exact ⟨⟨block count, marks⟩, ⟨named ofElement, mark⟩, named ofRest.2.1⟩
  | modifier count modifier behind isNoElement isModifier =>
    rw [Text.IsBlankless, (IsMarked.of_marked? isModifier).text] at blankless
    simp only [List.forall_mem_append] at blankless
    rcases (mem_expand_modifier usual isNoElement isModifier).mp member with rfl | rfl
    · exact block count
    · simp only [Text.isBlankless_append]
      exact ⟨⟨block count, mark⟩, named blankless.2.1⟩
  | plain isNoElement isNoModifier =>
    rw [expand_plain isNoElement isNoModifier, List.mem_singleton] at member
    rwa [member]

omit usual in
/-- An element of a block begins with a letter and is whole. -/
theorem letter_whole_element {block : String} (letter : hasLetter block) (rest : String) :
    hasLetter (block ++ "__" ++ rest) ∧ IsWhole (block ++ "__" ++ rest) := by
  have lettered := hasLetter_append (hasLetter_append letter "__") rest
  refine ⟨lettered, (isWhole_iff_of_hasLetter lettered).mpr (.inr ⟨block.toList, rest.toList, ?_⟩)⟩
  simp

/-- All that is written for an element of a block begins with a letter and is whole. -/
theorem letter_whole_of_mem_expand
    (isElement : shortElement? name.toList = some (marks, element, rest))
    (letter : hasLetter (blockAt config path marks)) :
    ∀ full ∈ expand config path name, hasLetter full ∧ IsWhole full := by
  intro full member
  rcases (mem_expand_element usual isElement).mp member with rfl | ⟨_, _, _, -, rfl⟩
  · exact letter_whole_element letter _
  · exact letter_whole_element letter _

/-! ### Blocks with modifiers -/

/-- A lone modifier belongs to the nearest block. -/
theorem expand_lone (isModifier : IsModifier modifier) :
    expand config path ("_" ++ String.ofList modifier) =
      [blockAt config path 1, blockAt config path 1 ++ "_" ++ String.ofList modifier] := by
  have isNoElement : shortElement? ("_" ++ String.ofList modifier).toList = none := by
    rw [String.toList_append]
    exact shortElement?_of_ne (by decide) _
  exact expand_modifier usual isNoElement isModifier.lone

/-- How a block with a modifier is read: as a short modifier where the block is missing, as a
whole if it has two underscores inside, and else in two pieces. -/
inductive Modified (block : String) (modifier : List Char) : Prop where
  | lone (empty : block = "")
  | whole (isBlock : IsBlock block)
      (inside : ['_', '_'] <:+: (block ++ "_" ++ String.ofList modifier).toList)
      (isWhole : IsWhole (block ++ "_" ++ String.ofList modifier))
  | split (isBlock : IsBlock block) (clean : '_' ∉ block.toList)
      (outside : ¬['_', '_'] <:+: (block ++ "_" ++ String.ofList modifier).toList)
      (parts : splitModifier "__" (block ++ "_" ++ String.ofList modifier) =
        [block, "_" ++ String.ofList modifier])

omit usual in
/-- A block with a modifier begins with a letter as the block does. -/
theorem hasLetter_modified {block : String} (letter : hasLetter block) (modifier : List Char) :
    hasLetter (block ++ "_" ++ String.ofList modifier) :=
  hasLetter_append (hasLetter_append letter "_") _

/-- The block that is marked takes the modifier as its own. -/
theorem modified (blocks : HasBlocks path) (marks : Nat) (modifier : List Char) :
    Modified (blockAt config path marks) modifier := by
  rcases blockAt_cases usual blocks marks with empty | isBlock
  · exact .lone empty
  · have letter := hasLetter_modified isBlock.letter modifier
    generalize blockAt config path marks = block at isBlock letter
    have text : (block ++ "_" ++ String.ofList modifier).toList =
        block.toList ++ '_' :: modifier := by simp
    by_cases inside : ['_', '_'] <:+: (block ++ "_" ++ String.ofList modifier).toList
    · exact .whole isBlock inside ((isWhole_iff_of_hasLetter letter).mpr (.inr inside))
    · have clean : '_' ∉ block.toList := by
        rcases (isWhole_iff_of_hasLetter isBlock.letter).mp isBlock.whole with clean | doubled
        · exact clean
        · rw [text] at inside
          exact absurd (doubled.trans (List.prefix_append _ _).isInfix) inside
      have notInside :
          occursInside ['_', '_'] (block ++ "_" ++ String.ofList modifier).toList = false := by
        rwa [← Bool.not_eq_true, occursInside_of_hasLetter letter]
      have tail : String.ofList ('_' :: modifier) = "_" ++ String.ofList modifier := by
        simp
      have parts := splitModifier_of_hasLetter letter text clean
      rw [notInside, if_neg Bool.false_ne_true, String.ofList_toList, tail] at parts
      exact .split isBlock clean inside parts

/-! ### Full names as short ones -/

omit usual in
/-- A name without a dash in front is no short element, and neither are its pieces. -/
theorem shortElement?_of_mem_splitModifier (dashless : name.toList.head? ≠ some '-')
    (isPart : part ∈ splitModifier "__" name) : shortElement? part.toList = none := by
  have isNoElement {text : List Char} (dashless : text.head? ≠ some '-') :
      shortElement? text = none := by
    cases text with
    | nil => rfl
    | cons first rest =>
      rw [List.head?_cons, ne_eq, Option.some.injEq] at dashless
      exact shortElement?_of_ne dashless rest
  rcases isWhole_or_split name with whole | ⟨block, tail, text, -, filled, pieces⟩
  · rw [whole, List.mem_singleton] at isPart
    rw [isPart]
    exact isNoElement dashless
  · rw [pieces, List.mem_cons, List.mem_singleton] at isPart
    rcases isPart with rfl | rfl
    · rw [text, List.head?_append_of_ne_nil _ filled] at dashless
      rw [String.toList_ofList]
      exact isNoElement dashless
    · rw [String.toList_ofList, shortElement?_of_ne (by decide)]

/-- No dash stands in front of a block, or of what follows a missing one. -/
theorem head_behind_block (blocks : HasBlocks path) (marks : Nat) {behind : String}
    (dashless : behind.toList.head? ≠ some '-') :
    (blockAt config path marks ++ behind).toList.head? ≠ some '-' := by
  rcases blockAt_cases usual blocks marks with empty | isBlock
  · rwa [empty, String.empty_append]
  · obtain ⟨first, others, text, notDash, -⟩ := head_of_hasLetter isBlock.letter
    simp [text, notDash]

/-- The pieces of full names are no short elements. -/
theorem shortElement?_of_mem_expand (piece : IsPiece name) (blocks : HasBlocks path)
    (member : full ∈ expand config path name) (isPart : part ∈ splitModifier "__" full) :
    shortElement? part.toList = none := by
  have dashless := head_behind_block usual blocks
  cases reading name with
  | element count element behind isElement =>
    apply shortElement?_of_mem_splitModifier _ isPart
    rcases (mem_expand_element usual isElement).mp member with rfl | ⟨_, _, _, -, rfl⟩
    · rw [String.append_assoc]
      exact dashless _ (by simp)
    · rw [String.append_assoc]
      exact dashless _ (by simp)
  | modifier count modifier behind isNoElement isModifier =>
    apply shortElement?_of_mem_splitModifier _ isPart
    rcases (mem_expand_modifier usual isNoElement isModifier).mp member with rfl | rfl
    · rw [← String.append_empty (s := blockAt config path count)]
      exact dashless _ (by simp)
    · rw [String.append_assoc]
      exact dashless _ (by simp)
  | plain isNoElement isNoModifier =>
    rw [expand_plain isNoElement isNoModifier, List.mem_singleton] at member
    subst member
    have pieces : splitModifier "__" full = [full] := piece.whole
    rw [pieces, List.mem_singleton] at isPart
    rwa [isPart]

omit usual in
/-- The empty name is no short modifier. -/
theorem shortModifier?_empty : shortModifier? "".toList = none := rfl

/-- What is written for a name that is no short element is no modifier of a block further out. -/
theorem marks_of_mem_expand (blocks : HasBlocks path)
    (isNoElement : shortElement? name.toList = none) (member : full ∈ expand config path name)
    (isShort : shortModifier? full.toList = some (marks, modifier, rest)) : marks = 1 := by
  cases reading name with
  | element count element behind isElement =>
    rw [isNoElement] at isElement
    cases isElement
  | plain _ isNoModifier =>
    rw [expand_plain isNoElement isNoModifier, List.mem_singleton] at member
    rw [member, isNoModifier] at isShort
    cases isShort
  | modifier count modifier behind _ isModifier =>
    rcases blockAt_cases usual blocks count with empty | isBlock
    · rcases (mem_expand_modifier usual isNoElement isModifier).mp member with rfl | rfl
      · rw [empty, shortModifier?_empty] at isShort
        cases isShort
      · rw [empty, String.empty_append, (IsModifier.of_short isModifier).lone] at isShort
        cases isShort
        rfl
    · have lettered : hasLetter full := by
        rcases (mem_expand_modifier usual isNoElement isModifier).mp member with rfl | rfl
        · exact isBlock.letter
        · exact hasLetter_modified isBlock.letter _
      rw [shortModifier?_of_hasLetter lettered] at isShort
      cases isShort

omit usual in
/-- A whole name that is no modifier has no modifiers among its pieces. -/
theorem shortModifier?_of_whole (whole : IsWhole name)
    (isNoModifier : shortModifier? name.toList = none)
    (isPart : part ∈ splitModifier "__" name) : shortModifier? part.toList = none := by
  rw [whole, List.mem_singleton] at isPart
  rwa [isPart]

/-- If elements have blocks, then the modifiers among the pieces of full names have one mark. -/
theorem marks_of_mem_splitModifier (piece : IsPiece name) (blocks : HasBlocks path)
    (hasBlock : ∀ {marks element rest}, shortElement? name.toList = some (marks, element, rest) →
      blockAt config path marks ≠ "")
    (member : full ∈ expand config path name) (isPart : part ∈ splitModifier "__" full)
    (isShort : shortModifier? part.toList = some (marks, modifier, rest)) : marks = 1 := by
  -- A piece that is whole and no modifier has none, so that only the lone modifiers remain.
  have absent {full : String} (whole : IsWhole full)
      (isNoModifier : shortModifier? full.toList = none)
      (isPart : part ∈ splitModifier "__" full) : marks = 1 := by
    rw [shortModifier?_of_whole whole isNoModifier isPart] at isShort
    cases isShort
  cases reading name with
  | element count element behind isElement =>
    have isBlock := (blockAt_cases usual blocks count).resolve_left (hasBlock isElement)
    obtain ⟨letter, whole⟩ :=
      letter_whole_of_mem_expand usual isElement isBlock.letter full member
    exact absent whole (shortModifier?_of_hasLetter letter) isPart
  | plain isNoElement isNoModifier =>
    rw [expand_plain isNoElement isNoModifier, List.mem_singleton] at member
    subst member
    exact absent piece.whole isNoModifier isPart
  | modifier count modifier behind isNoElement isModifier =>
    have lone := (IsModifier.of_short isModifier).lone
    rcases (mem_expand_modifier usual isNoElement isModifier).mp member with rfl | rfl
    · rcases blockAt_cases usual blocks count with empty | isBlock
      · rw [empty] at isPart
        exact absent (isWhole_of_not_mem (by simp)) shortModifier?_empty isPart
      · exact absent isBlock.whole (shortModifier?_of_hasLetter isBlock.letter) isPart
    · cases modified usual blocks count modifier with
      | lone empty =>
        have whole : splitModifier "__" ("_" ++ String.ofList modifier) = _ :=
          isWhole_of_head String.toList_append
        rw [empty, String.empty_append, whole, List.mem_singleton] at isPart
        rw [isPart, lone] at isShort
        cases isShort
        rfl
      | whole isBlock _ isWhole =>
        exact absent isWhole (shortModifier?_of_hasLetter (hasLetter_modified isBlock.letter _))
          isPart
      | split isBlock _ _ parts =>
        rw [parts, List.mem_cons, List.mem_singleton] at isPart
        rcases isPart with rfl | rfl
        · rw [shortModifier?_of_hasLetter isBlock.letter] at isShort
          cases isShort
        · rw [lone] at isShort
          cases isShort
          rfl

end

end Shorthand.Markup.BlockNames
