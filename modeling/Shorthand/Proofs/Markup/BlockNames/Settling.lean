import Shorthand.Proofs.Markup.BlockNames.Expanding
import Shorthand.Proofs.Markup.BlockNames.Writing

/-!
# Class names that stay when they are read again

Full names are read again as they were written, but for three things. A block with a modifier is
split, and the modifier then belongs to the nearest block. A modifier without a block is short. An
element without a block begins with underscores and looks like a modifier.
-/

namespace Shorthand.Markup.BlockNames

/-- The names that are found in what was written. -/
def readAgain (names : List String) : List String :=
  unique ((names.filter (· ≠ "")).flatMap (splitModifier "__"))

/-- What a name is written as when it is read again. -/
def rewritten (config : Config) (again : List BlockNames) (name : String) : List String :=
  if name = "" then [] else (splitModifier "__" name).flatMap (expand config again)

/-- A name stays when what was written for it is read again. A short element has a block, and the
block of a lone modifier is the nearest one, or two underscores keep it with its modifier. -/
structure SettledName (config : Config) (path again : List BlockNames) (name : String) : Prop where
  element : ∀ {marks element rest}, shortElement? name.toList = some (marks, element, rest) →
    blockAt config path marks ≠ ""
  modifier : shortElement? name.toList = none →
    ∀ {marks modifier rest}, shortModifier? name.toList = some (marks, modifier, rest) →
      blockAt config path marks = blockAt config again 1 ∨
        blockAt config path marks ≠ "" ∧
          ['_', '_'] <:+: (blockAt config path marks ++ "_" ++ String.ofList modifier).toList

section

variable {config : Config} {path again : List BlockNames} {name full : String}
  {names : List String} {marks : Nat} {element modifier rest : List Char}

/-! ### What is written again -/

/-- What is written again comes from the single names. -/
theorem written_readAgain (names : List String) :
    written config again (readAgain (written config path names)) =
      unique (names.flatMap fun name =>
        (expand config path name).flatMap (rewritten config again)) := by
  have dropped (full : List String) :
      ((full.filter (· ≠ "")).flatMap (splitModifier "__")).flatMap (expand config again) =
        full.flatMap (rewritten config again) := by
    induction full with
    | nil => rfl
    | cons name rest ih =>
      by_cases empty : name = ""
      · subst empty
        simpa [rewritten] using ih
      · rw [List.filter_cons_of_pos (by simpa using empty), List.flatMap_cons, List.flatMap_append,
          ih, List.flatMap_cons, rewritten, if_neg empty]
  rw [written, readAgain, unique_flatMap_unique, dropped, written, unique_flatMap_unique,
    List.flatMap_assoc]

/-- What is written again is written for a piece of a full name. -/
theorem exists_part
    (member : full ∈ written config again (readAgain (written config path names))) :
    ∃ name ∈ names, ∃ once ∈ expand config path name, ∃ part ∈ splitModifier "__" once,
      full ∈ expand config again part := by
  rw [written_readAgain, mem_unique, List.mem_flatMap] at member
  obtain ⟨name, isName, inside⟩ := member
  obtain ⟨once, isOnce, isAgain⟩ := List.mem_flatMap.mp inside
  rw [rewritten] at isAgain
  split at isAgain
  · cases isAgain
  · obtain ⟨part, isPart, isFull⟩ := List.mem_flatMap.mp isAgain
    exact ⟨name, isName, once, isOnce, part, isPart, isFull⟩

/-! ### Names that stay -/

/-- A name that is neither short form is written as it is. -/
theorem rewritten_plain (filled : name ≠ "") (whole : IsWhole name)
    (isNoElement : shortElement? name.toList = none)
    (isNoModifier : shortModifier? name.toList = none) :
    rewritten config again name = [name] := by
  have pieces : splitModifier "__" name = [name] := whole
  rw [rewritten, if_neg filled, pieces, List.flatMap_singleton,
    expand_plain isNoElement isNoModifier]

/-- A name that begins with a letter and is whole stays. -/
theorem rewritten_letter (letter : hasLetter name) (whole : IsWhole name) :
    rewritten config again name = [name] := by
  have filled : name ≠ "" := by
    rintro rfl
    cases letter
  exact rewritten_plain filled whole (shortElement?_of_hasLetter letter)
    (shortModifier?_of_hasLetter letter)

/-- Full names are written as they are. -/
theorem flatMap_rewritten (each : ∀ name ∈ names, hasLetter name ∧ IsWhole name) :
    names.flatMap (rewritten config again) = names := by
  have same : ∀ name ∈ names, rewritten config again name = [name] := by
    intro name member
    obtain ⟨letter, whole⟩ := each name member
    exact rewritten_letter letter whole
  rw [List.flatMap_congr same, List.flatMap_singleton']

variable (usual : UsualMarks config)

include usual

/-- What is written for a settled name is written again for what was written. -/
theorem unique_rewritten (piece : IsPiece name) (blocks : HasBlocks path)
    (settled : SettledName config path again name) :
    unique ((expand config path name).flatMap (rewritten config again)) =
      unique (expand config path name) := by
  cases reading name with
  | element count element behind isElement =>
    have isBlock := (blockAt_cases usual blocks count).resolve_left (settled.element isElement)
    rw [flatMap_rewritten (letter_whole_of_mem_expand usual isElement isBlock.letter)]
  | plain isNoElement isNoModifier =>
    rw [expand_plain isNoElement isNoModifier, List.flatMap_singleton,
      rewritten_plain piece.filled piece.whole isNoElement isNoModifier]
  | modifier count modifier behind isNoElement isShort =>
    have isModifier := IsModifier.of_short isShort
    have nearest := settled.modifier isNoElement isShort
    rw [expand_modifier usual isNoElement isShort]
    cases modified usual blocks count modifier with
    | lone empty =>
      rw [empty] at nearest ⊢
      have same : blockAt config again 1 = "" :=
        (nearest.resolve_right fun filled => filled.1 rfl).symm
      have pieces : splitModifier "__" ("_" ++ String.ofList modifier) = _ :=
        isWhole_of_head String.toList_append
      simp [rewritten, pieces, expand_lone usual isModifier, same]
    | whole isBlock _ isWhole =>
      rw [flatMap_rewritten]
      simp only [List.forall_mem_cons, List.not_mem_nil, false_imp_iff, implies_true, and_true]
      exact ⟨⟨isBlock.letter, isBlock.whole⟩, hasLetter_modified isBlock.letter _, isWhole⟩
    | split isBlock clean outside parts =>
      -- The modifier is split off, and the block that it then belongs to is the same one.
      have same := nearest.resolve_right fun kept => outside kept.2
      have filled : blockAt config path count ++ "_" ++ String.ofList modifier ≠ "" := by simp
      rw [List.flatMap_cons, List.flatMap_singleton,
        rewritten_letter isBlock.letter isBlock.whole, rewritten, if_neg filled, parts,
        List.flatMap_cons, List.flatMap_singleton,
        expand_plain (shortElement?_of_hasLetter isBlock.letter)
          (shortModifier?_of_hasLetter isBlock.letter), expand_lone usual isModifier, ← same]
      simp [unique]

/-! ### Names that change -/

omit usual in
/-- What stands in front of the first underscore is the block. -/
theorem eq_of_modified_eq {block other : String} {own : List Char} (clean : '_' ∉ block.toList)
    (cleanOther : '_' ∉ other.toList)
    (same : block ++ "_" ++ String.ofList modifier = other ++ "_" ++ String.ofList own) :
    block = other := by
  have front {block : String} {name : List Char} (clean : '_' ∉ block.toList) :
      (block ++ "_" ++ String.ofList name).toList.takeWhile (· != '_') = block.toList := by
    have text : (block ++ "_" ++ String.ofList name).toList = block.toList ++ '_' :: name := by
      simp
    rw [text, takeWhile_until (by simp), takeWhile_of_not_mem clean]
  rw [← String.toList_inj, ← front clean, same, front cleanOther]

/-- If elements have blocks, then what is written again is a whole name that is no modifier, or it
is the nearest block, alone or with a modifier. -/
theorem whole_or_nearest (pieces : ∀ name ∈ names, IsPiece name) (blocks : HasBlocks path)
    (hasBlock : ∀ {name marks element rest}, name ∈ names →
      shortElement? name.toList = some (marks, element, rest) → blockAt config path marks ≠ "")
    (member : full ∈ written config again (readAgain (written config path names))) :
    IsWhole full ∧ shortModifier? full.toList = none ∨
      ∃ own, IsModifier own ∧ (full = blockAt config again 1 ∨
        full = blockAt config again 1 ++ "_" ++ String.ofList own) := by
  obtain ⟨name, isName, once, isOnce, part, isPart, isAgain⟩ := exists_part member
  have isNoElement := shortElement?_of_mem_expand usual (pieces name isName) blocks isOnce isPart
  cases reading part with
  | element _ _ _ isElement =>
    rw [isNoElement] at isElement
    cases isElement
  | plain _ isNoModifier =>
    rw [expand_plain isNoElement isNoModifier, List.mem_singleton] at isAgain
    rw [isAgain]
    exact .inl ⟨isWhole_of_mem_splitModifier isPart, isNoModifier⟩
  | modifier count own behind _ isShort =>
    have one : count = 1 := marks_of_mem_splitModifier usual (pieces name isName) blocks
      (hasBlock isName) isOnce isPart isShort
    subst one
    exact .inr ⟨own, IsModifier.of_short isShort,
      (mem_expand_modifier usual isNoElement isShort).mp isAgain⟩

section

variable (pieces : ∀ name ∈ names, IsPiece name) (blocks : HasBlocks path)
  (blocksAgain : HasBlocks again)
  (kept : ∀ full ∈ written config path names, full ≠ "" →
    full ∈ written config again (readAgain (written config path names)))

include pieces blocks blocksAgain kept

/-- An element without a block changes: its underscores are those of a modifier. -/
theorem block_of_kept (member : name ∈ names)
    (isElement : shortElement? name.toList = some (marks, element, rest)) :
    blockAt config path marks ≠ "" := by
  intro empty
  have isWritten : "__" ++ String.ofList element ∈ written config path names := by
    refine mem_written.mpr ⟨name, member, (mem_expand_element usual isElement).mpr (.inl ?_)⟩
    rw [empty, String.empty_append]
  obtain ⟨other, isOther, once, isOnce, part, isPart, isAgain⟩ :=
    exists_part (kept _ isWritten (by simp))
  have isNoElement := shortElement?_of_mem_expand usual (pieces other isOther) blocks isOnce isPart
  have one := marks_of_mem_expand usual blocksAgain isNoElement isAgain
    (IsModifier.of_shortElement isElement).doubled
  cases one

/-- A lone modifier changes, unless its block is the nearest one or it is not split off. -/
theorem modifier_of_kept (member : name ∈ names)
    (isNoElement : shortElement? name.toList = none)
    (isShort : shortModifier? name.toList = some (marks, modifier, rest)) :
    blockAt config path marks = blockAt config again 1 ∨
      blockAt config path marks ≠ "" ∧
        ['_', '_'] <:+: (blockAt config path marks ++ "_" ++ String.ofList modifier).toList := by
  have isModifier := IsModifier.of_short isShort
  have isWritten : blockAt config path marks ++ "_" ++ String.ofList modifier ∈
      written config path names :=
    mem_written.mpr ⟨name, member, (mem_expand_modifier usual isNoElement isShort).mpr (.inr rfl)⟩
  have isAgain := whole_or_nearest usual pieces blocks
    (block_of_kept usual pieces blocks blocksAgain kept) (kept _ isWritten (by simp))
  -- The block and its modifier are read again as one name, or as two if the pair of underscores in
  -- front of the modifier is not the first.
  cases modified usual blocks marks modifier with
  | whole isBlock inside _ => exact .inr ⟨isBlock.filled, inside⟩
  | lone empty =>
    left
    rw [empty, String.empty_append] at isAgain
    rw [empty]
    have lone := isModifier.lone
    rcases isAgain with ⟨-, isNoModifier⟩ | ⟨own, -, isNearest⟩
    · rw [isNoModifier] at lone
      cases lone
    · rcases blockAt_cases usual blocksAgain 1 with none | isBlock
      · exact none.symm
      · have letter : hasLetter ("_" ++ String.ofList modifier) := by
          rcases isNearest with same | same
          · exact same ▸ isBlock.letter
          · exact same ▸ hasLetter_modified isBlock.letter own
        rw [shortModifier?_of_hasLetter letter] at lone
        cases lone
  | split isBlock clean outside parts =>
    left
    rcases isAgain with ⟨isWhole, -⟩ | ⟨own, isOwn, same | same⟩
    · have same : splitModifier "__" _ = [_] := isWhole
      rw [same] at parts
      simp at parts
    · rcases blockAt_cases usual blocksAgain 1 with none | isNearest
      · rw [none] at same
        simp at same
      · have nearestWhole : splitModifier "__" (blockAt config again 1) = _ := isNearest.whole
        rw [same, nearestWhole] at parts
        simp at parts
    · cases modified usual blocksAgain 1 own with
      | lone none =>
        have notShort := shortModifier?_of_hasLetter (hasLetter_modified isBlock.letter modifier)
        rw [same, none, String.empty_append, isOwn.lone] at notShort
        cases notShort
      | whole _ inside _ => exact absurd (same ▸ inside) outside
      | split _ cleanAgain _ _ => exact eq_of_modified_eq clean cleanAgain same

end

section

variable (pieces : ∀ name ∈ names, IsPiece name) (blocks : HasBlocks path)

include pieces blocks

/-- What is written has no blanks if the blocks have none. -/
theorem isBlankless_of_mem_written (member : full ∈ written config path names) :
    Text.IsBlankless full := by
  obtain ⟨name, isName, isFull⟩ := mem_written.mp member
  exact isBlankless_of_mem_expand usual (pieces name isName).blankless blocks isFull

/-- What is read again are pieces. -/
theorem isPiece_of_mem_readAgain {part : String}
    (member : part ∈ readAgain (written config path names)) : IsPiece part := by
  rw [readAgain, mem_unique, List.mem_flatMap] at member
  obtain ⟨full, isFull, isPart⟩ := member
  obtain ⟨isWritten, filled⟩ := List.mem_filter.mp isFull
  exact isPiece_of_mem_splitModifier (by simpa using filled)
    (isBlankless_of_mem_written usual pieces blocks isWritten) isPart

/-- Class names stay the same when they are read and written again exactly if each of them is
settled. -/
theorem join_written_iff (blocksAgain : HasBlocks again) :
    Text.join " " (written config again (readAgain (written config path names))) =
        Text.join " " (written config path names) ↔
      ∀ name ∈ names, SettledName config path again name := by
  constructor
  · intro same name member
    have words := congrArg Text.words same
    rw [Text.words_join fun full => isBlankless_of_mem_written usual
        (fun part => isPiece_of_mem_readAgain usual pieces blocks) blocksAgain,
      Text.words_join fun full => isBlankless_of_mem_written usual pieces blocks] at words
    have kept : ∀ full ∈ written config path names, full ≠ "" →
        full ∈ written config again (readAgain (written config path names)) := by
      intro full isFull filled
      have inside : full ∈ (written config path names).filter (· ≠ "") :=
        List.mem_filter.mpr ⟨isFull, decide_eq_true filled⟩
      rw [← words] at inside
      exact (List.mem_filter.mp inside).1
    constructor
    case element =>
      intro marks element rest isElement
      exact block_of_kept usual pieces blocks blocksAgain kept member isElement
    case modifier =>
      intro isNoElement marks modifier rest isShort
      exact modifier_of_kept usual pieces blocks blocksAgain kept member isNoElement isShort
  · intro settled
    have same : written config again (readAgain (written config path names)) =
        written config path names := by
      rw [written_readAgain]
      apply unique_flatMap_congr
      intro name member
      exact unique_rewritten usual (pieces name member) blocks (settled name member)
    rw [same]

end

end

end Shorthand.Markup.BlockNames
