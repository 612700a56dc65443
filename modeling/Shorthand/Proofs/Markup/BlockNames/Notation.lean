import Mathlib.Data.List.Infix
import Shorthand.Markup.BlockNames
import Shorthand.Proofs.Text.Run
import Shorthand.Proofs.Text.Words

/-!
# Short and full class names

A short name begins with marks, and a name that begins with a letter is none. Splitting off a
modifier once is enough: neither the block nor the modifier is split again. A name with two
underscores inside is whole.
-/

namespace Shorthand.Markup.BlockNames

/-! ### Marks in front of a name -/

/-- A name that begins with a letter or a digit and goes on with other characters. -/
def IsName (more : Char → Bool) (name : List Char) : Prop :=
  ∃ first others, name = first :: others ∧ isNameChar first ∧ ∀ c ∈ others, more c

/-- A text of marks, a name and what follows it. -/
structure IsMarked (mark : Char) (more : Char → Bool) (text : List Char) (marks : Nat)
    (name rest : List Char) : Prop where
  pos : 0 < marks
  named : IsName more name
  text : text = List.replicate marks mark ++ (name ++ rest)
  ends : ∀ c ∈ rest.head?, more c = false

section

variable {mark : Char} {more : Char → Bool} {text name rest : List Char} {marks : Nat}

/-- What is recognized as marks and a name is marked. -/
theorem IsMarked.of_marked? (found : marked? mark more text = some (marks, name, rest)) :
    IsMarked mark more text marks name rest := by
  rw [BlockNames.marked?] at found
  have apart := List.takeWhile_append_dropWhile (p := (· == mark)) (l := text)
  have isMark : ∀ c ∈ text.takeWhile (· == mark), c = mark := by
    intro c member
    simpa using List.mem_takeWhile_imp member
  cases behind : text.dropWhile (· == mark) with
  | nil =>
    rw [behind] at found
    cases found
  | cons first others =>
    rw [behind] at found apart
    rw [Option.ite_none_left_eq_some, Bool.or_eq_true, not_or] at found
    obtain ⟨⟨filled, isName⟩, same⟩ := found
    simp only [Option.some.injEq, Prod.mk.injEq] at same
    obtain ⟨rfl, rfl, rfl⟩ := same
    constructor
    case pos => simpa [List.length_pos_iff] using filled
    case named => exact ⟨first, _, rfl, by simpa using isName, fun c => List.mem_takeWhile_imp⟩
    case text =>
      rw [← List.eq_replicate_of_mem isMark, List.cons_append, List.takeWhile_append_dropWhile,
        apart]
    case ends =>
      intro c member
      have stops := List.head?_dropWhile_not more others
      rw [Option.mem_def.mp member] at stops
      simpa using stops

/-- Without a mark in front nothing is recognized. -/
theorem marked?_of_ne {c : Char} (other : c ≠ mark) : marked? mark more (c :: text) = none := by
  simp [marked?, other]

/-- A marked name is recognized, as a mark is no character that names begin with. -/
theorem IsMarked.marked? (isMarked : IsMarked mark more text marks name rest)
    (unnamed : isNameChar mark = false) :
    BlockNames.marked? mark more text = some (marks, name, rest) := by
  obtain ⟨pos, ⟨first, others, rfl, isName, goesOn⟩, rfl, ends⟩ := isMarked
  have isMark : ∀ c ∈ List.replicate marks mark, (c == mark) = true := by simp
  have begins : ∀ c ∈ (first :: others ++ rest).head?, (c == mark) = false := by
    rintro c ⟨⟩
    rw [beq_eq_false_iff_ne]
    rintro rfl
    exact absurd (unnamed.symm.trans isName) (by simp)
  rw [BlockNames.marked?, takeWhile_run isMark begins, dropWhile_run isMark begins]
  have filled : (List.replicate marks mark).isEmpty = false := by
    simp [Nat.ne_of_gt pos]
  simp only [List.cons_append, filled, isName, takeWhile_run goesOn ends, dropWhile_run goesOn ends,
    List.length_replicate]
  rfl

end

/-- A short element begins with a dash. -/
theorem shortElement?_of_ne {c : Char} (other : c ≠ '-') (rest : List Char) :
    shortElement? (c :: rest) = none := marked?_of_ne other

/-- A short modifier begins with an underscore. -/
theorem shortModifier?_of_ne {c : Char} (other : c ≠ '_') (rest : List Char) :
    shortModifier? (c :: rest) = none := marked?_of_ne other

/-- The name of a modifier. -/
def IsModifier (name : List Char) : Prop :=
  IsName (fun c => isNameChar c || c == '-' || c == '_') name

/-- What follows the marks of a short modifier is the name of a modifier. -/
theorem IsModifier.of_short {text name rest : List Char} {marks : Nat}
    (found : shortModifier? text = some (marks, name, rest)) : IsModifier name :=
  (IsMarked.of_marked? found).named

/-- The name of an element may be that of a modifier. -/
theorem IsModifier.of_shortElement {text name rest : List Char} {marks : Nat}
    (found : shortElement? text = some (marks, name, rest)) : IsModifier name := by
  obtain ⟨first, others, rfl, isName, goesOn⟩ := (IsMarked.of_marked? found).named
  refine ⟨first, others, rfl, isName, ?_⟩
  intro c member
  exact Bool.or_eq_true_iff.mpr (.inl (goesOn c member))

/-- The name of a modifier begins with no underscore. -/
theorem IsModifier.head {name : List Char} (isModifier : IsModifier name) :
    ∃ first others, name = first :: others ∧ first ≠ '_' := by
  obtain ⟨first, others, rfl, isName, -⟩ := isModifier
  refine ⟨first, others, rfl, ?_⟩
  rintro rfl
  exact absurd isName (by decide)

/-- A modifier behind underscores is read as it is. -/
theorem IsModifier.shortModifier? {name : List Char} (isModifier : IsModifier name) {marks : Nat}
    (pos : 0 < marks) :
    BlockNames.shortModifier? (List.replicate marks '_' ++ name) = some (marks, name, []) :=
  IsMarked.marked? ⟨pos, isModifier, by rw [List.append_nil], by simp⟩ (by decide)

/-- One underscore in front of a modifier makes it short. -/
theorem IsModifier.lone {name : List Char} (isModifier : IsModifier name) :
    BlockNames.shortModifier? ("_" ++ String.ofList name).toList = some (1, name, []) := by
  have text : ("_" ++ String.ofList name).toList = List.replicate 1 '_' ++ name := by simp
  rw [text, isModifier.shortModifier? Nat.one_pos]

/-- So do two. -/
theorem IsModifier.doubled {name : List Char} (isModifier : IsModifier name) :
    BlockNames.shortModifier? ("__" ++ String.ofList name).toList = some (2, name, []) := by
  have text : ("__" ++ String.ofList name).toList = List.replicate 2 '_' ++ name := by
    simp [List.replicate]
  rw [text, isModifier.shortModifier? Nat.two_pos]

/-! ### Splitting modifiers off -/

/-- A text occurs inside of another one if it is a part of it, but not at its beginning. -/
theorem occursInside_iff {piece text : List Char} (filled : piece ≠ []) :
    occursInside piece text = true ↔ ¬piece <+: text ∧ piece <:+: text := by
  simp only [occursInside, Bool.and_eq_true, Bool.not_eq_true', List.any_eq_true, List.mem_range,
    List.isPrefixOf_iff_prefix, ← Bool.not_eq_true]
  apply and_congr_right
  intro _
  constructor
  · rintro ⟨start, -, begins⟩
    exact begins.isInfix.trans (List.drop_suffix start text).isInfix
  · rintro ⟨before, behind, rfl⟩
    refine ⟨before.length, ?_, ?_⟩
    · have pos := List.length_pos_iff.mpr filled
      simp only [List.length_append]
      omega
    · simp

/-- What stands in front of the first underscore. -/
theorem takeWhile_of_not_mem {text : List Char} (clean : '_' ∉ text) :
    text.takeWhile (· != '_') = text := by
  rw [List.takeWhile_eq_self_iff]
  intro c member
  rw [bne_iff_ne]
  rintro rfl
  exact clean member

section

variable {separator name piece : String}

/-- A name without underscores is not split. -/
theorem splitModifier_of_not_mem (clean : '_' ∉ name.toList) :
    splitModifier separator name = [name] := by
  simp [splitModifier, takeWhile_of_not_mem clean]

/-- A name with an underscore in front is not split. -/
theorem splitModifier_of_head {tail : List Char} (text : name.toList = '_' :: tail) :
    splitModifier separator name = [name] := by
  simp [splitModifier, text]

/-- Whatever separates elements, a name is not split, or it is split at its first underscore. -/
theorem splitModifier_cases (separator name : String) :
    splitModifier separator name = [name] ∨
      ∃ block tail, name.toList = block ++ '_' :: tail ∧ '_' ∉ block ∧ block ≠ [] ∧
        splitModifier separator name = [String.ofList block, String.ofList ('_' :: tail)] := by
  by_cases marked : '_' ∈ name.toList
  · obtain ⟨block, tail, text, clean⟩ := List.eq_append_cons_of_mem marked
    have isBlock : name.toList.takeWhile (· != '_') = block := by
      rw [text, takeWhile_until (by simp), takeWhile_of_not_mem clean]
    have isTail : name.toList.drop block.length = '_' :: tail := by rw [text, List.drop_left]
    simp only [splitModifier, isBlock, isTail]
    split
    next splits =>
      refine .inr ⟨block, tail, text, clean, ?_, rfl⟩
      rintro rfl
      simp at splits
    next => exact .inl rfl
  · exact .inl (splitModifier_of_not_mem marked)

/-- Pieces are not split again. -/
theorem splitModifier_piece (member : piece ∈ splitModifier separator name) :
    splitModifier separator piece = [piece] := by
  rcases splitModifier_cases separator name with
    whole | ⟨block, tail, text, clean, filled, pieces⟩
  · rw [whole, List.mem_singleton] at member
    rwa [member]
  · rw [pieces, List.mem_cons, List.mem_singleton] at member
    rcases member with rfl | rfl
    · exact splitModifier_of_not_mem (by rwa [String.toList_ofList])
    · exact splitModifier_of_head String.toList_ofList

/-- The pieces of a name make up the name. -/
theorem join_splitModifier (separator name : String) :
    String.join (splitModifier separator name) = name := by
  rcases splitModifier_cases separator name with whole | ⟨block, tail, text, -, -, pieces⟩
  · simp [whole]
  · rw [← String.toList_inj, pieces, text]
    simp

/-- The pieces of words are words. -/
theorem word_of_mem_splitModifier (filled : name ≠ "") (blankless : Text.IsBlankless name)
    (member : piece ∈ splitModifier separator name) : piece ≠ "" ∧ Text.IsBlankless piece := by
  rcases splitModifier_cases separator name with
    same | ⟨block, tail, text, clean, front, pieces⟩
  · rw [same, List.mem_singleton] at member
    exact member ▸ ⟨filled, blankless⟩
  · rw [Text.IsBlankless, text, List.forall_mem_append] at blankless
    rw [pieces, List.mem_cons, List.mem_singleton] at member
    rcases member with rfl | rfl
    · rw [ne_eq, String.ofList_eq_empty_iff, Text.IsBlankless, String.toList_ofList]
      exact ⟨front, blankless.1⟩
    · rw [ne_eq, String.ofList_eq_empty_iff, Text.IsBlankless, String.toList_ofList]
      exact ⟨List.cons_ne_nil _ _, blankless.2⟩

end

/-- A name that is not split. -/
def IsWhole (name : String) : Prop := splitModifier "__" name = [name]

instance (name : String) : Decidable (IsWhole name) :=
  inferInstanceAs (Decidable (splitModifier "__" name = [name]))

/-- A name without underscores is whole. -/
theorem isWhole_of_not_mem {name : String} (clean : '_' ∉ name.toList) : IsWhole name :=
  splitModifier_of_not_mem clean

/-- A name with an underscore in front is whole. -/
theorem isWhole_of_head {name : String} {tail : List Char} (text : name.toList = '_' :: tail) :
    IsWhole name := splitModifier_of_head text

/-- A name is split at its first underscore, if it has a block in front and no element. -/
theorem splitModifier_of_append {name : String} {block tail : List Char}
    (text : name.toList = block ++ '_' :: tail) (clean : '_' ∉ block) :
    splitModifier "__" name =
      if block = [] ∨ block.head? = some '-' ∨ occursInside ['_', '_'] name.toList then [name]
      else [String.ofList block, String.ofList ('_' :: tail)] := by
  have isBlock : name.toList.takeWhile (· != '_') = block := by
    rw [text, takeWhile_until (by simp), takeWhile_of_not_mem clean]
  have marks : "__".toList = ['_', '_'] := rfl
  have isMark : (['_', '_'] : List Char).contains '_' = true := rfl
  simp only [splitModifier, isBlock, marks, isMark, Bool.true_and]
  rw [text]
  cases block with
  | nil => simp
  | cons first rest =>
    simp only [List.isEmpty_cons, List.cons_append, List.head?_cons, bne, Bool.not_false,
      Bool.and_true, reduceCtorEq, false_or, Option.some.injEq]
    by_cases dashed : first = '-'
    · simp [dashed]
    · cases occursInside ['_', '_'] (first :: (rest ++ '_' :: tail)) with
      | true => simp
      | false => simp [dashed]

/-- A name is whole, or a block with a modifier is split off it. -/
theorem isWhole_or_split (name : String) :
    IsWhole name ∨ ∃ block tail, name.toList = block ++ '_' :: tail ∧ '_' ∉ block ∧ block ≠ [] ∧
      splitModifier "__" name = [String.ofList block, String.ofList ('_' :: tail)] :=
  splitModifier_cases "__" name

/-- The pieces of a name are whole. -/
theorem isWhole_of_mem_splitModifier {name piece : String}
    (member : piece ∈ splitModifier "__" name) : IsWhole piece := splitModifier_piece member

/-! ### Names that begin with a letter -/

/-- Having a letter is beginning with one. -/
theorem hasLetter_iff {name : String} :
    hasLetter name ↔ ∃ first rest, name.toList = first :: rest ∧ CharClass.foldedLetter first := by
  rw [hasLetter]
  cases name.toList with
  | nil => simp
  | cons first rest => simp

/-- A name with a letter and a dash has a letter. -/
theorem hasLetter_of_dash {name : String} (dashed : hasLetterAndDash name) : hasLetter name := by
  rw [hasLetterAndDash] at dashed
  split at dashed
  next first rest text => exact hasLetter_iff.mpr ⟨first, '-' :: rest, text, dashed⟩
  next => cases dashed

section

variable {name : String} (letter : hasLetter name)

include letter

/-- A name that begins with a letter begins with no mark. -/
theorem head_of_hasLetter :
    ∃ first rest, name.toList = first :: rest ∧ first ≠ '-' ∧ first ≠ '_' := by
  obtain ⟨first, rest, text, isLetter⟩ := hasLetter_iff.mp letter
  refine ⟨first, rest, text, ?_, ?_⟩
  · rintro rfl
    exact absurd isLetter (by decide)
  · rintro rfl
    exact absurd isLetter (by decide)

/-- A name that begins with a letter is no short element. -/
theorem shortElement?_of_hasLetter : shortElement? name.toList = none := by
  obtain ⟨first, rest, text, dashless, -⟩ := head_of_hasLetter letter
  rw [text, shortElement?_of_ne dashless]

/-- A name that begins with a letter is no short modifier. -/
theorem shortModifier?_of_hasLetter : shortModifier? name.toList = none := by
  obtain ⟨first, rest, text, -, clean⟩ := head_of_hasLetter letter
  rw [text, shortModifier?_of_ne clean]

/-- What follows a name does not matter to its first letter. -/
theorem hasLetter_append (more : String) : hasLetter (name ++ more) := by
  obtain ⟨first, rest, text, isLetter⟩ := hasLetter_iff.mp letter
  exact hasLetter_iff.mpr ⟨first, rest ++ more.toList, by rw [String.toList_append, text]; rfl,
    isLetter⟩

/-- Behind a letter, a text occurs inside wherever it occurs. -/
theorem occursInside_of_hasLetter :
    occursInside ['_', '_'] name.toList = true ↔ ['_', '_'] <:+: name.toList := by
  obtain ⟨first, rest, text, -, clean⟩ := head_of_hasLetter letter
  rw [occursInside_iff (List.cons_ne_nil _ _), and_iff_right_iff_imp, text]
  intro _ begins
  exact clean (List.cons_prefix_cons.mp begins).1.symm

/-- A block with a modifier is split, unless two underscores stand inside. -/
theorem splitModifier_of_hasLetter {block tail : List Char}
    (text : name.toList = block ++ '_' :: tail) (clean : '_' ∉ block) :
    splitModifier "__" name =
      if occursInside ['_', '_'] name.toList then [name]
      else [String.ofList block, String.ofList ('_' :: tail)] := by
  obtain ⟨first, rest, begins, dashless, unmarked⟩ := head_of_hasLetter letter
  have filled : block ≠ [] := by
    rintro rfl
    exact unmarked (List.cons.inj (begins.symm.trans text)).1
  have head : block.head? ≠ some '-' := by
    have same := congrArg List.head? (begins.symm.trans text)
    rw [List.head?_append_of_ne_nil _ filled, List.head?_cons] at same
    rw [← same, ne_eq, Option.some.injEq]
    exact dashless
  simp only [splitModifier_of_append text clean, filled, head, false_or]

/-- A name that begins with a letter is whole if it has no underscore, or two of them inside. -/
theorem isWhole_iff_of_hasLetter :
    IsWhole name ↔ '_' ∉ name.toList ∨ ['_', '_'] <:+: name.toList := by
  by_cases marked : '_' ∈ name.toList
  · obtain ⟨block, tail, text, clean⟩ := List.eq_append_cons_of_mem marked
    rw [IsWhole, splitModifier_of_hasLetter letter text clean, ← occursInside_of_hasLetter letter]
    simp [marked]
  · exact ⟨fun _ => .inl marked, fun _ => isWhole_of_not_mem marked⟩

end

/-! ### Pieces and blocks -/

/-- What class names are split into. -/
structure IsPiece (name : String) : Prop where
  filled : name ≠ ""
  blankless : Text.IsBlankless name
  whole : IsWhole name

/-- A piece that begins with a letter, as blocks do. -/
structure IsBlock (name : String) : Prop extends IsPiece name where
  letter : hasLetter name

/-- The block is one of the names and begins with a letter. -/
theorem findBlock_eq_some {names : List String} {block : String}
    (found : findBlock names = some block) : block ∈ names ∧ hasLetter block := by
  have fromFull (name : String) (member : name ∈ names.takeWhile fun name => !isShort name) :
      name ∈ names := (List.takeWhile_prefix _).subset member
  rw [findBlock] at found
  cases dashed : (names.takeWhile fun name => !isShort name).find? hasLetterAndDash with
  | some name =>
    rw [dashed] at found
    obtain rfl := Option.some.inj found
    exact ⟨fromFull _ (List.mem_of_find?_eq_some dashed),
      hasLetter_of_dash (List.find?_some dashed)⟩
  | none =>
    rw [dashed] at found
    exact ⟨fromFull _ (List.mem_of_find?_eq_some found), List.find?_some found⟩

/-- The pieces of words are pieces. -/
theorem isPiece_of_mem_splitModifier {word piece : String} (filled : word ≠ "")
    (blankless : Text.IsBlankless word) (member : piece ∈ splitModifier "__" word) :
    IsPiece piece := by
  obtain ⟨pieceFilled, pieceBlankless⟩ := word_of_mem_splitModifier filled blankless member
  exact ⟨pieceFilled, pieceBlankless, isWhole_of_mem_splitModifier member⟩

end Shorthand.Markup.BlockNames
