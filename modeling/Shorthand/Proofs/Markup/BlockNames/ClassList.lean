import Shorthand.Proofs.Markup.BlockNames.Expanding
import Shorthand.Proofs.Markup.BlockNames.Splitting
import Shorthand.Proofs.Text.Edges

/-!
# Class lists with full names

The class attribute of an element becomes a list of full names. Each of them occurs once, and they
are tidy exactly if every lone modifier has a block. Plain names stay. Of a short name everything is
written out up to what stands behind its notation, which has no influence on what is written.
-/

namespace Shorthand.Markup.BlockNames

/-- What is left of a name behind its short notation. -/
def unread (name : String) : List Char :=
  let rest := ((shortElement? name.toList).map fun found => found.2.2).getD name.toList
  ((shortModifier? rest).map fun found => found.2.2).getD rest

/-- A name without what is left of it. -/
def shortPart (name : String) : String :=
  String.ofList (name.toList.take (name.toList.length - (unread name).length))

/-- Full names of a class name begin well. A lone modifier has a block, which is written by itself,
and nothing that is written in front of an element begins with white space. -/
structure IsAnchored (config : Config) (path : List BlockNames) (name : String) : Prop where
  element : ∀ {marks element rest}, shortElement? name.toList = some (marks, element, rest) →
    ∀ c ∈ (blockAt config path marks ++ config.options.block.element).toList.head?,
      CharClass.blank c = false
  modifier : shortElement? name.toList = none →
    ∀ {marks modifier rest}, shortModifier? name.toList = some (marks, modifier, rest) →
      Text.IsTidy (blockAt config path marks)

section

variable {config : Config} {path : List BlockNames} {name : String}

/-- A name that is not short is among those written for it. -/
theorem mem_expand_of_plain (plain : isShort name = false) : name ∈ expand config path name := by
  rw [isShort, Bool.or_eq_false_iff, Option.isSome_eq_false_iff, Option.isSome_eq_false_iff,
    Option.isNone_iff_eq_none, Option.isNone_iff_eq_none] at plain
  rw [expand_plain plain.1 plain.2]
  exact List.mem_singleton_self name

/-! ### Short names without their rest -/

/-- How a short name is read, up to what is left of it. -/
inductive ShortReading (name : String) : Prop where
  | element {marks : Nat} {element : List Char}
      (isElement : shortElement? name.toList = some (marks, element, unread name))
      (isNoModifier : shortModifier? (unread name) = none)
  | modified {marks own : Nat} {element modifier rest : List Char}
      (isElement : shortElement? name.toList = some (marks, element, rest))
      (isModifier : shortModifier? rest = some (own, modifier, unread name))
  | modifier {marks : Nat} {modifier : List Char}
      (isNoElement : shortElement? name.toList = none)
      (isModifier : shortModifier? name.toList = some (marks, modifier, unread name))

/-- A short name is read as an element or as a modifier. -/
theorem shortReading (short : isShort name) : ShortReading name := by
  cases reading name with
  | element marks element rest isElement =>
    cases isModifier : shortModifier? rest with
    | none =>
      have left : rest = unread name := by simp [unread, isElement, isModifier]
      subst left
      exact .element isElement isModifier
    | some found =>
      obtain ⟨own, modifier, behind⟩ := found
      have left : behind = unread name := by simp [unread, isElement, isModifier]
      subst left
      exact .modified isElement isModifier
  | modifier marks modifier rest isNoElement isModifier =>
    have left : rest = unread name := by simp [unread, isNoElement, isModifier]
    subst left
    exact .modifier isNoElement isModifier
  | plain isNoElement isNoModifier =>
    simp [isShort, isNoElement, isNoModifier] at short

/-- What is in front of the unread end of a short name is its short part. -/
theorem shortPart_of_append {front : List Char} (text : name.toList = front ++ unread name) :
    (shortPart name).toList = front := by
  have size := congrArg List.length text
  rw [List.length_append] at size
  rw [shortPart, String.toList_ofList, size, Nat.add_sub_cancel, text, List.take_left]

/-- What is left of a name has no influence on what is written for it. -/
theorem expand_shortPart (config : Config) (path : List BlockNames) (short : isShort name) :
    expand config path (shortPart name) = expand config path name := by
  cases shortReading short with
  | @element marks element isElement isNoModifier =>
    have isMarked := IsMarked.of_marked? isElement
    have part : (shortPart name).toList = List.replicate marks '-' ++ element :=
      shortPart_of_append (by rw [List.append_assoc, ← isMarked.text])
    have again : shortElement? (shortPart name).toList = some (marks, element, []) :=
      IsMarked.marked? ⟨isMarked.pos, isMarked.named, by rw [part, List.append_nil], by simp⟩
        (by decide)
    rw [expand_shortElement again, expand_shortElement isElement, isNoModifier]
    rfl
  | @modified marks own element modifier rest isElement isModifier =>
    have isMarked := IsMarked.of_marked? isElement
    have isBehind := IsMarked.of_marked? isModifier
    have part : (shortPart name).toList =
        List.replicate marks '-' ++ (element ++ (List.replicate own '_' ++ modifier)) := by
      apply shortPart_of_append
      rw [isMarked.text, isBehind.text]
      simp only [List.append_assoc]
    -- The underscores end the element here as well.
    have ends : ∀ c ∈ (List.replicate own '_' ++ modifier).head?,
        (isNameChar c || c == '-') = false := by
      obtain ⟨count, rfl⟩ := Nat.exists_eq_succ_of_ne_zero (Nat.ne_of_gt isBehind.pos)
      rintro c ⟨⟩
      decide
    have again : shortElement? (shortPart name).toList =
        some (marks, element, List.replicate own '_' ++ modifier) :=
      IsMarked.marked? ⟨isMarked.pos, isMarked.named, part, ends⟩ (by decide)
    have modifierAgain : shortModifier? (List.replicate own '_' ++ modifier) =
        some (own, modifier, []) := (IsModifier.of_short isModifier).shortModifier? isBehind.pos
    rw [expand_shortElement again, expand_shortElement isElement, isModifier, modifierAgain]
    rfl
  | @modifier marks modifier isNoElement isModifier =>
    have isMarked := IsMarked.of_marked? isModifier
    have part : (shortPart name).toList = List.replicate marks '_' ++ modifier :=
      shortPart_of_append (by rw [List.append_assoc, ← isMarked.text])
    have noElement : shortElement? (shortPart name).toList = none := by
      obtain ⟨count, rfl⟩ := Nat.exists_eq_succ_of_ne_zero (Nat.ne_of_gt isMarked.pos)
      rw [part, List.replicate_succ, List.cons_append, shortElement?_of_ne (by decide)]
    have again : shortModifier? (shortPart name).toList = some (marks, modifier, []) := by
      rw [part]
      exact (IsModifier.of_short isModifier).shortModifier? isMarked.pos
    rw [expand_shortModifier noElement again, expand_shortModifier isNoElement isModifier]

/-! ### Letters of short names -/

/-- Marks are no letters. -/
theorem IsMarked.filter {mark : Char} {more isLetter : Char → Bool} {text named rest : List Char}
    {marks : Nat} (isMarked : IsMarked mark more text marks named rest)
    (isNoLetter : isLetter mark = false) :
    text.filter isLetter = named.filter isLetter ++ rest.filter isLetter := by
  rw [isMarked.text, List.filter_append, List.filter_append,
    List.filter_replicate_of_neg (by simp [isNoLetter]), List.nil_append]

/-- The letters of a short name are all in one of its full names, if none is left. -/
theorem exists_letters (config : Config) (path : List BlockNames) (short : isShort name) :
    ∃ full ∈ expand config path name, ∀ isLetter : Char → Bool, isLetter '-' = false →
      isLetter '_' = false → (∀ c ∈ unread name, isLetter c = false) →
        (name.toList.filter isLetter).Sublist full.toList := by
  have nothing {isLetter : Char → Bool} (unlettered : ∀ c ∈ unread name, isLetter c = false) :
      (unread name).filter isLetter = [] := by
    rw [List.filter_eq_nil_iff]
    intro c member
    simp [unlettered c member]
  cases shortReading short with
  | element isElement isNoModifier =>
    rw [expand_shortElement isElement]
    refine ⟨_, List.mem_cons_self, ?_⟩
    intro isLetter noDash _ unlettered
    rw [(IsMarked.of_marked? isElement).filter noDash, nothing unlettered, List.append_nil,
      String.toList_append, String.toList_ofList]
    exact List.filter_sublist.trans (List.sublist_append_right _ _)
  | modified isElement isModifier =>
    rw [expand_shortElement isElement, isModifier]
    refine ⟨_, List.mem_cons_of_mem _ (List.mem_singleton_self _), ?_⟩
    intro isLetter noDash noUnderscore unlettered
    rw [(IsMarked.of_marked? isElement).filter noDash,
      (IsMarked.of_marked? isModifier).filter noUnderscore, nothing unlettered, List.append_nil]
    simp only [String.toList_append, String.toList_ofList]
    exact ((List.filter_sublist.trans (List.sublist_append_right _ _)).trans
      (List.sublist_append_left _ _)).append List.filter_sublist
  | modifier isNoElement isModifier =>
    rw [expand_shortModifier isNoElement isModifier]
    refine ⟨_, List.mem_cons_of_mem _ (List.mem_singleton_self _), ?_⟩
    intro isLetter _ noUnderscore unlettered
    rw [(IsMarked.of_marked? isModifier).filter noUnderscore, nothing unlettered,
      List.append_nil, String.toList_append, String.toList_ofList]
    exact List.filter_sublist.trans (List.sublist_append_right _ _)

/-! ### Tidy names -/

/-- The named part of a word is a word. -/
theorem IsMarked.word {mark : Char} {more : Char → Bool} {text named rest : List Char}
    {marks : Nat} (isMarked : IsMarked mark more text marks named rest)
    (blankless : ∀ c ∈ text, CharClass.blank c = false) :
    String.ofList named ≠ "" ∧ Text.IsBlankless (String.ofList named) ∧
      ∀ c ∈ rest, CharClass.blank c = false := by
  obtain ⟨first, others, isNamed, -⟩ := isMarked.named
  rw [isMarked.text, List.forall_mem_append, List.forall_mem_append] at blankless
  rw [ne_eq, String.ofList_eq_empty_iff, Text.IsBlankless, String.toList_ofList]
  exact ⟨by simp [isNamed], blankless.2⟩

/-- The full names of a word are tidy exactly if they begin well. -/
theorem tidy_expand_iff (filled : name ≠ "") (blankless : Text.IsBlankless name) :
    (∀ full ∈ expand config path name, Text.IsTidy full) ↔ IsAnchored config path name := by
  -- Each way of reading a name rules out the other two, so that only one half of being anchored
  -- says anything.
  cases reading name with
  | element marks element rest isElement =>
    obtain ⟨named, nameBlankless, behind⟩ := (IsMarked.of_marked? isElement).word blankless
    have whole := Text.isTidy_behind_iff
      (blockAt config path marks ++ config.options.block.element) named nameBlankless
    rw [expand_shortElement isElement, List.forall_mem_cons, whole]
    constructor
    · rintro ⟨begins, -⟩
      constructor
      case element =>
        intro _ _ _ isAgain
        rw [isElement] at isAgain
        cases isAgain
        exact begins
      case modifier =>
        intro isNoElement
        rw [isElement] at isNoElement
        cases isNoElement
    · intro anchored
      have begins := anchored.element isElement
      refine ⟨begins, fun full member => ?_⟩
      obtain ⟨⟨own, modifier, left⟩, isModifier, rfl⟩ := List.mem_map.mp member
      rw [Option.mem_toList] at isModifier
      obtain ⟨modified, modifierBlankless, -⟩ := (IsMarked.of_marked? isModifier).word behind
      exact (whole.mpr begins).around _ (.of_word modified modifierBlankless)
  | modifier marks modifier rest isNoElement isModifier =>
    obtain ⟨named, nameBlankless, -⟩ := (IsMarked.of_marked? isModifier).word blankless
    rw [expand_shortModifier isNoElement isModifier, List.forall_mem_cons,
      List.forall_mem_singleton]
    constructor
    · rintro ⟨block, -⟩
      constructor
      case element =>
        intro _ _ _ isElement
        rw [isNoElement] at isElement
        cases isElement
      case modifier =>
        intro _ _ _ _ isAgain
        rw [isModifier] at isAgain
        cases isAgain
        exact block
    · intro anchored
      have block := anchored.modifier isNoElement isModifier
      exact ⟨block, block.around _ (.of_word named nameBlankless)⟩
  | plain isNoElement isNoModifier =>
    rw [expand_plain isNoElement isNoModifier, List.forall_mem_singleton]
    refine iff_of_true (.of_word filled blankless) ⟨?_, ?_⟩
    · intro _ _ _ isElement
      rw [isNoElement] at isElement
      cases isElement
    · intro _ _ _ _ isModifier
      rw [isNoModifier] at isModifier
      cases isModifier

/-- All names that are written are tidy if every name has a block to go with. -/
theorem tidy_written_iff {names : List String}
    (words : ∀ name ∈ names, name ≠ "" ∧ Text.IsBlankless name) :
    (∀ full ∈ written config path names, Text.IsTidy full) ↔
      ∀ name ∈ names, IsAnchored config path name := by
  constructor
  · intro tidy name member
    refine (tidy_expand_iff (words name member).1 (words name member).2).mp fun once isOnce => ?_
    exact tidy once (mem_written.mpr ⟨name, member, isOnce⟩)
  · intro anchored once member
    obtain ⟨name, isName, isOnce⟩ := mem_written.mp member
    obtain ⟨filled, blankless⟩ := words name isName
    exact (tidy_expand_iff filled blankless).mpr (anchored name isName) once isOnce

/-! ### Class attributes -/

/-- Something is written for names if there are any. -/
theorem written_filled {names : List String} (filled : names ≠ []) :
    written config path names ≠ [] := by
  obtain ⟨name, rest, rfl⟩ := List.exists_cons_of_ne_nil filled
  obtain ⟨once, isOnce⟩ := List.exists_mem_of_ne_nil _ (expand_ne_nil config path name)
  exact List.ne_nil_of_mem (mem_written.mpr ⟨name, List.mem_cons_self, isOnce⟩)

/-- Class names of an element are written as the value of its class attribute. -/
theorem value_apply (outer : List BlockNames) {element : Element}
    (filled : (split config element).1.classNames ≠ []) :
    ((apply config outer element).2.attributes.find? (isClass config)).map Attribute.value =
      some (some [.text (Text.join " " (written config ((split config element).1 :: outer)
        (split config element).1.classNames))]) := by
  have fullFilled : written config ((split config element).1 :: outer)
      (split config element).1.classNames ≠ [] := written_filled filled
  rw [apply_eq]
  dsimp only
  rw [putClasses_putClasses config fullFilled]
  exact value_putClasses config fullFilled (hasClass_of_classNames filled)

end

/-- What the class attribute of an element is written as, if it holds any class names: full names
with blanks between them, each of them once. They are tidy, and so is the attribute, exactly if all
class names are anchored. Plain names stay. Everything of a short name is written out but for what
is left behind its notation, which has no influence. -/
theorem apply_classList (config : Config) (outer : List BlockNames) (element : Element) :
    let names := (split config element).1.classNames
    let path := (split config element).1 :: outer
    let named := (apply config outer element).2
    let full := written config path names
    (if names = [] then named = element
      else (named.attributes.find? (isClass config)).map Attribute.value =
        some (some [.text (Text.join " " full)])) ∧
      full.Nodup ∧
      ((∀ name ∈ full, Text.IsTidy name) ↔ ∀ name ∈ names, IsAnchored config path name) ∧
      ((∀ name ∈ full, Text.IsTidy name) →
        Text.trim (Text.join " " full) = Text.join " " full) ∧
      (∀ name ∈ names, isShort name = false → name ∈ full) ∧
      ∀ name ∈ names, isShort name →
        expand config path (shortPart name) = expand config path name ∧
        ∃ once ∈ full, ∀ isLetter : Char → Bool, isLetter '-' = false → isLetter '_' = false →
          (∀ c ∈ unread name, isLetter c = false) →
            (name.toList.filter isLetter).Sublist once.toList := by
  intro names path named full
  refine ⟨?_, nodup_unique _, ?_, Text.trim_join, ?_, ?_⟩
  · split
    next empty => exact congrArg Prod.snd (apply_of_nil outer empty)
    next filled => exact value_apply outer filled
  · exact tidy_written_iff fun name => word_of_mem_classNames
  · intro name member plain
    exact mem_written.mpr ⟨name, member, mem_expand_of_plain plain⟩
  · intro name member short
    obtain ⟨once, isOnce, letters⟩ := exists_letters config path short
    have inFull : once ∈ full := mem_written.mpr ⟨name, member, isOnce⟩
    exact ⟨expand_shortPart config path short, once, inFull, letters⟩

/-- A modifier without a block is written behind an empty name. Behind an element of a block a point
ends the notation, so nothing tells what stands there. -/
theorem apply_classList_loose :
    let config := Config.ofSettings .blank
    let classed (text : String) : Element :=
      { Element.named "div" with attributes := [.named "class" (some [.text text])] }
    let outer : List BlockNames := [⟨["b"], some "b"⟩]
    (((apply config [] (classed "_m")).2.attributes.find? (isClass config)).map Attribute.value =
        some (some [.text " _m"])) ∧
      ¬IsAnchored config [(split config (classed "_m")).1] "_m" ∧
      (((apply config outer (classed "-e.x")).2.attributes.find? (isClass config)).map
        Attribute.value = some (some [.text "b__e"])) ∧
      expand config ((split config (classed "-e.x")).1 :: outer) "-e" = ["b__e"] := by
  intro config classed outer
  have modifier : (split config (classed "_m")).1.classNames = ["_m"] := by decide +kernel
  have element : (split config (classed "-e.x")).1.classNames = ["-e.x"] := by decide +kernel
  have full : written config [(split config (classed "_m")).1] ["_m"] = ["", "_m"] := by
    decide +kernel
  have fullElement : written config ((split config (classed "-e.x")).1 :: outer) ["-e.x"] =
      ["b__e"] := by
    decide +kernel
  obtain ⟨text, -, tidy, -, -, -⟩ := apply_classList config [] (classed "_m")
  obtain ⟨textElement, -, -, -, -, rest⟩ := apply_classList config outer (classed "-e.x")
  rw [modifier, if_neg (by decide), full] at text
  rw [modifier, full] at tidy
  rw [element, if_neg (by decide), fullElement] at textElement
  rw [element] at rest
  refine ⟨text, ?_, textElement, ?_⟩
  · intro anchored
    have all := tidy.mpr (List.forall_mem_singleton.mpr anchored)
    exact (all "" List.mem_cons_self).filled rfl
  · have part : shortPart "-e.x" = "-e" := by decide +kernel
    have same := (rest "-e.x" (List.mem_singleton_self _) (by decide +kernel)).1
    rw [part] at same
    rw [same]
    decide +kernel

end Shorthand.Markup.BlockNames
