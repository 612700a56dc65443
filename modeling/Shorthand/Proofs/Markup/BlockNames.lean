import Shorthand.Proofs.Markup.AttributeNames
import Shorthand.Proofs.Markup.BlockNames.Settling
import Shorthand.Proofs.Markup.BlockNames.Writing

/-!
# Transforming what has been transformed

Transforming nodes a second time reads the class names that were written. Everything else stays,
so the nodes stay exactly if their class names do.
-/

namespace Shorthand.Markup

namespace BlockNames

/-! ### Elements without a name -/

/-- Class names are read from attributes alone. -/
theorem split_withName (config : Config) (element : Element) (name : Option String) :
    (split config { element with name }).1 = (split config element).1 := by
  have text : classText config { element with name } = classText config element := rfl
  simp only [split, text]

/-- The name of an element does not matter to its blocks. -/
theorem apply_withName (config : Config) (outer : List BlockNames) (element : Element)
    (name : Option String) :
    apply config outer { element with name } =
      ((apply config outer element).1, { (apply config outer element).2 with name }) := by
  have put (names : List String) (element : Element) :
      putClasses config names { element with name } =
        { putClasses config names element with name } := by
    rw [putClasses, putClasses]
    split <;> rfl
  have text : classText config { element with name } = classText config element := rfl
  simp only [apply, split, put, text]

/-! ### Elements that are read again -/

section

variable {config : Config} (usual : UsualMarks config)

include usual

/-- Names that were written are read again. -/
theorem classNames_putClasses {full : List String} (filled : full ≠ [])
    (blankless : ∀ name ∈ full, Text.IsBlankless name) {element : Element}
    (hasClass : (element.attributes.find? (isClass config)).isSome) :
    (split config (putClasses config full element)).1.classNames = readAgain full := by
  simp only [split, ofText, classText_putClasses config filled hasClass, Text.words_join blankless,
    usual.element, readAgain]

/-- The names of an element are pieces, and its block is a block. -/
theorem isPiece_of_split {element : Element} {name : String}
    (member : name ∈ (split config element).1.classNames) : IsPiece name := by
  rw [split, mem_unique, List.mem_flatMap, usual.element] at member
  obtain ⟨word, isWord, isPart⟩ := member
  obtain ⟨filled, blankless⟩ := Text.mem_words isWord
  exact isPiece_of_mem_splitModifier filled blankless isPart

/-- The block of an element is one of the pieces of its names. -/
theorem isBlock_of_split {element : Element} {block : String}
    (isBlock : (split config element).1.block = some block) : IsBlock block := by
  obtain ⟨member, letter⟩ := findBlock_eq_some isBlock
  exact ⟨isPiece_of_split usual member, letter⟩

/-- Elements further inside keep the blocks on the path. -/
theorem hasBlocks_cons {path : List BlockNames} (blocks : HasBlocks path) (element : Element) :
    HasBlocks ((split config element).1 :: path) := by
  intro names member block isBlock
  rcases List.mem_cons.mp member with rfl | inside
  · exact isBlock_of_split usual isBlock
  · exact blocks names inside block isBlock

omit usual in
/-- Different class names are written differently. -/
theorem putClasses_inj {full others : List String} (filled : full ≠ []) (otherFilled : others ≠ [])
    {element : Element} (hasClass : (element.attributes.find? (isClass config)).isSome) :
    putClasses config full element = putClasses config others element ↔
      Text.join " " full = Text.join " " others := by
  constructor
  · intro same
    rw [← classText_putClasses config filled hasClass, same,
      classText_putClasses config otherFilled hasClass]
  · intro same
    simp [putClasses, filled, otherFilled, same]

/-- Something is written where there are names, and it is read again. -/
theorem readAgain_ne_nil {path : List BlockNames} {names : List String}
    (pieces : ∀ name ∈ names, IsPiece name) (filled : names ≠ []) :
    readAgain (written config path names) ≠ [] := by
  obtain ⟨name, rest, rfl⟩ := List.exists_cons_of_ne_nil filled
  obtain ⟨full, member, notEmpty⟩ : ∃ full ∈ expand config path name, full ≠ "" :=
    exists_filled usual (pieces name List.mem_cons_self).filled
  obtain ⟨part, isPart⟩ : ∃ part, part ∈ splitModifier "__" full := by
    rcases isWhole_or_split full with whole | ⟨block, tail, -, -, -, parts⟩
    · exact ⟨full, by rw [whole]; exact List.mem_singleton_self full⟩
    · exact ⟨_, by rw [parts]; exact List.mem_cons_self⟩
  have inside : part ∈ readAgain (written config path (name :: rest)) := by
    rw [readAgain, mem_unique, List.mem_flatMap]
    refine ⟨full, List.mem_filter.mpr ⟨?_, by simpa using notEmpty⟩, isPart⟩
    rw [written, mem_unique, List.flatMap_cons]
    exact List.mem_append_left _ member
  exact List.ne_nil_of_mem inside

omit usual in
/-- Something is written if something is read again. -/
theorem written_ne_nil {path : List BlockNames} {names : List String}
    (again : readAgain (written config path names) ≠ []) : written config path names ≠ [] := by
  intro empty
  rw [empty] at again
  exact again rfl

/-- The class names of an element stay when they are read and written again exactly if each of
them is settled. -/
theorem apply_again_iff {outer outerAgain : List BlockNames} (blocks : HasBlocks outer)
    (blocksAgain : HasBlocks outerAgain) {element named : Element}
    (isNamed : (apply config outer element).2 = named) :
    (apply config outerAgain named).2 = named ↔
      ∀ name ∈ (split config element).1.classNames,
        SettledName config ((split config element).1 :: outer)
          ((split config named).1 :: outerAgain) name := by
  have pieces : ∀ name ∈ (split config element).1.classNames, IsPiece name :=
    fun name => isPiece_of_split usual
  have isBlocks := hasBlocks_cons usual blocks element
  -- Without class names nothing is written, and an attribute that is there stays as it is.
  by_cases empty : (split config element).1.classNames = []
  · rw [apply_of_nil outer empty] at isNamed
    subst isNamed
    rw [apply_of_nil outerAgain empty, empty]
    simp
  · have hasClass := hasClass_of_classNames empty
    have isAgain : readAgain (written config ((split config element).1 :: outer)
        (split config element).1.classNames) ≠ [] := readAgain_ne_nil usual pieces empty
    have settles := join_written_iff usual pieces isBlocks
      (hasBlocks_cons usual blocksAgain named)
    have partsAgain : ∀ part ∈ readAgain (written config ((split config element).1 :: outer)
        (split config element).1.classNames), IsPiece part :=
      fun part => isPiece_of_mem_readAgain usual pieces isBlocks
    have blankless : ∀ name ∈ written config ((split config element).1 :: outer)
        (split config element).1.classNames, Text.IsBlankless name :=
      fun name => isBlankless_of_mem_written usual pieces isBlocks
    rw [apply_eq] at isNamed
    -- From here on only the list of full names matters, not how it was written.
    generalize written config ((split config element).1 :: outer)
      (split config element).1.classNames = full at *
    have filled : full ≠ [] := by
      rintro rfl
      exact isAgain rfl
    rw [putClasses_putClasses config filled] at isNamed
    dsimp only at isNamed
    have isRead : (split config named).1.classNames = readAgain full := by
      rw [← isNamed]
      exact classNames_putClasses usual filled blankless hasClass
    have filledAgain :
        written config ((split config named).1 :: outerAgain) (readAgain full) ≠ [] :=
      written_ne_nil (readAgain_ne_nil usual partsAgain isAgain)
    have replaced := putClasses_putClasses config filledAgain full element
    rw [isNamed] at replaced
    rw [← settles, ← putClasses_inj filledAgain filled hasClass, apply_eq, isRead]
    dsimp only
    rw [putClasses_putClasses config filledAgain, replaced, isNamed]

end

/-- The class names of an element as they are read. -/
def own (config : Config) (element : Element) : BlockNames :=
  (split config (mergeAttributes config element)).1

/-- The class names of an element as they are read again, after they were written. -/
def ownAgain (config : Config) (outer : List BlockNames) (element : Element) : BlockNames :=
  (split config (apply config outer (mergeAttributes config element)).2).1

/-- The class names of all elements are settled. The lists hold the names of the elements outside,
as they are read and as they are read again. -/
def Settled (config : Config) : List BlockNames → List BlockNames → List Node → Prop
  | _, _, [] => True
  | outer, outerAgain, .node element children :: rest =>
    let path := own config element :: outer
    let pathAgain := ownAgain config outer element :: outerAgain
    (∀ name ∈ (own config element).classNames, SettledName config path pathAgain name) ∧
      Settled config path pathAgain children ∧ Settled config outer outerAgain rest

end BlockNames

/-! ### Transforming again -/

/-- Block names are in use with the usual marks, and attributes keep their names and values. -/
structure NamesBlocks (config : Config) : Prop extends BlockNames.UsualMarks config where
  enabled : config.options.block.enabled
  dialect : config.dialect ≠ .xsl
  renames : ∀ key, config.options.markup.renames.get? key = none
  valuePrefixes : ∀ key, config.options.markup.valuePrefixes.get? key = none

/-- An element with the name that it gets inside of its ancestors. -/
def tagged (config : Config) (ancestors : List Ancestor) (element : Element) : Element :=
  if element.name.isNone && !element.attributes.isEmpty then giveTag config ancestors element
  else element

/-- An element that is no filler text. -/
def Element.IsPlain (element : Element) : Prop := element.name.bind Filler.request? = none

instance (element : Element) : Decidable element.IsPlain :=
  inferInstanceAs (Decidable (element.name.bind Filler.request? = none))

section

variable {config : Config} (names : NamesBlocks config)

include names

/-- Where blocks are named no attribute is renamed. -/
theorem NamesBlocks.renameAttributes (element : Element) :
    Markup.renameAttributes config element = element := by
  have same : ∀ candidate : Attribute,
      renameAttribute config.options.markup candidate = candidate := by
    intro candidate
    rw [renameAttribute]
    cases candidate.name with
    | none => rfl
    | some name => simp [names.renames, names.valuePrefixes]
  rw [Markup.renameAttributes, List.map_congr_left fun candidate _ => same candidate, List.map_id']

/-- An element that is no filler text gets a name, and its attributes are merged and get full
class names. -/
theorem NamesBlocks.transformElement {State : Type} (draws : Draws State)
    (ancestors : List Ancestor) (hasChildren : Bool) {element named : Element} {read : BlockNames}
    (plain : (tagged config ancestors element).IsPlain)
    (isNamed : BlockNames.apply config (ancestors.map Ancestor.names)
      (mergeAttributes config (tagged config ancestors element)) = (read, named))
    (state : State) :
    Markup.transformElement draws config ancestors hasChildren element state =
      (named, ⟨named.name, named.iteration, read⟩, state) := by
  have filled := Filler.apply_cases draws config ancestors
    (mergeAttributes config (tagged config ancestors element)) state
  have notFiller : ((mergeAttributes config (tagged config ancestors element)).name.bind
      Filler.request?) = none := plain
  rw [notFiller, Option.isSome_none, if_neg Bool.false_ne_true] at filled
  simp only [Markup.transformElement]
  simp only [tagged] at filled isNamed
  rw [filled]
  simp only [names.dialect, if_false, names.renameAttributes, nameBlocks, names.enabled, if_true,
    isNamed]

omit names in
/-- The name that an element gets is no filler's. -/
theorem tagged_isPlain (ancestors : List Ancestor) {element : Element} (plain : element.IsPlain) :
    (tagged config ancestors element).IsPlain := by
  rw [tagged]
  split
  · rw [Element.IsPlain, giveTag, Option.bind_some]
    exact (implicitTag_plain config ancestors).1
  · exact plain

omit names in
/-- Naming blocks leaves the name of an element. -/
theorem name_apply (outer : List BlockNames) (element : Element) :
    (BlockNames.apply config outer element).2.name = element.name := by
  have kept := BlockNames.apply_withName config outer element element.name
  exact congrArg (fun named => named.2.name) kept

omit names in
/-- An element without attributes gets none. -/
theorem attributes_apply_nil (outer : List BlockNames) {element : Element}
    (empty : element.attributes = []) :
    (BlockNames.apply config outer element).2.attributes = [] := by
  have put (names : List String) {element : Element} (empty : element.attributes = []) :
      (BlockNames.putClasses config names element).attributes = [] := by
    rw [BlockNames.putClasses]
    split
    · exact empty
    · rw [empty]
      rfl
  rw [BlockNames.apply_eq]
  dsimp only
  apply put
  apply put
  exact empty

omit names in
/-- An element that was transformed has a name, or it has no attributes. -/
theorem tagged_apply (outer : List BlockNames) (ancestors ancestorsAgain : List Ancestor)
    {element named : Element} (isNamed : (BlockNames.apply config outer
      (mergeAttributes config (tagged config ancestors element))).2 = named) :
    tagged config ancestorsAgain named = named := by
  have sameName : named.name = (tagged config ancestors element).name := by
    rw [← isNamed, name_apply]
    rfl
  have named_or_empty : (tagged config ancestors element).name ≠ none ∨
      element.attributes = [] ∧ tagged config ancestors element = element := by
    rw [tagged]
    split
    next => exact .inl (by simp [giveTag])
    next stays =>
      cases hasName : element.name with
      | some name => exact .inl (by simp)
      | none => exact .inr ⟨by simpa [hasName] using stays, rfl⟩
  rw [tagged, if_neg]
  rw [Bool.and_eq_true, not_and]
  intro nameless
  rw [Option.isNone_iff_eq_none, sameName] at nameless
  rcases named_or_empty with hasName | ⟨empty, same⟩
  · exact absurd nameless hasName
  · have emptyAgain : named.attributes = [] := by
      rw [← isNamed, same]
      apply attributes_apply_nil
      rw [mergeAttributes, empty]
      rfl
    simp [emptyAgain]

omit names in
/-- The attributes of an element that was transformed are merged. -/
theorem mergeAttributes_apply (outer : List BlockNames) {element named : Element}
    (isNamed : (BlockNames.apply config outer (mergeAttributes config element)).2 = named) :
    mergeAttributes config named = named := by
  apply mergeAttributes_of_nodup
  rw [← isNamed, BlockNames.apply_eq, BlockNames.keys_putClasses, BlockNames.keys_putClasses]
  exact nodup_keys_mergeAttributes config element

omit names in
/-- A tag name changes nothing about how attributes are merged. -/
theorem mergeAttributes_tagged (ancestors : List Ancestor) (element : Element) :
    mergeAttributes config (tagged config ancestors element) =
      { mergeAttributes config element with name := (tagged config ancestors element).name } := by
  rw [tagged]
  split <;> rfl

/-- An element that is transformed again stays exactly if its class names are settled. What the
elements inside of it have to know are the names as they are read each time. -/
theorem NamesBlocks.transformElement_again {State : Type} (draws : Draws State)
    {ancestors ancestorsAgain : List Ancestor} {outer outerAgain : List BlockNames}
    (isOuter : ancestors.map Ancestor.names = outer)
    (isOuterAgain : ancestorsAgain.map Ancestor.names = outerAgain)
    (blocks : BlockNames.HasBlocks outer) (blocksAgain : BlockNames.HasBlocks outerAgain)
    {element : Element} (plain : element.IsPlain) :
    ∃ named inside renamed insideAgain,
      (∀ hasChildren state,
        Markup.transformElement draws config ancestors hasChildren element state =
          (named, inside, state)) ∧
      (∀ hasChildren state,
        Markup.transformElement draws config ancestorsAgain hasChildren named state =
          (renamed, insideAgain, state)) ∧
      inside.names = BlockNames.own config element ∧
      insideAgain.names = BlockNames.ownAgain config outer element ∧
      (renamed = named ↔ ∀ name ∈ (BlockNames.own config element).classNames,
        BlockNames.SettledName config (BlockNames.own config element :: outer)
          (BlockNames.ownAgain config outer element :: outerAgain) name) := by
  have isPlain : (tagged config ancestors element).IsPlain := tagged_isPlain ancestors plain
  obtain ⟨named, isNamed⟩ : ∃ named, (BlockNames.apply config outer
      (mergeAttributes config (tagged config ancestors element))).2 = named := ⟨_, rfl⟩
  have isTagged := tagged_apply outer ancestors ancestorsAgain isNamed
  have isMerged := mergeAttributes_apply outer isNamed
  have plainAgain : (tagged config ancestorsAgain named).IsPlain := by
    rw [isTagged, Element.IsPlain, ← isNamed, name_apply]
    exact isPlain
  have read : (BlockNames.split config
      (mergeAttributes config (tagged config ancestors element))).1 =
        BlockNames.own config element := by
    rw [mergeAttributes_tagged, BlockNames.split_withName, BlockNames.own]
  have readAgain : (BlockNames.split config named).1 =
      BlockNames.ownAgain config outer element := by
    rw [← isNamed, mergeAttributes_tagged, BlockNames.apply_withName, BlockNames.split_withName,
      BlockNames.ownAgain]
  -- The tag name, the merging and the renaming of the second run change nothing, so that only the
  -- second naming of blocks is left to be compared.
  have settles := BlockNames.apply_again_iff names.toUsualMarks blocks blocksAgain isNamed
  rw [read, readAgain] at settles
  have first : BlockNames.apply config (ancestors.map Ancestor.names)
      (mergeAttributes config (tagged config ancestors element)) =
        (BlockNames.own config element, named) := by
    rw [isOuter]
    exact Prod.ext ((BlockNames.apply_fst outer _).trans read) isNamed
  obtain ⟨renamed, isRenamed⟩ : ∃ renamed, (BlockNames.apply config outerAgain named).2 = renamed :=
    ⟨_, rfl⟩
  have second : BlockNames.apply config (ancestorsAgain.map Ancestor.names)
      (mergeAttributes config (tagged config ancestorsAgain named)) =
        (BlockNames.ownAgain config outer element, renamed) := by
    rw [isTagged, isMerged, isOuterAgain]
    exact Prod.ext ((BlockNames.apply_fst outerAgain named).trans readAgain) isRenamed
  rw [isRenamed] at settles
  refine ⟨named, ⟨named.name, named.iteration, BlockNames.own config element⟩, renamed,
    ⟨renamed.name, renamed.iteration, BlockNames.ownAgain config outer element⟩, ?_, ?_, rfl, rfl,
    settles⟩
  · intro hasChildren state
    exact names.transformElement draws ancestors hasChildren isPlain first state
  · intro hasChildren state
    exact names.transformElement draws ancestorsAgain hasChildren plainAgain second state

/-- Transforming nodes a second time changes nothing exactly if all class names are settled. -/
theorem transform_again_iff {State : Type} (draws : Draws State) {nodes : List Node}
    (plain : ∀ element ∈ Node.elementsAll nodes, element.IsPlain) (state later : State) :
    (transform draws config (transform draws config nodes state).1 later).1 =
        (transform draws config nodes state).1 ↔
      BlockNames.Settled config [] [] nodes := by
  -- The second run finds other ancestors than the first, so that both lists are arbitrary in the
  -- induction.
  suffices general : ∀ ancestors ancestorsAgain : List Ancestor,
      BlockNames.HasBlocks (ancestors.map Ancestor.names) →
      BlockNames.HasBlocks (ancestorsAgain.map Ancestor.names) →
      ((transformNodes draws config ancestorsAgain
          (transformNodes draws config ancestors nodes state).1 later).1 =
          (transformNodes draws config ancestors nodes state).1 ↔
        BlockNames.Settled config (ancestors.map Ancestor.names)
          (ancestorsAgain.map Ancestor.names) nodes) from
    general [] [] (by simp [BlockNames.HasBlocks]) (by simp [BlockNames.HasBlocks])
  induction nodes using Node.forest_induction generalizing state later with
  | nil => simp [transformNodes, BlockNames.Settled]
  | cons element children rest ihChildren ihRest =>
    intro ancestors ancestorsAgain blocks blocksAgain
    rw [Node.elementsAll_cons, List.forall_mem_cons, List.forall_mem_append] at plain
    obtain ⟨own, below, behind⟩ := plain
    obtain ⟨named, inside, renamed, insideAgain, first, second, read, readAgain, settles⟩ :=
      names.transformElement_again draws rfl rfl blocks blocksAgain own
    have isBlocks : BlockNames.HasBlocks ((inside :: ancestors).map Ancestor.names) := by
      rw [List.map_cons, read]
      exact BlockNames.hasBlocks_cons names.toUsualMarks blocks (mergeAttributes config element)
    have isBlocksAgain : BlockNames.HasBlocks
        ((insideAgain :: ancestorsAgain).map Ancestor.names) := by
      rw [List.map_cons, readAgain]
      exact BlockNames.hasBlocks_cons names.toUsualMarks blocksAgain (BlockNames.apply config
        (ancestors.map Ancestor.names) (mergeAttributes config element)).2
    have children := ihChildren below state later (inside :: ancestors)
      (insideAgain :: ancestorsAgain) isBlocks isBlocksAgain
    rw [List.map_cons, List.map_cons, read, readAgain] at children
    rw [transformNodes_cons, first]
    dsimp only
    rw [transformNodes_cons, second]
    dsimp only
    rw [List.cons.injEq, Node.node.injEq, settles, children,
      ihRest behind _ _ _ _ blocks blocksAgain, and_assoc, BlockNames.Settled]

end

/-- A modifier whose block stands further out, next to an element of that block. The element is read
again as a block, and the modifier becomes one of the element. -/
theorem transform_again_changes :
    let config := Config.ofSettings
      { Settings.blank with
        adjust := fun options => { options with block := { options.block with enabled := true } } }
    let draws : Draws Unit := ⟨fun state => (0, state)⟩
    let classed (text : String) : Element :=
      { Element.named "div" with attributes := [.named "class" (some [.text text])] }
    let nodes := [Node.node (classed "p") [.node (classed "-e _m") []]]
    let once := (transform draws config nodes ()).1
    let twice := (transform draws config once ()).1
    NamesBlocks config ∧ (∀ element ∈ Node.elementsAll nodes, element.IsPlain) ∧
      (Node.elementsAll once).map (BlockNames.classText config) = ["p", "p__e p p_m"] ∧
      (Node.elementsAll twice).map (BlockNames.classText config) = ["p", "p__e p p__e_m"] ∧
      ¬BlockNames.Settled config [] [] nodes := by
  intro config draws classed nodes once twice
  have names : NamesBlocks config := by
    constructor
    case toUsualMarks => exact ⟨rfl, rfl, rfl⟩
    case enabled => rfl
    case dialect => decide
    case renames => exact fun key => rfl
    case valuePrefixes => exact fun key => rfl
  have plain : ∀ element ∈ Node.elementsAll nodes, element.IsPlain := by decide +kernel
  have first : (Node.elementsAll once).map (BlockNames.classText config) = ["p", "p__e p p_m"] := by
    decide +kernel
  have second : (Node.elementsAll twice).map (BlockNames.classText config) =
      ["p", "p__e p p__e_m"] := by
    decide +kernel
  refine ⟨names, plain, first, second, ?_⟩
  intro settled
  have same := (transform_again_iff names draws plain () ()).mpr settled
  rw [show twice = once from same, first] at second
  exact absurd second (by decide)

end Shorthand.Markup
