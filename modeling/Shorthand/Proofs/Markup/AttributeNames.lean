import Mathlib.Data.List.Nodup
import Mathlib.Data.List.Pairwise
import Shorthand.Markup.Transformation
import Shorthand.Proofs.Markup.Merging
import Shorthand.Proofs.Markup.Preorder

/-!
# Names of transformed attributes

Merging leaves one attribute of each name, ignoring case. Filler text and block names add none,
so only the names of the dialect can make two names equal again.
-/

namespace Shorthand.Markup

/-- The nodes of some trees in preorder. -/
def Node.withinAll : List Node → List Node
  | [] => []
  | .node element children :: rest =>
    .node element children :: (withinAll children ++ withinAll rest)

/-! ### Steps that keep names -/

/-- A change that keeps what is looked at does not show. -/
theorem BlockNames.filterMap_changeFirst {α β : Type} {test : α → Bool} {change : α → α}
    {view : α → Option β} (keeps : ∀ item, view (change item) = view item) (items : List α) :
    (changeFirst test change items).filterMap view = items.filterMap view := by
  induction items with
  | nil => rfl
  | cons first rest ih =>
    rw [changeFirst]
    split
    · rw [List.filterMap_cons, List.filterMap_cons, keeps]
    · rw [List.filterMap_cons, List.filterMap_cons, ih]

/-- Writing class names changes no name of an attribute. -/
theorem BlockNames.keys_putClasses (config : Config) (names : List String) (element : Element) :
    (putClasses config names element).keys = element.keys := by
  rw [putClasses]
  split
  · rfl
  · have keeps (found : Attribute) : Attribute.key?
        { found with value := some [.text (Text.join " " names)] } = found.key? := rfl
    exact filterMap_changeFirst keeps element.attributes

/-- Naming blocks leaves the keys of an element. -/
theorem keys_nameBlocks (config : Config) (ancestors : List Ancestor) (element : Element) :
    (nameBlocks config ancestors element).2.keys = element.keys := by
  rw [nameBlocks]
  split
  · rw [BlockNames.apply, BlockNames.split, BlockNames.keys_putClasses, BlockNames.keys_putClasses]
  · rfl

/-- The name of a variable or of a parameter of a transformation. -/
def bindsValue (name : String) : Bool :=
  ["xsl:variable", "xsl:with-param"].contains (LetterCase.lower name)

/-- The names that elements get from their parents are those of no fillers and bind no values. -/
theorem implicitTag_plain (config : Config) (ancestors : List Ancestor) :
    Filler.request? (implicitTag config ancestors) = none ∧
      bindsValue (implicitTag config ancestors) = false := by
  have plain :
      ∀ tag ∈ ["span", "li", "tr", "td", "col", "option", "source", "param", "area", "div"],
        Filler.request? tag = none ∧ bindsValue tag = false := by decide +kernel
  apply plain
  rw [implicitTag]
  generalize (ancestors.findSome? Ancestor.name <|>
    config.surroundings.map Surroundings.name).getD "" = parent
  rw [tagInside]
  repeat' split
  all_goals simp

/-- The attributes of an element that get the names of the dialect. -/
def attributesToRename (config : Config) : Node → List Attribute
  | .node element children =>
    let merged := mergeAttributes config element
    if (element.name.bind Filler.request?).isSome then []
    else if config.dialect = .xsl then (dropSelection (!children.isEmpty) merged).attributes
    else merged.attributes

/-- A filler loses its attributes, and other elements stay. -/
theorem Filler.apply_cases {State : Type} (draws : Draws State) (config : Config)
    (ancestors : List Ancestor) (element : Element) (state : State) :
    if (element.name.bind request?).isSome then
      (apply draws config ancestors element state).1.attributes = []
    else apply draws config ancestors element state = (element, state) := by
  rw [apply]
  cases asked : element.name.bind request? with
  | none => rfl
  | some request =>
    rw [Option.isSome_some, if_pos rfl]
    dsimp only
    split <;> rfl

/-- An element without attributes has none after any step. -/
theorem attributes_dropSelection_nil (hasChildren : Bool) {element : Element}
    (empty : element.attributes = []) : (dropSelection hasChildren element).attributes = [] := by
  rw [dropSelection]
  split
  · simp [empty]
  · exact empty

/-- An element whose name binds no value keeps its selection. -/
theorem dropSelection_of_free (hasChildren : Bool) {element : Element}
    (free : element.name.any bindsValue = false) : dropSelection hasChildren element = element := by
  have unbound : (element.name.any fun name =>
      ["xsl:variable", "xsl:with-param"].contains (LetterCase.lower name)) = false := free
  simp only [dropSelection, unbound, Bool.false_and, Bool.false_eq_true, if_false]

/-- The name that an element gets does not matter for its attributes. -/
theorem attributesToRename_giveTag (config : Config) (ancestors : List Ancestor)
    {element : Element} (nameless : element.name = none) (children : List Node) :
    attributesToRename config (.node (giveTag config ancestors element) children) =
      attributesToRename config (.node element children) := by
  obtain ⟨plain, free⟩ := implicitTag_plain config ancestors
  have kept := dropSelection_of_free (!children.isEmpty)
    (show (mergeAttributes config element).name.any bindsValue = false by
      rw [mergeAttributes, nameless, Option.any_none])
  have keptTagged := dropSelection_of_free (!children.isEmpty)
    (show (mergeAttributes config (giveTag config ancestors element)).name.any bindsValue = false by
      rw [mergeAttributes, giveTag, Option.any_some, free])
  rw [attributesToRename, attributesToRename, kept, keptTagged, giveTag, nameless]
  simp [plain, mergeAttributes]

/-- The attributes of an element with its name, when they are renamed. -/
theorem attributes_filled {State : Type} (draws : Draws State) (config : Config)
    (ancestors : List Ancestor) (element : Element) (children : List Node) (state : State) :
    let filled := (Filler.apply draws config ancestors (mergeAttributes config element) state).1
    (if config.dialect = .xsl then dropSelection (!children.isEmpty) filled
      else filled).attributes = attributesToRename config (.node element children) := by
  intro filled
  have cases := Filler.apply_cases draws config ancestors (mergeAttributes config element) state
  rw [attributesToRename]
  by_cases isFiller : (element.name.bind Filler.request?).isSome
  · have emptied : filled.attributes = [] := by
      rwa [if_pos (show ((mergeAttributes config element).name.bind Filler.request?).isSome from
        isFiller)] at cases
    rw [if_pos isFiller]
    split
    · exact attributes_dropSelection_nil _ emptied
    · exact emptied
  · have same : filled = mergeAttributes config element := by
      rw [if_neg (show ¬((mergeAttributes config element).name.bind Filler.request?).isSome from
        isFiller)] at cases
      exact congrArg Prod.fst cases
    rw [if_neg isFiller, same]
    split <;> rfl

/-- What is left of the attributes of an element is renamed, and nothing else happens to their
names. -/
theorem keys_transformElement {State : Type} (draws : Draws State) (config : Config)
    (ancestors : List Ancestor) (element : Element) (children : List Node) (state : State) :
    (transformElement draws config ancestors (!children.isEmpty) element state).1.keys =
      ((attributesToRename config (.node element children)).map
        (renameAttribute config.options.markup)).filterMap Attribute.key? := by
  simp only [transformElement, keys_nameBlocks]
  simp only [Element.keys, renameAttributes]
  congr 2
  refine (attributes_filled draws config ancestors _ children state).trans ?_
  by_cases nameless : (element.name.isNone && !element.attributes.isEmpty) = true
  · rw [if_pos nameless]
    rw [Bool.and_eq_true, Option.isNone_iff_eq_none] at nameless
    exact attributesToRename_giveTag config ancestors nameless.1 children
  · rw [if_neg nameless]

/-! ### Names after renaming -/

/-- A renamed attribute has a name if it had one. -/
theorem key?_renameAttribute_eq_none (options : MarkupOptions) (candidate : Attribute) :
    (renameAttribute options candidate).key? = none ↔ candidate.key? = none := by
  cases named : candidate.name with
  | none => simp [renameAttribute, named]
  | some name =>
    simp only [renameAttribute, named, Attribute.key?, Option.map_eq_none_iff]
    cases options.renames.get? (candidate.optionKey name) with
    | some renamed => simp
    | none =>
      dsimp only
      split
      · simp
      · simp [named]

/-- Renaming does not make different names equal. -/
def StaysApart (options : MarkupOptions) (first second : Attribute) : Prop :=
  (renameAttribute options first).key? = (renameAttribute options second).key? →
    first.key? = second.key?

instance (options : MarkupOptions) : Std.Symm (StaysApart options) where
  symm _ _ apart same := (apart same.symm).symm

/-- Different names are different after renaming exactly if each two of them stay apart. -/
theorem nodup_keys_renamed_iff (options : MarkupOptions) {attributes : List Attribute}
    (distinct : (attributes.filterMap Attribute.key?).Nodup) :
    ((attributes.map (renameAttribute options)).filterMap Attribute.key?).Nodup ↔
      ∀ first ∈ attributes, ∀ second ∈ attributes, StaysApart options first second := by
  rw [List.Nodup, List.pairwise_filterMap] at distinct ⊢
  rw [List.pairwise_map]
  constructor
  · intro renamed
    have apart : attributes.Pairwise (StaysApart options) := by
      apply renamed.imp
      intro first second different same
      cases key : (renameAttribute options first).key? with
      | none =>
        rw [key] at same
        rw [(key?_renameAttribute_eq_none options first).mp key,
          (key?_renameAttribute_eq_none options second).mp same.symm]
      | some name => exact absurd rfl (different name key name (same.symm.trans key))
    exact apart.forall_of_forall fun _ _ _ => rfl
  · intro apart
    apply distinct.imp_of_mem
    rintro first second isFirst isSecond different name isName _ isSame rfl
    cases key : first.key? with
    | none =>
      rw [(key?_renameAttribute_eq_none options first).mpr key] at isName
      cases isName
    | some own =>
      have same := apart first isFirst second isSecond (isName.trans isSame.symm)
      exact different own key own (same.symm.trans key) rfl

/-! ### Whole trees -/

/-- The attributes that get the names of the dialect have different names before. -/
theorem nodup_keys_attributesToRename (config : Config) (node : Node) :
    ((attributesToRename config node).filterMap Attribute.key?).Nodup := by
  obtain ⟨element, children⟩ := node
  have distinct := nodup_keys_mergeAttributes config element
  rw [attributesToRename]
  split
  · exact List.nodup_nil
  · split
    · rw [dropSelection]
      split
      · exact distinct.sublist (List.filter_sublist.filterMap _)
      · exact distinct
    · exact distinct

/-- An element is transformed before those inside of it, and these before what follows. -/
theorem transformNodes_cons {State : Type} (draws : Draws State) (config : Config)
    (ancestors : List Ancestor) (element : Element) (children rest : List Node) (state : State) :
    let changed := transformElement draws config ancestors (!children.isEmpty) element state
    let inner := transformNodes draws config (changed.2.1 :: ancestors) children changed.2.2
    let others := transformNodes draws config ancestors rest inner.2
    transformNodes draws config ancestors (.node element children :: rest) state =
      (.node changed.1 inner.1 :: others.1, others.2) := by
  rw [transformNodes, transformNode]

/-- After transforming, the names of the attributes of every element are different in lower case
exactly if the names of the dialect make no two different names of an element equal. -/
theorem nodup_keys_transform_iff {State : Type} (draws : Draws State) (config : Config)
    (nodes : List Node) (state : State) :
    (∀ element ∈ Node.elementsAll (transform draws config nodes state).1, element.keys.Nodup) ↔
      ∀ node ∈ Node.withinAll nodes, ∀ first ∈ attributesToRename config node,
        ∀ second ∈ attributesToRename config node,
          StaysApart config.options.markup first second := by
  rw [transform]
  generalize ([] : List Ancestor) = ancestors
  induction nodes using Node.forest_induction generalizing ancestors state with
  | nil => simp [transformNodes, Node.withinAll]
  | cons element children rest ihChildren ihRest =>
    have own :
        (transformElement draws config ancestors (!children.isEmpty) element state).1.keys.Nodup ↔
          ∀ first ∈ attributesToRename config (.node element children),
            ∀ second ∈ attributesToRename config (.node element children),
              StaysApart config.options.markup first second := by
      rw [keys_transformElement, nodup_keys_renamed_iff _ (nodup_keys_attributesToRename config _)]
    rw [transformNodes_cons, Node.elementsAll_cons, Node.withinAll]
    simp only [List.forall_mem_cons, List.forall_mem_append, ihChildren, ihRest, own]

/-- The name of one attribute can become that of another one. -/
example (draws : Draws Unit) :
    let config := Config.ofSettings { Settings.blank with dialect := some "jsx" }
    let attributes :=
      [Attribute.named "for" (some [.text "a"]), .named "htmlFor" (some [.text "b"])]
    let label : Element := { Element.named "label" with attributes }
    (Node.elementsAll (transform draws config [.node label []] ()).1).map Element.keys =
      [["htmlfor", "htmlfor"]] := by
  with_unfolding_all rfl

end Shorthand.Markup
