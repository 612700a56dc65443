import Mathlib.Data.List.Chain
import Shorthand.Markup.Transformation
import Shorthand.Proofs.Markup.Merging

/-!
# Glued values

Writers look at the next part of a value only, so a text has to be one part. Values grow at their
end, where a text is glued to the text that stands there. Every change of an element either keeps
its values, or builds new ones in this way.
-/

namespace Shorthand.Markup

/-! ### Values -/

namespace Value

/-- No text stands directly behind another one. -/
def IsGlued (value : Value) : Prop :=
  value.IsChain fun left right => left.isField = true ∨ right.isField = true

/-- In the empty value no texts stand side by side. -/
@[simp] theorem isGlued_nil : IsGlued [] := List.isChain_nil

/-- In a single part no texts stand side by side. -/
@[simp] theorem isGlued_singleton (part : Part) : IsGlued [part] := List.isChain_singleton part

/-- A part is put behind a value, or its text becomes one with the text at the end. -/
theorem push_cases (added : Part) (value : Value) :
    (value.push added = value ++ [added] ∧
      ∀ last ∈ value.getLast?, last.isField = true ∨ added.isField = true) ∨
    ∃ front last text, value = front ++ [.text last] ∧
      value.push added = front ++ [.text (last ++ text)] := by
  induction value with
  | nil => exact .inl ⟨rfl, by simp⟩
  | cons first rest ih =>
    cases rest with
    | nil =>
      cases first with
      | text last =>
        cases added with
        | text text => exact .inr ⟨[], last, text, rfl, rfl⟩
        | field index name => exact .inl ⟨rfl, by simp [Part.isField]⟩
      | field index name => exact .inl ⟨rfl, by simp [Part.isField]⟩
    | cons second rest =>
      have step : push added (first :: second :: rest) = first :: push added (second :: rest) := by
        cases first <;> rfl
      rw [step, List.getLast?_cons_cons]
      obtain ⟨pushed, apart⟩ | ⟨front, last, text, split, pushed⟩ := ih
      · exact .inl ⟨by rw [pushed]; rfl, apart⟩
      · exact .inr ⟨first :: front, last, text, by rw [split]; rfl, by rw [pushed]; rfl⟩

/-- A longer text at the end touches the same parts. -/
theorem IsGlued.replaceLast {front : Value} {last : String}
    (glued : IsGlued (front ++ [.text last])) (text : String) :
    IsGlued (front ++ [.text text]) := by
  obtain ⟨inFront, -, apart⟩ := List.isChain_append.mp glued
  refine inFront.append (List.isChain_singleton _) fun left isLast right isRight => ?_
  obtain rfl : Part.text text = right := by simpa using isRight
  exact apart left isLast (.text last) (by simp)

/-- A text that is pushed behind a text is put into it. -/
theorem IsGlued.push {value : Value} (glued : value.IsGlued) (added : Part) :
    (value.push added).IsGlued := by
  obtain ⟨pushed, apart⟩ | ⟨front, last, text, rfl, pushed⟩ := push_cases added value
  · rw [pushed]
    refine glued.append (List.isChain_singleton _) fun left isLast right isRight => ?_
    obtain rfl : added = right := by simpa using isRight
    exact apart left isLast
  · rw [pushed]
    exact glued.replaceLast _

/-- A field behind a value leaves texts apart. -/
theorem IsGlued.pushField {value : Value} (glued : value.IsGlued) (index : Nat) (name : String) :
    IsGlued (value ++ [.field index name]) :=
  glued.append (List.isChain_singleton _) fun _ _ right isRight => by
    obtain rfl : Part.field index name = right := by simpa using isRight
    exact .inr rfl

/-- Parts that are pushed one by one leave texts apart. -/
theorem IsGlued.pushAll {value : Value} (glued : value.IsGlued) (parts : List Part) :
    IsGlued (parts.foldl (fun value part => value.push part) value) :=
  List.foldlRecOn parts _ glued fun _ gluedBefore part _ => gluedBefore.push part

end Value

/-! ### Attributes and elements -/

/-- The value of an attribute, if it has one, is glued. -/
def Attribute.IsGlued (candidate : Attribute) : Prop := ∀ value ∈ candidate.value, value.IsGlued

/-- The text of an element and the values of its attributes are glued. -/
structure Element.IsGlued (element : Element) : Prop where
  text : element.value.IsGlued
  attributes : ∀ found ∈ element.attributes, found.IsGlued

/-- A value of one text is glued. -/
theorem Attribute.isGlued_text {candidate : Attribute} {text : String}
    (single : candidate.value = some [.text text]) : candidate.IsGlued := by
  intro value isValue
  obtain rfl : [.text text] = value := by simpa [single] using isValue
  exact Value.isGlued_singleton _

/-- A text that is pushed into an element is put into the text that ends it, if any. -/
theorem Element.IsGlued.pushText {element : Element} (glued : element.IsGlued) (text : String) :
    (element.pushText text).IsGlued := ⟨glued.text.push _, glued.attributes⟩

/-! ### Merging -/

/-- Two values are joined with a text between them. -/
theorem joinValues_isGlued {first second : Option Value}
    (gluedFirst : ∀ value ∈ first, value.IsGlued) (gluedSecond : ∀ value ∈ second, value.IsGlued) :
    ∀ value ∈ joinValues first second, value.IsGlued := by
  cases first with
  | none => exact gluedSecond
  | some front =>
    cases second with
    | none => exact gluedFirst
    | some behind =>
      intro value isJoined
      have glued := gluedFirst front rfl
      obtain rfl := Option.some.inj isJoined
      split
      case isTrue => exact glued.pushAll behind
      case isFalse => exact (glued.push (.text " ")).pushAll behind

/-- An attribute that takes in another one of its name keeps texts apart. -/
theorem Attribute.IsGlued.absorb {first next : Attribute} (glued : first.IsGlued)
    (gluedNext : next.IsGlued) (keepsFirst : Bool) (key : String) :
    (first.absorb keepsFirst key next).IsGlued := by
  rw [Attribute.absorb]
  split
  case isTrue => exact joinValues_isGlued glued gluedNext
  case isFalse =>
    cases keepsFirst with
    | false => exact gluedNext
    | true => exact glued

/-- An attribute that is merged into others keeps texts apart. -/
theorem mergeAttribute_isGlued (keepsFirst : Bool) {merged : List Attribute} {next : Attribute}
    (glued : ∀ found ∈ merged, found.IsGlued) (gluedNext : next.IsGlued) :
    ∀ found ∈ mergeAttribute keepsFirst merged next, found.IsGlued := by
  cases named : next.key? with
  | none =>
    have nameless : next.name = none := by simpa [Attribute.key?] using named
    rw [mergeAttribute, nameless]
    exact List.forall_mem_append.mpr ⟨glued, List.forall_mem_singleton.mpr gluedNext⟩
  | some key =>
    induction merged with
    | nil =>
      obtain ⟨name, isName, -⟩ := Option.map_eq_some_iff.mp named
      simpa [mergeAttribute, isName, updateFirst?] using gluedNext
    | cons first rest ih =>
      obtain ⟨gluedFirst, gluedRest⟩ := List.forall_mem_cons.mp glued
      rw [mergeAttribute_cons named]
      split
      case isTrue =>
        exact List.forall_mem_cons.mpr ⟨gluedFirst.absorb gluedNext keepsFirst key, gluedRest⟩
      case isFalse => exact List.forall_mem_cons.mpr ⟨gluedFirst, ih gluedRest⟩

/-- Merging the attributes of an element keeps texts apart. -/
theorem Element.IsGlued.mergeAttributes {element : Element} (glued : element.IsGlued)
    (config : Config) : (mergeAttributes config element).IsGlued where
  text := glued.text
  attributes := by
    refine List.foldlRecOn (motive := fun merged => ∀ found ∈ merged, Attribute.IsGlued found)
      element.attributes _ (List.forall_mem_nil _) fun merged gluedMerged next isNext => ?_
    exact mergeAttribute_isGlued _ gluedMerged (glued.attributes next isNext)

/-! ### Renaming, filling and naming blocks -/

/-- Renaming keeps a value or puts an expression in front of it. -/
theorem value_renameAttribute (options : MarkupOptions) (candidate : Attribute) :
    (renameAttribute options candidate).value = candidate.value ∨
      ∃ expression value, candidate.value = some value ∧
        (renameAttribute options candidate).value = some (prefixValue expression value) := by
  cases named : candidate.name with
  | none => exact .inl (by simp [renameAttribute, named])
  | some name =>
    simp only [renameAttribute, named]
    cases options.valuePrefixes.get? (candidate.optionKey name) with
    | none => exact .inl (by split <;> rfl)
    | some expression =>
      cases valued : candidate.value with
      | none => exact .inl (by split <;> exact valued)
      | some value => exact .inr ⟨expression, value, rfl, by split <;> rfl⟩

/-- Another name leaves the value of an attribute as it is. -/
theorem Attribute.IsGlued.rename {candidate : Attribute} (glued : candidate.IsGlued)
    (options : MarkupOptions) : (renameAttribute options candidate).IsGlued := by
  intro value isValue
  obtain kept | ⟨expression, written, isWritten, pushed⟩ := value_renameAttribute options candidate
  · exact glued value (kept ▸ isValue)
  · obtain rfl : prefixValue expression written = value := by simpa [pushed] using isValue
    exact (Value.isGlued_singleton _).pushAll written

/-- Renaming the attributes of an element keeps texts apart. -/
theorem Element.IsGlued.renameAttributes {element : Element} (glued : element.IsGlued)
    (config : Config) : (renameAttributes config element).IsGlued where
  text := glued.text
  attributes := by
    intro found isFound
    obtain ⟨candidate, isCandidate, rfl⟩ := List.mem_map.mp isFound
    exact (glued.attributes candidate isCandidate).rename config.options.markup

/-- Dropping an attribute keeps texts apart. -/
theorem Element.IsGlued.dropSelection {element : Element} (glued : element.IsGlued)
    (hasChildren : Bool) : (dropSelection hasChildren element).IsGlued := by
  rw [Markup.dropSelection]
  split
  case isTrue =>
    exact ⟨glued.text, fun found isFound => glued.attributes found (List.mem_of_mem_filter isFound)⟩
  case isFalse => exact glued

/-- An implied tag name leaves all values as they are. -/
theorem Element.IsGlued.giveTag {element : Element} (glued : element.IsGlued) (config : Config)
    (ancestors : List Ancestor) : (giveTag config ancestors element).IsGlued :=
  ⟨glued.text, glued.attributes⟩

/-- A filler has one text and no attributes. -/
theorem Element.IsGlued.fill {State : Type} (draws : Draws State) {element : Element}
    (glued : element.IsGlued) (config : Config) (ancestors : List Ancestor) (state : State) :
    (Filler.apply draws config ancestors element state).1.IsGlued := by
  rw [Filler.apply]
  split
  case h_1 => exact glued
  case h_2 request _ =>
    have filled (text : String) :
        Element.IsGlued { element with name := none, value := [.text text], attributes := [] } :=
      ⟨Value.isGlued_singleton _, List.forall_mem_nil _⟩
    dsimp only
    split
    case isTrue => exact (filled _).giveTag config ancestors
    case isFalse => exact filled _

/-- Class names are put into a value of one text. -/
theorem Element.IsGlued.putClasses {element : Element} (glued : element.IsGlued) (config : Config)
    (names : List String) : (BlockNames.putClasses config names element).IsGlued := by
  rw [BlockNames.putClasses]
  split
  case isTrue => exact glued
  case isFalse =>
    refine ⟨glued.text, BlockNames.forall_changeFirst (fun found _ => ?_) glued.attributes⟩
    exact Attribute.isGlued_text rfl

/-- Naming blocks changes class attributes alone. -/
theorem Element.IsGlued.nameBlocks {element : Element} (glued : element.IsGlued) (config : Config)
    (ancestors : List Ancestor) : (nameBlocks config ancestors element).2.IsGlued := by
  rw [Markup.nameBlocks]
  split
  case isTrue =>
    simp only [BlockNames.apply, BlockNames.split]
    exact (glued.putClasses config _).putClasses config _
  case isFalse => exact glued

/-- Transforming an element keeps its values glued. -/
theorem Element.IsGlued.transformElement {State : Type} (draws : Draws State) {element : Element}
    (glued : element.IsGlued) (config : Config) (ancestors : List Ancestor) (hasChildren : Bool)
    (state : State) :
    (transformElement draws config ancestors hasChildren element state).1.IsGlued := by
  have selected {filled : Element} (gluedFilled : filled.IsGlued) :
      (if config.dialect = .xsl then Markup.dropSelection hasChildren filled
        else filled).IsGlued := by
    split
    case isTrue => exact gluedFilled.dropSelection hasChildren
    case isFalse => exact gluedFilled
  have tagged : (if element.name.isNone && !element.attributes.isEmpty then
      Markup.giveTag config ancestors element else element).IsGlued := by
    split
    case isTrue => exact glued.giveTag config ancestors
    case isFalse => exact glued
  have filled := (tagged.mergeAttributes config).fill draws config ancestors state
  simp only [Markup.transformElement]
  exact ((selected filled).renameAttributes config).nameBlocks config ancestors

/-! ### Wrapping and inheriting -/

/-- Changing an attribute by its name changes the first one that has it. -/
theorem attributes_updateAttribute (element : Element) (name : String)
    (change : Attribute → Attribute) :
    (element.updateAttribute name change).attributes =
      BlockNames.changeFirst (Attribute.isNamed name) change element.attributes := by
  have update (attributes : List Attribute) :
      Element.updateAttribute.update name change attributes =
        BlockNames.changeFirst (Attribute.isNamed name) change attributes := by
    induction attributes with
    | nil => rfl
    | cons first rest ih => rw [Element.updateAttribute.update, BlockNames.changeFirst, ih]
  exact update element.attributes

/-- A link that a text is wrapped with has one text as its target, or the one that is written. -/
theorem Element.IsGlued.linkTo {element : Element} (glued : element.IsGlued) (text : String) :
    (linkTo text element).IsGlued := by
  rw [Markup.linkTo]
  split
  case h_1 found _ =>
    refine ⟨glued.text, ?_⟩
    rw [attributes_updateAttribute]
    refine BlockNames.forall_changeFirst (fun found gluedFound => ?_) glued.attributes
    split
    case isTrue => exact Attribute.isGlued_text rfl
    case isFalse => exact gluedFound
  case h_2 =>
    refine ⟨glued.text, List.forall_mem_append.mpr ⟨glued.attributes, ?_⟩⟩
    exact List.forall_mem_singleton.mpr (Attribute.isGlued_text rfl)

/-- Wrapped text is pushed into an element, and into its link. -/
theorem Element.IsGlued.wrapText {element : Element} (glued : element.IsGlued)
    (options : ReadOptions) (text : String) : (wrapText options text element).IsGlued := by
  rw [Markup.wrapText]
  split
  case isTrue => exact (glued.pushText text).linkTo text
  case isFalse => exact glued.pushText text

/-- The nodes of a snippet get their values from the caller or keep them. -/
theorem Element.IsGlued.inherit {caller own : Element} (gluedCaller : caller.IsGlued)
    (gluedOwn : own.IsGlued) (reversed : Bool) : (inherit reversed caller own).IsGlued where
  text := by
    rw [Markup.inherit]
    dsimp only
    split
    case isTrue => exact gluedOwn.text
    case isFalse => exact gluedCaller.text
  attributes := by
    intro found isFound
    have among : found ∈ caller.attributes ∨ found ∈ own.attributes := by
      cases reversed <;> simpa [Markup.inherit, or_comm] using isFound
    exact among.elim (gluedCaller.attributes found) (gluedOwn.attributes found)

end Shorthand.Markup
