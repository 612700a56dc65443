import Mathlib.Data.List.Nodup
import Shorthand.Markup.Attributes

/-!
# Merging attributes key by key

Attributes of different keys do not meet when they are merged: those of one key are combined as
if they stood alone. So of a key other than `class` one value is left, the last one, or the
first one if values are kept.
-/

namespace Shorthand.Markup

/-- The name of an attribute in lower case. -/
def Attribute.key? (candidate : Attribute) : Option String := candidate.name.map LetterCase.lower

/-- The names of the attributes of an element in lower case. -/
def Element.keys (element : Element) : List String := element.attributes.filterMap Attribute.key?

/-- The values that the attributes of a key have, in the order of the attributes. -/
def Element.valuesOf (key : String) (element : Element) : List (Option Value) :=
  (element.attributes.filter (Attribute.hasKey key)).map Attribute.value

/-- Add to an attribute another one of its key. -/
def Attribute.absorb (keepsFirst : Bool) (key : String) (first next : Attribute) : Attribute :=
  if key = "class" then first.addClass next else first.override keepsFirst next

/-- Add to the attributes of a key another one. -/
def takeUp (keepsFirst : Bool) (key : String) : List Attribute → Attribute → List Attribute
  | [], next => [next]
  | first :: rest, next => first.absorb keepsFirst key next :: rest

/-- An attribute has a key if its name in lower case is that key. -/
theorem Attribute.hasKey_iff {key : String} {candidate : Attribute} :
    candidate.hasKey key = true ↔ candidate.key? = some key := by
  simp [hasKey, key?, Option.any_eq_true, Option.map_eq_some_iff]

/-- The keys of an element are those that some attribute has. -/
theorem Element.mem_keys {key : String} {element : Element} :
    key ∈ element.keys ↔ element.attributes.filter (Attribute.hasKey key) ≠ [] := by
  simp [keys, List.mem_filterMap, Attribute.hasKey_iff]

/-- An attribute that absorbs another one of its key has that key. -/
theorem Attribute.key?_absorb {keepsFirst : Bool} {key : String} {first next : Attribute}
    (same : first.key? = next.key?) : (first.absorb keepsFirst key next).key? = next.key? := by
  rw [absorb]
  split
  case isTrue => exact same
  case isFalse => rfl

/-- The first attribute of the key of `next` absorbs it; if there is none, it is put at the end. -/
theorem mergeAttribute_cons {keepsFirst : Bool} {next : Attribute} {key : String}
    (named : next.key? = some key) (first : Attribute) (rest : List Attribute) :
    mergeAttribute keepsFirst (first :: rest) next =
      if first.hasKey key then first.absorb keepsFirst key next :: rest
      else first :: mergeAttribute keepsFirst rest next := by
  obtain ⟨name, isName, rfl⟩ := Option.map_eq_some_iff.mp named
  simp only [mergeAttribute, isName, updateFirst?, Attribute.absorb]
  split
  case isTrue => rfl
  case isFalse =>
    cases updateFirst? _ _ rest <;> rfl

/-- Merging one more attribute changes the attributes of its key only. -/
theorem filter_mergeAttribute (keepsFirst : Bool) (key : String) (merged : List Attribute)
    (next : Attribute) :
    (mergeAttribute keepsFirst merged next).filter (Attribute.hasKey key) =
      if next.hasKey key then takeUp keepsFirst key (merged.filter (Attribute.hasKey key)) next
      else merged.filter (Attribute.hasKey key) := by
  cases named : next.key? with
  | none =>
    have nameless : next.name = none := by simpa [Attribute.key?] using named
    simp [mergeAttribute, nameless, Attribute.hasKey]
  | some own =>
    induction merged with
    | nil =>
      obtain ⟨name, isName, -⟩ := Option.map_eq_some_iff.mp named
      simp [mergeAttribute, isName, updateFirst?, List.filter_cons, takeUp]
    | cons first rest ih =>
      rw [mergeAttribute_cons named]
      by_cases same : first.key? = some own
      · have absorbed : (first.absorb keepsFirst own next).key? = some own :=
          (Attribute.key?_absorb (same.trans named.symm)).trans named
        by_cases ofKey : own = key
        · subst ofKey
          simp [Attribute.hasKey_iff, same, named, absorbed, takeUp]
        · simp [Attribute.hasKey_iff, same, named, absorbed, ofKey]
      · rw [if_neg (mt Attribute.hasKey_iff.mp same), List.filter_cons, List.filter_cons, ih]
        by_cases ofKey : own = key
        · subst ofKey
          simp [Attribute.hasKey_iff, same]
        · simp [Attribute.hasKey_iff, named, ofKey]

/-- The attributes of a key are merged as if there were no others. -/
theorem filter_merged (keepsFirst : Bool) (key : String) (attributes merged : List Attribute) :
    (attributes.foldl (mergeAttribute keepsFirst) merged).filter (Attribute.hasKey key) =
      (attributes.filter (Attribute.hasKey key)).foldl (takeUp keepsFirst key)
        (merged.filter (Attribute.hasKey key)) := by
  induction attributes generalizing merged with
  | nil => rfl
  | cons next rest ih =>
    rw [List.foldl_cons, ih, filter_mergeAttribute, List.filter_cons]
    split <;> rfl

/-- One attribute is left of those of a key. -/
theorem foldl_takeUp_cons (keepsFirst : Bool) (key : String) (first : Attribute)
    (others rest : List Attribute) :
    rest.foldl (takeUp keepsFirst key) (first :: others) =
      rest.foldl (Attribute.absorb keepsFirst key) first :: others := by
  induction rest generalizing first with
  | nil => rfl
  | cons next rest ih => exact ih _

/-- Of a key other than `class` the last value is left, or the first one if values are kept. -/
theorem value_foldl_absorb {key : String} (plain : key ≠ "class") (keepsFirst : Bool)
    (first : Attribute) (rest : List Attribute) :
    some (rest.foldl (Attribute.absorb keepsFirst key) first).value =
      if keepsFirst then some first.value
      else (first.value :: rest.map Attribute.value).getLast? := by
  induction rest generalizing first with
  | nil => simp
  | cons next rest ih =>
    have absorbed : (first.absorb keepsFirst key next).value =
        if keepsFirst then first.value else next.value := by
      rw [Attribute.absorb, if_neg plain, Attribute.override]
    rw [List.foldl_cons, ih, absorbed]
    cases keepsFirst with
    | false => rw [List.map_cons, List.getLast?_cons_cons]; rfl
    | true => rfl

/-- Every key that an attribute has is the key of a merged attribute, and no others are. -/
theorem mem_keys_mergeAttributes (config : Config) (element : Element) (key : String) :
    key ∈ (mergeAttributes config element).keys ↔ key ∈ element.keys := by
  rw [Element.mem_keys, Element.mem_keys, mergeAttributes, filter_merged]
  cases element.attributes.filter (Attribute.hasKey key) with
  | nil => simp
  | cons first rest => simp [foldl_takeUp_cons, takeUp]

/-- Of the values of a key other than `class` the last one is left, or the first one if
attributes are reversed. -/
theorem valuesOf_mergeAttributes (config : Config) (element : Element) {key : String}
    (plain : key ≠ "class") :
    (mergeAttributes config element).valuesOf key =
      (if config.options.output.reverseAttributes then (element.valuesOf key).head?
        else (element.valuesOf key).getLast?).toList := by
  rw [Element.valuesOf, Element.valuesOf, mergeAttributes, filter_merged]
  cases element.attributes.filter (Attribute.hasKey key) with
  | nil => simp
  | cons first rest =>
    rw [List.foldl_cons, List.filter_nil, takeUp, foldl_takeUp_cons]
    rw [List.map_cons, List.map_cons, List.head?_cons, ← value_foldl_absorb plain]
    rfl

/-! ### Attributes of different names -/

/-- Merged attributes have different names. -/
theorem nodup_keys_mergeAttributes (config : Config) (element : Element) :
    (mergeAttributes config element).keys.Nodup := by
  rw [List.nodup_iff_count_le_one]
  intro key
  have counted : (mergeAttributes config element).keys.count key =
      ((mergeAttributes config element).attributes.filter (Attribute.hasKey key)).length := by
    rw [Element.keys, List.count_filterMap, List.countP_eq_length_filter]
    congr 2
    funext candidate
    rw [Bool.eq_iff_iff, Attribute.hasKey_iff]
    simp
  rw [counted, mergeAttributes, filter_merged]
  cases element.attributes.filter (Attribute.hasKey key) with
  | nil => simp
  | cons first rest => simp [takeUp, foldl_takeUp_cons]

/-- An attribute of a new name is put at the end. -/
theorem mergeAttribute_of_new {keepsFirst : Bool} {merged : List Attribute} {next : Attribute}
    (isNew : ∀ key, next.key? = some key → key ∉ merged.filterMap Attribute.key?) :
    mergeAttribute keepsFirst merged next = merged ++ [next] := by
  cases named : next.key? with
  | none =>
    have nameless : next.name = none := by simpa [Attribute.key?] using named
    rw [mergeAttribute, nameless]
  | some key =>
    have absent := isNew key named
    clear isNew
    induction merged with
    | nil =>
      obtain ⟨name, isName, -⟩ := Option.map_eq_some_iff.mp named
      simp [mergeAttribute, isName, updateFirst?]
    | cons first rest ih =>
      have other : first.hasKey key = false := by
        rw [← Bool.not_eq_true, Attribute.hasKey_iff]
        intro same
        exact absent (List.mem_filterMap.mpr ⟨first, List.mem_cons_self, same⟩)
      rw [mergeAttribute_cons named, other, if_neg Bool.false_ne_true, ih, List.cons_append]
      intro inside
      obtain ⟨found, member, isKey⟩ := List.mem_filterMap.mp inside
      exact absent (List.mem_filterMap.mpr ⟨found, List.mem_cons_of_mem _ member, isKey⟩)

/-- Attributes of different names are merged already. -/
theorem mergeAttributes_of_nodup (config : Config) {element : Element}
    (distinct : element.keys.Nodup) : mergeAttributes config element = element := by
  have merged : ∀ front behind : List Attribute,
      ((front ++ behind).filterMap Attribute.key?).Nodup →
      behind.foldl (mergeAttribute config.options.output.reverseAttributes) front =
        front ++ behind := by
    intro front behind
    induction behind generalizing front with
    | nil => simp
    | cons next rest ih =>
      intro distinct
      have isNew : ∀ key, next.key? = some key → key ∉ front.filterMap Attribute.key? := by
        intro key named inside
        rw [List.filterMap_append, List.filterMap_cons_some named, List.nodup_append] at distinct
        exact distinct.2.2 key inside key List.mem_cons_self rfl
      rw [List.foldl_cons, mergeAttribute_of_new isNew, ih]
      · simp
      · simpa using distinct
  rw [mergeAttributes, merged [] element.attributes distinct, List.nil_append]

end Shorthand.Markup
