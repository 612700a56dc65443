import Mathlib.Data.List.Forall2
import Mathlib.Data.List.Induction
import Shorthand.Proofs.Markup.Merging
import Shorthand.Proofs.Text.Words

/-!
# One attribute for all occurrences of a name

Merging leaves one attribute of each name, where the name occurs first, and it stands for all
occurrences: class names are collected, and of the other attributes the last one wins, or the
first one if values are kept. Attributes without a name stay as they are. As no name is left
twice, merging again changes nothing.
-/

namespace Shorthand.Markup

/-! ### What stands for the occurrences of a name -/

/-- The attributes without a name and those whose name, ignoring case, is not among `seen` and
does not occur further to the front. -/
def firstOccurrences (seen : List String) : List Attribute → List Attribute
  | [] => []
  | first :: rest =>
    if first.key?.any seen.contains then
      firstOccurrences seen rest
    else
      first :: firstOccurrences (seen ++ first.key?.toList) rest

/-- A class attribute has the words of several ones, and a value if one of them has. Otherwise it
is the first of them. -/
structure Collects (occurrences : List Attribute) (left : Attribute) : Prop where
  first : some left = occurrences.head?.map fun first => { first with value := left.value }
  valued : left.value.isSome = occurrences.any fun found => found.value.isSome
  words : Text.words (Value.plain (left.value.getD [])) =
    (occurrences.filterMap Attribute.value).flatMap fun value => Text.words value.plain

/-- An attribute has the value and the spelling of the last one of several ones, or the value of
the first one if values are kept. What one of them is, it is too: boolean, implied, or an
expression. -/
structure Overrides (keepsFirst : Bool) (occurrences : List Attribute) (left : Attribute) :
    Prop where
  name : some left.name = occurrences.getLast?.map Attribute.name
  value : some left.value =
    (if keepsFirst then occurrences.head? else occurrences.getLast?).map Attribute.value
  isBoolean : left.isBoolean = occurrences.any Attribute.isBoolean
  isImplied : left.isImplied = occurrences.any Attribute.isImplied
  kind : some left.kind =
    if occurrences.any (fun found => found.kind = .expression) then some .expression
    else occurrences.getLast?.map Attribute.kind

/-- An attribute is left in place of the first occurrence of its name among some attributes. -/
def StandsFor (keepsFirst : Bool) (attributes : List Attribute) (first left : Attribute) : Prop :=
  match first.key? with
  | none => left = first
  | some key =>
    let occurrences := attributes.filter (Attribute.hasKey key)
    left.key? = some key ∧
      if key = "class" then Collects occurrences left else Overrides keepsFirst occurrences left

/-! ### One more occurrence -/

/-- A part that is pushed is shown behind the others. -/
@[simp] theorem Value.plain_push (added : Part) (value : Value) :
    (value.push added).plain = value.plain ++ added.shown := by
  fun_induction Value.push added value with
  | case1 => simp [Value.plain]
  | case2 last text isText => simp [Value.plain, Part.shown, isText]
  | case3 last index name isField => simp [Value.plain, isField]
  | case4 part rest _ ih =>
    simp only [Value.plain, List.map_cons, String.join_cons] at ih ⊢
    rw [ih, String.append_assoc]

/-- A value behind a value shows its text behind the other's. -/
theorem Value.plain_pushAll (first second : Value) :
    (second.foldl (fun value part => value.push part) first).plain =
      first.plain ++ second.plain := by
  induction second generalizing first with
  | nil => simp [Value.plain]
  | cons part rest ih =>
    rw [List.foldl_cons, ih, plain_push, String.append_assoc, Value.plain, Value.plain, Value.plain,
      List.map_cons, String.join_cons]

/-- Joined values have the words of both. -/
theorem words_joinValues (first second : Option Value) :
    Text.words (Value.plain ((joinValues first second).getD [])) =
      Text.words (Value.plain (first.getD [])) ++ Text.words (Value.plain (second.getD [])) := by
  have none' : Text.words (Value.plain []) = [] := rfl
  match first, second with
  | some first, some second =>
    rw [joinValues, Option.getD_some, Option.getD_some, Option.getD_some, Value.plain_pushAll]
    cases first with
    | nil => rfl
    | cons part rest =>
      rw [List.isEmpty_cons, if_neg Bool.false_ne_true, Value.pushText, Value.plain_push,
        Part.shown, Text.words_append]
  | some first, none => simp [joinValues, none']
  | none, second => cases second <;> simp [joinValues, none']

/-- One class attribute has collected itself. -/
theorem Collects.singleton (only : Attribute) : Collects [only] only where
  first := rfl
  valued := by simp
  words := by cases value : only.value <;> simp [value]; rfl

/-- A further class attribute is collected behind the others. -/
theorem Collects.add {occurrences : List Attribute} {left : Attribute}
    (collects : Collects occurrences left) (next : Attribute) :
    Collects (occurrences ++ [next]) (left.addClass next) where
  first := by
    obtain ⟨start, isFirst, same⟩ := Option.map_eq_some_iff.mp collects.first.symm
    rw [List.head?_append, isFirst, Option.some_or, Option.map_some, Option.some_inj, ← same]
    rfl
  valued := by
    rw [List.any_append, ← collects.valued, Attribute.addClass]
    cases left.value <;> cases isNext : next.value <;> simp [joinValues, isNext]
  words := by
    rw [List.filterMap_append, List.flatMap_append, ← collects.words, Attribute.addClass,
      words_joinValues, (Collects.singleton next).words]

/-- One attribute overrides nothing. -/
theorem Overrides.singleton (keepsFirst : Bool) (only : Attribute) :
    Overrides keepsFirst [only] only where
  name := rfl
  value := by simp
  isBoolean := by simp
  isImplied := by simp
  kind := by by_cases isExpression : only.kind = .expression <;> simp [isExpression]

/-- A further attribute of the name overrides, or is overridden. -/
theorem Overrides.add {keepsFirst : Bool} {occurrences : List Attribute} {left : Attribute}
    (overrides : Overrides keepsFirst occurrences left) (next : Attribute) :
    Overrides keepsFirst (occurrences ++ [next]) (left.override keepsFirst next) where
  name := by simp [Attribute.override]
  value := by
    have value := overrides.value
    cases keepsFirst with
    | false => simp [Attribute.override]
    | true =>
      cases occurrences with
      | nil => simp at value
      | cons first rest => simpa [Attribute.override] using value
  isBoolean := by simp [Attribute.override, overrides.isBoolean]
  isImplied := by simp [Attribute.override, overrides.isImplied]
  kind := by
    have kind := overrides.kind
    rw [List.any_append, List.any_cons, List.any_nil, Bool.or_false, List.getLast?_concat,
      Attribute.override]
    split at kind
    case isTrue earlier =>
      rw [Option.some_inj] at kind
      rw [earlier, Bool.true_or, if_pos rfl, if_pos kind]
    case isFalse noneEarlier =>
      -- The kind of the last one before is none of an expression, so it is given up.
      have plain : left.kind ≠ .expression := by
        intro isExpression
        rw [isExpression, eq_comm, Option.map_eq_some_iff] at kind
        obtain ⟨last, isLast, lastKind⟩ := kind
        exact noneEarlier (List.any_eq_true.mpr
          ⟨last, List.mem_of_getLast? isLast, decide_eq_true lastKind⟩)
      rw [Bool.not_eq_true] at noneEarlier
      rw [noneEarlier, Bool.false_or, if_neg plain]
      by_cases isExpression : next.kind = .expression <;> simp [isExpression]

/-! ### All occurrences -/

section

variable {keepsFirst : Bool}

/-- The class attributes that an attribute absorbs are collected. -/
theorem collects_foldl_absorb (first : Attribute) (others : List Attribute) :
    Collects (first :: others) (others.foldl (Attribute.absorb keepsFirst "class") first) := by
  induction others using List.reverseRecOn with
  | nil => exact .singleton first
  | append_singleton others next ih =>
    rw [List.foldl_append, List.foldl_cons, List.foldl_nil, Attribute.absorb, if_pos rfl,
      ← List.cons_append]
    exact ih.add next

/-- The attributes of another key that an attribute absorbs are overridden. -/
theorem overrides_foldl_absorb {key : String} (plain : key ≠ "class") (first : Attribute)
    (others : List Attribute) :
    Overrides keepsFirst (first :: others)
      (others.foldl (Attribute.absorb keepsFirst key) first) := by
  induction others using List.reverseRecOn with
  | nil => exact .singleton keepsFirst first
  | append_singleton others next ih =>
    rw [List.foldl_append, List.foldl_cons, List.foldl_nil, Attribute.absorb, if_neg plain,
      ← List.cons_append]
    exact ih.add next

variable (keepsFirst)

/-- An attribute that absorbs all those of its key. -/
def Attribute.absorbAll (others : List Attribute) (first : Attribute) : Attribute :=
  match first.key? with
  | none => first
  | some key => (others.filter (hasKey key)).foldl (absorb keepsFirst key) first

/-- The attributes that are left: the first ones of their keys absorb those behind them. -/
def leftOf (seen : List String) : List Attribute → List Attribute
  | [] => []
  | first :: rest =>
    if first.key?.any seen.contains then
      leftOf seen rest
    else
      first.absorbAll keepsFirst rest :: leftOf (seen ++ first.key?.toList) rest

variable {keepsFirst}

/-- A further attribute of the name is absorbed. -/
theorem Attribute.absorbAll_same {first next : Attribute} {key : String}
    (hasKey : first.key? = some key) (sameKey : next.key? = some key) (rest : List Attribute) :
    first.absorbAll keepsFirst (next :: rest) =
      (first.absorb keepsFirst key next).absorbAll keepsFirst rest := by
  have absorbed : (first.absorb keepsFirst key next).key? = some key :=
    (key?_absorb (hasKey.trans sameKey.symm)).trans sameKey
  simp [absorbAll, hasKey, absorbed, hasKey_iff, sameKey]

/-- A further attribute of another name is not. -/
theorem Attribute.absorbAll_other {first next : Attribute}
    (apart : ∀ key, first.key? = some key → next.key? ≠ some key) (rest : List Attribute) :
    first.absorbAll keepsFirst (next :: rest) = first.absorbAll keepsFirst rest := by
  unfold absorbAll
  cases hasKey : first.key? with
  | none => rfl
  | some key => simp [hasKey_iff, apart key hasKey]

/-- An attribute keeps its key, whatever it absorbs of that key. -/
theorem Attribute.key?_foldl_absorb {first : Attribute} {others : List Attribute} {key : String}
    (hasKey : first.key? = some key) (same : ∀ other ∈ others, other.key? = some key) :
    (others.foldl (absorb keepsFirst key) first).key? = some key := by
  induction others generalizing first with
  | nil => exact hasKey
  | cons next rest ih =>
    obtain ⟨sameKey, others⟩ := List.forall_mem_cons.mp same
    exact ih ((key?_absorb (hasKey.trans sameKey.symm)).trans sameKey) others

variable (keepsFirst) in
/-- The attribute that has the key of the next one absorbs it, and the names stay. -/
theorem map_absorbAll_mergeAttribute {merged : List Attribute} {next : Attribute} {key : String}
    (distinct : (merged.filterMap Attribute.key?).Nodup) (named : next.key? = some key)
    (present : key ∈ merged.filterMap Attribute.key?) (rest : List Attribute) :
    (mergeAttribute keepsFirst merged next).map (Attribute.absorbAll keepsFirst rest) =
        merged.map (Attribute.absorbAll keepsFirst (next :: rest)) ∧
      (mergeAttribute keepsFirst merged next).filterMap Attribute.key? =
        merged.filterMap Attribute.key? := by
  induction merged with
  | nil => cases present
  | cons first others ih =>
    rw [mergeAttribute_cons named]
    by_cases same : first.key? = some key
    · -- The others have different keys, so none of them absorbs it.
      have absorbed : (first.absorb keepsFirst key next).key? = some key :=
        (Attribute.key?_absorb (same.trans named.symm)).trans named
      rw [List.filterMap_cons_some same, List.nodup_cons] at distinct
      have apart : ∀ other ∈ others, ∀ own, other.key? = some own → next.key? ≠ some own := by
        rintro other member own isOwn sameKey
        rw [named, Option.some_inj] at sameKey
        subst sameKey
        exact distinct.1 (List.mem_filterMap.mpr ⟨other, member, isOwn⟩)
      rw [if_pos (Attribute.hasKey_iff.mpr same), List.map_cons, List.map_cons,
        Attribute.absorbAll_same same named, List.filterMap_cons_some absorbed,
        List.filterMap_cons_some same]
      refine ⟨?_, rfl⟩
      congr 1
      exact List.map_congr_left fun other member =>
        (Attribute.absorbAll_other (apart other member) rest).symm
    -- The key is found further behind, and the first attribute absorbs nothing of it.
    · have others' : (others.filterMap Attribute.key?).Nodup :=
        distinct.sublist ((List.sublist_cons_self first others).filterMap _)
      have later : key ∈ others.filterMap Attribute.key? := by
        obtain ⟨found, member, isKey⟩ := List.mem_filterMap.mp present
        rcases List.mem_cons.mp member with rfl | member
        · exact absurd isKey same
        · exact List.mem_filterMap.mpr ⟨found, member, isKey⟩
      have apart : ∀ own, first.key? = some own → next.key? ≠ some own := by
        rintro own isOwn sameKey
        exact same (isOwn.trans (sameKey.symm.trans named))
      obtain ⟨sameLeft, sameKeys⟩ := ih others' later
      rw [if_neg (mt Attribute.hasKey_iff.mp same), List.map_cons, List.map_cons, sameLeft,
        Attribute.absorbAll_other apart, List.filterMap_cons, List.filterMap_cons, sameKeys]
      exact ⟨rfl, rfl⟩

/-- Merging leaves the attributes before, which absorb those of their keys, and behind them what
is left of the other keys. -/
theorem foldl_mergeAttribute (keepsFirst : Bool) (attributes merged : List Attribute)
    (distinct : (merged.filterMap Attribute.key?).Nodup) :
    attributes.foldl (mergeAttribute keepsFirst) merged =
      merged.map (Attribute.absorbAll keepsFirst attributes) ++
        leftOf keepsFirst (merged.filterMap Attribute.key?) attributes := by
  -- An attribute whose key is there is absorbed by the one that has it; a new one is put at the
  -- end, and those before it are left as they are.
  induction attributes generalizing merged with
  | nil =>
    have same : Attribute.absorbAll keepsFirst [] = id := by
      funext first
      unfold Attribute.absorbAll
      cases first.key? <;> rfl
    rw [List.foldl_nil, leftOf, List.append_nil, same, List.map_id]
  | cons next rest ih =>
    rw [List.foldl_cons, leftOf]
    split
    case isTrue isSeen =>
      obtain ⟨key, named, present⟩ := (Option.any_eq_true _ _).mp isSeen
      obtain ⟨sameLeft, sameKeys⟩ := map_absorbAll_mergeAttribute keepsFirst distinct named
        (List.contains_iff_mem.mp present) rest
      rw [ih _ (sameKeys ▸ distinct), sameLeft, sameKeys]
    case isFalse isNew =>
      have absent : ∀ key, next.key? = some key → key ∉ merged.filterMap Attribute.key? :=
        fun key named present => isNew ((Option.any_eq_true _ _).mpr
          ⟨key, named, List.contains_iff_mem.mpr present⟩)
      have apart : ∀ first ∈ merged, ∀ key, first.key? = some key → next.key? ≠ some key :=
        fun first member key isKey sameKey =>
          absent key sameKey (List.mem_filterMap.mpr ⟨first, member, isKey⟩)
      have unchanged : merged.map (Attribute.absorbAll keepsFirst (next :: rest)) =
          merged.map (Attribute.absorbAll keepsFirst rest) :=
        List.map_congr_left fun first member => Attribute.absorbAll_other (apart first member) rest
      have keys : (merged ++ [next]).filterMap Attribute.key? =
          merged.filterMap Attribute.key? ++ next.key?.toList := by
        cases isKey : next.key? <;> simp [isKey]
      have stillDistinct : ((merged ++ [next]).filterMap Attribute.key?).Nodup := by
        rw [keys, List.nodup_append]
        refine ⟨distinct, by cases next.key? <;> simp, ?_⟩
        rintro key present _ isOwn rfl
        exact absent key (Option.mem_toList.mp isOwn) present
      rw [mergeAttribute_of_new absent, ih _ stillDistinct, keys, unchanged, List.map_append,
        List.map_singleton, List.append_assoc, List.singleton_append]

/-- What is left of the first attribute of a key stands for all of that key. -/
theorem standsFor_absorbAll {front rest : List Attribute} {first : Attribute}
    (isFirst : ∀ key, first.key? = some key → key ∉ front.filterMap Attribute.key?) :
    StandsFor keepsFirst (front ++ first :: rest) first (first.absorbAll keepsFirst rest) := by
  unfold StandsFor Attribute.absorbAll
  cases isKey : first.key? with
  | none => rfl
  | some key =>
    have noneBefore : front.filter (Attribute.hasKey key) = [] := by
      rw [List.filter_eq_nil_iff]
      intro other member sameKey
      exact isFirst key isKey
        (List.mem_filterMap.mpr ⟨other, member, Attribute.hasKey_iff.mp sameKey⟩)
    have occurrences : (front ++ first :: rest).filter (Attribute.hasKey key) =
        first :: rest.filter (Attribute.hasKey key) := by
      rw [List.filter_append, noneBefore, List.nil_append,
        List.filter_cons_of_pos (Attribute.hasKey_iff.mpr isKey)]
    have sameKey : ∀ other ∈ rest.filter (Attribute.hasKey key), other.key? = some key :=
      fun other member => Attribute.hasKey_iff.mp (List.mem_filter.mp member).2
    dsimp only
    rw [occurrences]
    refine ⟨Attribute.key?_foldl_absorb isKey sameKey, ?_⟩
    split
    case isTrue isClass =>
      subst isClass
      exact collects_foldl_absorb first _
    case isFalse plain => exact overrides_foldl_absorb plain first _

/-- What is left stands for the occurrences of its name, one by one in the order in which the
names occur first. -/
theorem forall₂_leftOf (rest front : List Attribute) (seen : List String)
    (isSeen : ∀ key, key ∈ seen ↔ key ∈ front.filterMap Attribute.key?) :
    List.Forall₂ (StandsFor keepsFirst (front ++ rest)) (firstOccurrences seen rest)
      (leftOf keepsFirst seen rest) := by
  induction rest generalizing front seen with
  | nil => exact .nil
  | cons first rest ih =>
    rw [firstOccurrences, leftOf]
    have keys : (front ++ [first]).filterMap Attribute.key? =
        front.filterMap Attribute.key? ++ first.key?.toList := by
      cases isKey : first.key? <;> simp [isKey]
    have split : front ++ first :: rest = front ++ [first] ++ rest := by simp
    by_cases again : first.key?.any seen.contains = true
    · rw [if_pos again, if_pos again, split]
      obtain ⟨key, isKey, present⟩ := (Option.any_eq_true _ _).mp again
      refine ih _ _ fun other => ?_
      rw [keys, isKey, Option.toList_some, List.mem_append, List.mem_singleton, ← isSeen]
      constructor
      · exact .inl
      · rintro (present | rfl)
        · exact present
        · exact List.contains_iff_mem.mp present
    · rw [if_neg again, if_neg again]
      refine .cons (standsFor_absorbAll fun key isKey present => again ?_) ?_
      · exact (Option.any_eq_true _ _).mpr
          ⟨key, isKey, List.contains_iff_mem.mpr ((isSeen key).mpr present)⟩
      · rw [split]
        refine ih _ _ fun other => ?_
        rw [keys, List.mem_append, List.mem_append, isSeen]

end

/-- Merging leaves one attribute in place of the first occurrence of each name, which stands for
all its occurrences, and the attributes without a name. Merging again changes nothing. -/
theorem mergeAttributes_exact (config : Config) (element : Element) :
    List.Forall₂ (StandsFor config.options.output.reverseAttributes element.attributes)
        (firstOccurrences [] element.attributes) (mergeAttributes config element).attributes ∧
      mergeAttributes config (mergeAttributes config element) = mergeAttributes config element := by
  have left := foldl_mergeAttribute config.options.output.reverseAttributes element.attributes []
    List.nodup_nil
  refine ⟨?_, mergeAttributes_of_nodup config (nodup_keys_mergeAttributes config element)⟩
  rw [mergeAttributes, left, List.map_nil, List.nil_append]
  exact forall₂_leftOf element.attributes [] [] fun key => Iff.rfl

/-- Names are compared ignoring case, and the last spelling is kept. -/
example :
    let attributes :=
      [.named "class" (some [.text "a"]), { Attribute.named "href" none with isImplied := true },
        { Attribute.named "" (some [.text "b"]) with name := none },
        .named "CLASS" (some [.text "c"]), .named "HREF" (some [.field 1 "url"])]
    (mergeAttributes (.ofSettings .blank) { Element.named "a" with attributes }).attributes =
      [.named "class" (some [.text "a c"]),
        { Attribute.named "HREF" (some [.field 1 "url"]) with isImplied := true },
        { Attribute.named "" (some [.text "b"]) with name := none }] := by
  with_unfolding_all rfl

end Shorthand.Markup
