import Mathlib.Data.String.Basic
import Shorthand.Stylesheet.Database

/-!
# The forest of dependent properties

A property depends on the last one in front of it that it extends together with all properties
in between. One pass finds these pairs with a stack: after every property the stack holds the
properties that have been extended ever since, nearest first.
-/

namespace Shorthand.Stylesheet

/-- A property name begins with another one and a dash behind it. -/
def Extends (longer shorter : String) : Prop := (shorter.toList ++ ['-']) <+: longer.toList

/-- The test whether a name extends another one decides the relation. -/
theorem extendsName_iff {longer shorter : String} :
    extendsName longer shorter ↔ Extends longer shorter :=
  List.isPrefixOf_iff_prefix

/-- What extends a name extends what that name extends. -/
theorem Extends.trans {first second third : String} (extendsFirst : Extends third second)
    (extendsSecond : Extends second first) : Extends third first :=
  List.IsPrefix.trans extendsSecond ((List.prefix_append second.toList ['-']).trans extendsFirst)

/-! ### Owners

The names of properties are given by their places; there is none where a snippet is raw text. -/

section

variable (names : Nat → Option String)

/-- The properties behind a place, up to and including another one, extend the property at the
first place. -/
def Spans (owner place : Nat) : Prop :=
  owner < place ∧ ∃ name ∈ names owner, ∀ other, owner < other → other ≤ place →
    ∀ longer ∈ names other, Extends longer name

/-- The last place that spans the property at another one. -/
structure Owns (owner place : Nat) : Prop where
  isProperty : (names place).isSome
  spans : Spans names owner place
  last : ∀ other, owner < other → ¬ Spans names other place

/-- The stack in front of a place holds the properties that all others up to there extend,
nearest first. -/
structure IsPending (place : Nat) (pending : List OpenProperty) : Prop where
  mem_iff : ∀ owner name, (owner, name) ∈ pending ↔ names owner = some name ∧ owner < place ∧
    ∀ other, owner < other → other < place → ∀ longer ∈ names other, Extends longer name
  nearestFirst : pending.Pairwise fun nearer further => further.1 < nearer.1

end

variable {names : Nat → Option String} {owner place : Nat} {pending : List OpenProperty}

/-- A property has at most one owner. -/
theorem Owns.unique {other : Nat} (owns : Owns names owner place)
    (alsoOwns : Owns names other place) : owner = other := by
  rcases Nat.lt_trichotomy owner other with before | same | behind
  · exact absurd alsoOwns.spans (owns.last other before)
  · exact same
  · exact absurd owns.spans (alsoOwns.last owner behind)

/-- At the beginning no property is pending. -/
theorem IsPending.start (names : Nat → Option String) : IsPending names 0 [] :=
  ⟨by simp, .nil⟩

/-- Raw text changes nothing. -/
theorem IsPending.raw (isPending : IsPending names place pending) (raw : names place = none) :
    IsPending names (place + 1) pending where
  nearestFirst := isPending.nearestFirst
  mem_iff owner name := by
    rw [isPending.mem_iff]
    refine and_congr_right fun named => ?_
    have other : owner ≠ place := fun same => by simp [same, raw] at named
    constructor
    · rintro ⟨before, others⟩
      refine ⟨by omega, fun between after upTo longer isName => ?_⟩
      have notPlace : between ≠ place := fun same => by simp [same, raw] at isName
      exact others between after (by omega) longer isName
    · rintro ⟨before, others⟩
      exact ⟨by omega, fun between after upTo => others between after (by omega)⟩

/-- What a property extends is a part of the stack from some place on: it extends all that is
extended by what it extends. -/
theorem IsPending.extended (isPending : IsPending names place pending) (longer : String) :
    (pending.dropWhile fun candidate => !extendsName longer candidate.2) =
      pending.filter fun candidate => extendsName longer candidate.2 := by
  have further : pending.Pairwise fun nearer further =>
      Extends longer nearer.2 → Extends longer further.2 := by
    refine isPending.nearestFirst.imp_of_mem fun {nearer outer} isNearer isOuter behind => ?_
    obtain ⟨named, before, -⟩ := (isPending.mem_iff _ _).mp isNearer
    obtain ⟨-, -, others⟩ := (isPending.mem_iff _ _).mp isOuter
    exact fun extendsNearer => extendsNearer.trans (others nearer.1 behind before nearer.2 named)
  clear isPending
  induction pending with
  | nil => rfl
  | cons nearest outer ih =>
    obtain ⟨fromNearest, others⟩ := List.pairwise_cons.mp further
    by_cases extendsNearest : extendsName longer nearest.2
    · have all : ∀ candidate ∈ outer, extendsName longer candidate.2 := fun candidate member =>
        extendsName_iff.mpr (fromNearest candidate member (extendsName_iff.mp extendsNearest))
      simp only [extendsNearest, List.dropWhile_cons, List.filter_cons, Bool.not_true,
        Bool.false_eq_true, if_false, if_true, List.filter_eq_self.mpr all]
    · simp only [extendsNearest, List.dropWhile_cons, List.filter_cons, Bool.not_false,
        Bool.false_eq_true, if_false, if_true, ih others]

/-- A property stays on the stack with those that it extends. -/
theorem IsPending.property (isPending : IsPending names place pending) {longer : String}
    (named : names place = some longer) :
    IsPending names (place + 1)
      ((place, longer) :: pending.filter fun candidate => extendsName longer candidate.2) where
  nearestFirst := by
    refine .cons (fun candidate member => ?_) (isPending.nearestFirst.filter _)
    exact ((isPending.mem_iff _ _).mp (List.mem_filter.mp member).1).2.1
  mem_iff owner name := by
    rw [List.mem_cons, List.mem_filter, isPending.mem_iff, extendsName_iff, Prod.mk.injEq]
    constructor
    · rintro (⟨rfl, rfl⟩ | ⟨⟨isName, before, others⟩, extendsOwner⟩)
      · exact ⟨named, Nat.lt_succ_self _, fun other after upTo => by omega⟩
      · refine ⟨isName, by omega, fun other after upTo other' isOther => ?_⟩
        rcases Nat.lt_succ_iff_lt_or_eq.mp upTo with earlier | rfl
        · exact others other after earlier other' isOther
        · cases named.symm.trans isOther
          exact extendsOwner
    · rintro ⟨isName, upTo, others⟩
      rcases Nat.lt_succ_iff_lt_or_eq.mp upTo with before | rfl
      · refine .inr ⟨⟨isName, before, fun other after earlier => ?_⟩, ?_⟩
        · exact others other after (by omega)
        · exact others place before (Nat.lt_succ_self _) longer named
      · exact .inl ⟨rfl, Option.some.inj (isName.symm.trans named)⟩

/-- The properties on the stack that a property extends are the ones that span it. -/
theorem IsPending.spans_iff (isPending : IsPending names place pending) {longer : String}
    (named : names place = some longer) :
    Spans names owner place ↔
      ∃ name, (owner, name) ∈ pending.filter fun candidate => extendsName longer candidate.2 := by
  have behind := (isPending.property named).mem_iff owner
  constructor
  · rintro ⟨before, name, isName, others⟩
    have member := (behind name).mpr
      ⟨isName, by omega, fun other after upTo => others other after (by omega)⟩
    refine ⟨name, (List.mem_cons.mp member).resolve_left fun same => ?_⟩
    cases same
    omega
  · rintro ⟨name, member⟩
    obtain ⟨isName, -, others⟩ := (behind name).mp (List.mem_cons_of_mem _ member)
    refine ⟨((isPending.mem_iff _ _).mp (List.mem_filter.mp member).1).2.1, name, isName, ?_⟩
    exact fun other after upTo => others other after (by omega)

/-- The owner of a property is the nearest one on the stack that it extends. -/
theorem IsPending.owns_iff (isPending : IsPending names place pending) {longer : String}
    (named : names place = some longer) :
    Owns names owner place ↔
      (pending.find? fun candidate => extendsName longer candidate.2).map Prod.fst =
        some owner := by
  rw [← List.head?_filter]
  have spans {other : Nat} : Spans names other place ↔
      ∃ name, (other, name) ∈ pending.filter fun candidate => extendsName longer candidate.2 :=
    isPending.spans_iff named
  have sorted := isPending.nearestFirst.filter fun candidate => extendsName longer candidate.2
  generalize pending.filter (fun candidate => extendsName longer candidate.2) = extended at *
  cases extended with
  | nil =>
    refine ⟨fun owns => ?_, fun none => by cases none⟩
    obtain ⟨name, member⟩ := spans.mp owns.spans
    cases member
  | cons nearest outer =>
    obtain ⟨nearer, -⟩ := List.pairwise_cons.mp sorted
    have isOwner : Owns names nearest.1 place := by
      refine ⟨by simp [named], spans.mpr ⟨nearest.2, List.mem_cons_self⟩,
        fun other after more => ?_⟩
      obtain ⟨name, member⟩ := spans.mp more
      rcases List.mem_cons.mp member with same | further
      · exact absurd after (by simp [← same])
      · exact absurd (nearer _ further) (by simp only; omega)
    simp only [List.head?_cons, Option.map_some, Option.some.injEq]
    exact ⟨fun owns => isOwner.unique owns, fun same => same ▸ isOwner⟩

/-! ### The pass over all snippets -/

/-- The name of the property of a snippet. -/
def Snippet.propertyName? (snippet : Snippet) : Option String :=
  snippet.property?.map PropertySnippet.property

/-- The names from a place on are those of the snippets. -/
def NamesFrom (names : Nat → Option String) (place : Nat) (snippets : List Snippet) : Prop :=
  ∀ index, names (place + index) = (snippets[index]?).bind Snippet.propertyName?

/-- The names of the rest are given one place further. -/
theorem NamesFrom.rest {snippet : Snippet} {rest : List Snippet}
    (given : NamesFrom names place (snippet :: rest)) : NamesFrom names (place + 1) rest := by
  intro index
  rw [Nat.add_assoc, Nat.add_comm 1 index]
  exact given (index + 1)

/-- A property is paired with the nearest one on the stack that it extends, if there is one. -/
theorem IsPending.linksFrom_property (isPending : IsPending names place pending)
    (snippet : PropertySnippet) (rest : List Snippet) :
    let extended := pending.filter fun candidate => extendsName snippet.property candidate.2
    linksFrom place pending (.property snippet :: rest) =
      ((pending.find? fun candidate => extendsName snippet.property candidate.2).map
        fun owner => (owner.1, place)).toList ++
          linksFrom (place + 1) ((place, snippet.property) :: extended) rest := by
  intro extended
  rw [← List.head?_filter]
  simp only [linksFrom, isPending.extended snippet.property]
  cases found : pending.filter fun candidate => extendsName snippet.property candidate.2 with
  | nil => simp only [extended, found, List.head?_nil, Option.map_none, Option.toList_none,
      List.nil_append]
  | cons owner outer => simp only [extended, found, List.head?_cons, Option.map_some,
      Option.toList_some, List.singleton_append]

/-- The pairs that are found are the properties from a place on with their owners. -/
theorem mem_linksFrom {snippets : List Snippet} (isPending : IsPending names place pending)
    (given : NamesFrom names place snippets) {dependent : Nat} :
    (owner, dependent) ∈ linksFrom place pending snippets ↔
      place ≤ dependent ∧ Owns names owner dependent := by
  -- By induction on the snippets: those passed that still extend no later name have left the
  -- pending list, and the nearest one that does is in front.
  induction snippets generalizing place pending with
  | nil =>
    simp only [linksFrom, List.not_mem_nil, false_iff]
    rintro ⟨upTo, owns⟩
    have noName := given (dependent - place)
    rw [Nat.add_sub_cancel' upTo] at noName
    have isProperty := owns.isProperty
    simp [noName] at isProperty
  | cons snippet rest ih =>
    have here : names place = snippet.propertyName? := given 0
    cases snippet with
    | raw key text =>
      rw [linksFrom, ih (isPending.raw here) given.rest]
      refine ⟨fun ⟨behind, owns⟩ => ⟨by omega, owns⟩, fun ⟨upTo, owns⟩ => ⟨?_, owns⟩⟩
      refine Nat.lt_of_le_of_ne upTo fun same => ?_
      have isProperty := owns.isProperty
      rw [← same, here] at isProperty
      cases isProperty
    | property snippet =>
      have named : names place = some snippet.property := here
      have found : (owner, dependent) ∈ ((pending.find? fun candidate =>
          extendsName snippet.property candidate.2).map fun owner => (owner.1, place)).toList ↔
            dependent = place ∧ Owns names owner place := by
        rw [isPending.owns_iff named]
        generalize pending.find? _ = nearest
        cases nearest <;> simp [eq_comm, and_comm]
      rw [isPending.linksFrom_property, List.mem_append, found,
        ih (isPending.property named) given.rest]
      constructor
      · rintro (⟨rfl, owns⟩ | ⟨behind, owns⟩)
        · exact ⟨Nat.le_refl _, owns⟩
        · exact ⟨by omega, owns⟩
      · rintro ⟨upTo, owns⟩
        rcases Nat.eq_or_lt_of_le upTo with rfl | behind
        · exact .inl ⟨rfl, owns⟩
        · exact .inr ⟨behind, owns⟩

/-- A property between them that does not extend the first one parts it from the last one. -/
example :
    let property (name : String) : Snippet := .property ⟨name, name, [], [], []⟩
    linksFrom 0 [] [property "border", property "border-top", .raw "br" "",
      property "border-top-color", property "bottom", property "border-width"] =
        [(0, 1), (1, 3)] := by
  decide +kernel

/-- The properties are passed in order. -/
theorem pairwise_linksFrom {snippets : List Snippet} (isPending : IsPending names place pending)
    (given : NamesFrom names place snippets) :
    (linksFrom place pending snippets).Pairwise fun link later => link.2 < later.2 := by
  induction snippets generalizing place pending with
  | nil => exact .nil
  | cons snippet rest ih =>
    have here : names place = snippet.propertyName? := given 0
    cases snippet with
    | raw key text =>
      rw [linksFrom]
      exact ih (isPending.raw here) given.rest
    | property snippet =>
      have next := isPending.property here
      rw [isPending.linksFrom_property, List.pairwise_append]
      refine ⟨?_, ih next given.rest, fun link first later behind => ?_⟩
      · cases pending.find? _ <;> simp
      · have same : link.2 = place := by
          obtain ⟨owner, -, rfl⟩ := Option.map_eq_some_iff.mp (Option.mem_toList.mp first)
          rfl
        rw [same]
        exact ((mem_linksFrom next given.rest).mp behind).1

/-! ### Databases -/

section

variable {snippets : List Snippet}

/-- Noting dependents changes no key and no property name. -/
theorem getElem?_nest (snippets : List Snippet) (place : Nat) :
    (nest snippets)[place]? =
      (snippets[place]?).map (withDependents (linksFrom 0 [] snippets) place) :=
  List.getElem?_mapIdx

/-- Dependents leave the key of a snippet as it is. -/
theorem withDependents_key (links : List (Nat × Nat)) (place : Nat) (snippet : Snippet) :
    (withDependents links place snippet).key = snippet.key := by
  cases snippet <;> rfl

/-- Dependents leave the name of a property as it is. -/
theorem withDependents_propertyName? (links : List (Nat × Nat)) (place : Nat)
    (snippet : Snippet) :
    (withDependents links place snippet).propertyName? = snippet.propertyName? := by
  cases snippet <;> rfl

/-- Nesting leaves the keys as they are. -/
theorem keys_nest (snippets : List Snippet) :
    (nest snippets).map Snippet.key = snippets.map Snippet.key := by
  refine List.ext_getElem? fun place => ?_
  simp only [List.getElem?_map, getElem?_nest, Option.map_map]
  exact Option.map_congr fun snippet _ => withDependents_key _ _ snippet

namespace Database

/-- The name of the property at a place. -/
def nameAt? (database : Database) (place : Nat) : Option String :=
  (database.propertyAt? place).map PropertySnippet.property

/-- The properties of a database form a forest in the order of the keys. -/
structure IsForest (database : Database) : Prop where
  increasing : (database.snippets.map Snippet.key).Pairwise (· < ·)
  dependents_iff : ∀ owner snippet, database.propertyAt? owner = some snippet →
    ∀ place, place ∈ snippet.dependents ↔ Owns database.nameAt? owner place
  /-- A property depends on at most one other. -/
  single : ∀ first second ownFirst ownSecond, database.propertyAt? first = some ownFirst →
    database.propertyAt? second = some ownSecond →
    ∀ place ∈ ownFirst.dependents, place ∈ ownSecond.dependents → first = second
  forwards : ∀ owner snippet, database.propertyAt? owner = some snippet →
    ∀ place ∈ snippet.dependents, owner < place ∧ ∃ dependent,
      database.propertyAt? place = some dependent ∧
        Extends dependent.property snippet.property
  distinct : ∀ owner snippet, database.propertyAt? owner = some snippet →
    snippet.dependents.Nodup

/-- Nesting leaves the names of properties where they are. -/
theorem nameAt?_nest (snippets : List Snippet) (place : Nat) :
    nameAt? ⟨nest snippets⟩ place = (snippets[place]?).bind Snippet.propertyName? := by
  rw [nameAt?, propertyAt?, getElem?_nest]
  cases snippets[place]? with
  | none => rfl
  | some snippet => exact withDependents_propertyName? _ _ snippet

/-- The dependents of a property are read off the pairs of the pass. -/
theorem dependents_nest {owner : Nat} {snippet : PropertySnippet}
    (found : propertyAt? ⟨nest snippets⟩ owner = some snippet) :
    snippet.dependents =
      ((linksFrom 0 [] snippets).filter fun link => link.1 == owner).map Prod.snd := by
  rw [propertyAt?, getElem?_nest] at found
  cases here : snippets[owner]? with
  | none => simp [here] at found
  | some own =>
    rw [here] at found
    cases own with
    | raw => cases found
    | property own =>
      cases found
      rfl

/-- Noting dependents of snippets in the order of their keys makes them a forest. -/
theorem isForest_nest (increasing : (snippets.map Snippet.key).Pairwise (· < ·)) :
    IsForest ⟨nest snippets⟩ := by
  have given : NamesFrom (nameAt? ⟨nest snippets⟩) 0 snippets := fun place => by
    rw [Nat.zero_add, nameAt?_nest]
  have isPending := IsPending.start (nameAt? ⟨nest snippets⟩)
  have dependents_iff : ∀ owner snippet, propertyAt? ⟨nest snippets⟩ owner = some snippet →
      ∀ place, place ∈ snippet.dependents ↔ Owns (nameAt? ⟨nest snippets⟩) owner place := by
    intro owner snippet found place
    have linked : (owner, place) ∈ linksFrom 0 [] snippets ↔
        Owns (nameAt? ⟨nest snippets⟩) owner place :=
      (mem_linksFrom isPending given).trans (and_iff_right (Nat.zero_le place))
    rw [dependents_nest found, ← linked]
    simp
  refine ⟨(keys_nest snippets).symm ▸ increasing, dependents_iff, ?_, ?_, ?_⟩
  · intro first second ownFirst ownSecond isFirst isSecond place ofFirst ofSecond
    exact ((dependents_iff _ _ isFirst place).mp ofFirst).unique
      ((dependents_iff _ _ isSecond place).mp ofSecond)
  · intro owner snippet found place member
    have owns := (dependents_iff owner snippet found place).mp member
    obtain ⟨before, name, named, others⟩ := owns.spans
    obtain ⟨longer, isLonger⟩ := Option.isSome_iff_exists.mp owns.isProperty
    have extends_ := others place before (Nat.le_refl _) longer isLonger
    obtain ⟨dependent, isDependent, rfl⟩ := Option.map_eq_some_iff.mp isLonger
    rw [nameAt?, found] at named
    cases named
    exact ⟨before, dependent, isDependent, extends_⟩
  · intro owner snippet found
    rw [dependents_nest found]
    have ordered := (pairwise_linksFrom isPending given).filter fun link => link.1 == owner
    exact (List.pairwise_map.mpr ordered).imp Nat.ne_of_lt

/-- The snippets of a table, each without dependents. -/
def written (table : Table) : List Snippet :=
  table.entries.map fun entry => Snippet.ofText entry.1 entry.2

/-- The snippets of a table have its keys. -/
theorem keys_written (table : Table) : (written table).map Snippet.key = table.keys := by
  rw [written, List.map_map, Table.keys]
  refine List.map_congr_left fun entry _ => ?_
  simp only [Function.comp_apply, Snippet.ofText]
  split <;> rfl

/-- The snippets of a table in the order of their keys. -/
def sorted (table : Table) : List Snippet :=
  (written table).mergeSort fun left right => left.key ≤ right.key

/-- Sorting keeps all snippets. -/
theorem sorted_perm (table : Table) : (sorted table).Perm (written table) :=
  List.mergeSort_perm _ _

/-- The keys of a table are different, so that sorting makes them increase. -/
theorem pairwise_sorted (table : Table) :
    (sorted table).Pairwise fun left right => left.key < right.key := by
  have ordered : (sorted table).Pairwise fun left right => left.key ≤ right.key := by
    have transitive (first second third : Snippet) : decide (first.key ≤ second.key) →
        decide (second.key ≤ third.key) → decide (first.key ≤ third.key) := by
      simpa only [decide_eq_true_eq] using le_trans
    have total (left right : Snippet) :
        decide (left.key ≤ right.key) || decide (right.key ≤ left.key) := by
      simpa using le_total left.key right.key
    simpa [sorted] using List.pairwise_mergeSort transitive total (written table)
  have different : ((sorted table).map Snippet.key).Nodup := by
    rw [((sorted_perm table).map _).nodup_iff, keys_written]
    exact table.distinct
  exact (ordered.and (List.pairwise_map.mp different)).imp fun both => lt_of_le_of_ne both.1 both.2

/-- The database of a table is a forest with a snippet for every key, and the order of the entries
of the table does not matter. -/
theorem ofTable_isForest (table : Table) :
    (∀ other : Table, other.entries.Perm table.entries → ofTable other = ofTable table) ∧
      ((ofTable table).snippets.map Snippet.key).Perm table.keys ∧ (ofTable table).IsForest := by
  have isDatabase (table : Table) : ofTable table = ⟨nest (sorted table)⟩ := rfl
  simp only [isDatabase, keys_nest]
  refine ⟨fun other same => ?_, ?_, isForest_nest (List.pairwise_map.mpr (pairwise_sorted table))⟩
  · have reordered : (sorted other).Perm (sorted table) :=
      (sorted_perm other).trans ((same.map _).trans (sorted_perm table).symm)
    rw [reordered.eq_of_pairwise (fun left right _ _ before behind => ?_)
      (pairwise_sorted other) (pairwise_sorted table)]
    exact absurd before (lt_asymm behind)
  · exact keys_written table ▸ (sorted_perm table).map _

end Database

end

end Shorthand.Stylesheet
