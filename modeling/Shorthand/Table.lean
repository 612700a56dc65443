/-!
# Tables of texts

A table gives texts to keys. Every key occurs once, and the entries stay in the order in
which their keys were first inserted.
-/

namespace Shorthand

/-- Entries with pairwise different keys. -/
structure Table where
  entries : List (String × String)
  distinct : (entries.map Prod.fst).Nodup
  deriving DecidableEq

namespace Table

/-- The table without entries. -/
def empty : Table := ⟨[], by simp⟩

instance : Inhabited Table := ⟨empty⟩

/-- The keys in order. -/
def keys (table : Table) : List String := table.entries.map Prod.fst

/-- The number of entries. -/
def size (table : Table) : Nat := table.entries.length

/-- The text of a key. -/
def get? (table : Table) (key : String) : Option String := table.entries.lookup key

/-- A key that has no text is none of the table. -/
theorem get?_eq_none_iff {table : Table} {key : String} :
    table.get? key = none ↔ key ∉ table.keys := by
  rw [get?, List.lookup_eq_none_iff, keys, List.mem_map]
  constructor
  · rintro different ⟨entry, member, rfl⟩
    simpa using different entry member
  · exact fun absent entry member => by simpa using fun same => absent ⟨entry, member, same.symm⟩

/-- Whether a key has a text. -/
def contains (table : Table) (key : String) : Bool := (table.get? key).isSome

/-- Give another text to the entry of a key. -/
def replaceIn (key text : String) (entries : List (String × String)) : List (String × String) :=
  entries.map fun entry => if entry.1 = key then (key, text) else entry

/-- Replacing a text leaves the keys. -/
theorem replaceIn_keys (key text : String) (entries : List (String × String)) :
    (replaceIn key text entries).map Prod.fst = entries.map Prod.fst := by
  simp only [replaceIn, List.map_map]
  refine List.map_congr_left fun entry _ => ?_
  simp only [Function.comp]
  split
  · next same => exact same.symm
  · rfl

/-- Give a text to a key, at the end if the key is new. -/
def insert (table : Table) (key text : String) : Table :=
  if known : key ∈ table.entries.map Prod.fst then
    ⟨replaceIn key text table.entries, by rw [replaceIn_keys]; exact table.distinct⟩
  else
    ⟨table.entries ++ [(key, text)], by
      rw [List.map_append, List.nodup_append]
      refine ⟨table.distinct, by simp, ?_⟩
      intro left leftMem right rightMem same
      simp only [List.map_cons, List.map_nil, List.mem_singleton] at rightMem
      exact known (rightMem ▸ same ▸ leftMem)⟩

/-- A key that is inserted is added to the keys. -/
theorem mem_keys_insert {table : Table} {key text other : String} :
    other ∈ (table.insert key text).keys ↔ other ∈ table.keys ∨ other = key := by
  rw [insert]
  split
  case isTrue known =>
    rw [keys, replaceIn_keys]
    exact ⟨.inl, fun member => member.elim id fun same => same ▸ known⟩
  case isFalse => simp [keys]

/-- Insert entries one after the other, so that later ones win. -/
def insertAll (table : Table) (entries : List (String × String)) : Table :=
  entries.foldl (fun table entry => table.insert entry.1 entry.2) table

/-- No other keys than those of the entries are new. -/
theorem mem_keys_insertAll {table : Table} {entries : List (String × String)} {key : String} :
    key ∈ (table.insertAll entries).keys ↔ key ∈ table.keys ∨ key ∈ entries.map Prod.fst := by
  induction entries generalizing table with
  | nil => simp [insertAll]
  | cons entry rest ih =>
    rw [insertAll, List.foldl_cons, ← insertAll, ih, mem_keys_insert, List.map_cons,
      List.mem_cons, or_assoc]

/-- The table of a list of entries, of which later ones win. -/
def ofList (entries : List (String × String)) : Table := empty.insertAll entries

/-- Insert every text under each of its keys. -/
def insertAliases (table : Table) (entries : List (List String × String)) : Table :=
  table.insertAll (entries.flatMap fun entry => entry.1.map fun key => (key, entry.2))

/-- Every alias of an entry becomes a key. -/
theorem mem_keys_insertAliases {table : Table} {entries : List (List String × String)}
    {key : String} :
    key ∈ (table.insertAliases entries).keys ↔
      key ∈ table.keys ∨ ∃ entry ∈ entries, key ∈ entry.1 := by
  rw [insertAliases, mem_keys_insertAll, List.map_flatMap]
  simp only [List.mem_flatMap, List.map_map, List.mem_map, Function.comp, exists_eq_right]

end Table

end Shorthand
