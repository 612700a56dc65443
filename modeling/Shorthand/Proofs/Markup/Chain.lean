import Mathlib.Algebra.GroupWithZero.Nat
import Shorthand.Text.CharClass

/-!
# Chains of elements and groups

A chain is a run of elements and groups with an operator between every two of them. Its places
are said without a tree: what matters about the items that are open above the one at hand is how
much deeper than itself each of them puts what follows inside of it. An element puts it one
level deeper. What follows inside a group stands beside its members, so a group adds no level of
its own, though a climb out of it counts.
-/

namespace Shorthand.Markup

/-- An element name of letters. -/
structure LetterName where
  text : String
  named : text.toList ≠ []
  letters : ∀ c ∈ text.toList, CharClass.letter c

/-- What stands between two items. A climb is one caret and `further` more. -/
inductive Link where
  | child
  | sibling
  | climb (further : Nat)

mutual

/-- An element of which only the name is written, or a group. -/
inductive ChainItem where
  | element (name : LetterName)
  | group (inside : Chain)

/-- Items with a link between every two of them. -/
inductive Chain where
  | last (item : ChainItem)
  | link (item : ChainItem) (between : Link) (rest : Chain)

end

/-! ### The written form -/

/-- A link as it is written. -/
def Link.print : Link → List Char
  | child => ['>']
  | sibling => ['+']
  | climb further => List.replicate (further + 1) '^'

mutual

/-- An item as it is written. -/
def ChainItem.print : ChainItem → List Char
  | .element name => name.text.toList
  | .group inside => '(' :: (inside.print ++ [')'])

/-- A chain as it is written. -/
def Chain.print : Chain → List Char
  | .last item => item.print
  | .link item between rest => item.print ++ (between.print ++ rest.print)

end

/-- The abbreviation that a chain is written as. -/
def Chain.written (chain : Chain) : String := String.ofList chain.print

/-! ### Places -/

/-- How much deeper than an item stands what follows inside of it. -/
def ChainItem.rise : ChainItem → Nat
  | element _ => 1
  | group _ => 0

/-- The rises of the open items behind a link, innermost first, from those of the item in front
and of the items above it. Climbing further than to the outermost level stops there. -/
def Link.lead (rise : Nat) (above : List Nat) : Link → List Nat
  | child => rise :: above
  | sibling => above
  | climb further => above.drop (further + 1)

mutual

/-- The depths and names of the elements of an item. -/
def ChainItem.places (depth : Nat) : ChainItem → List (Nat × Option String)
  | .element name => [(depth, some name.text)]
  | .group inside => inside.places depth []

/-- The depths and names of the elements of a chain whose outermost level stands at the depth
`base`, where `above` are the rises of the open items. The members of a group stand from the
depth of the group on, and no item outside of it is open for them. -/
def Chain.places (base : Nat) (above : List Nat) : Chain → List (Nat × Option String)
  | .last item => item.places (base + above.sum)
  | .link item between rest =>
    item.places (base + above.sum) ++ rest.places base (between.lead item.rise above)

end

/-! ### Runs of elements -/

/-- The chain of an element and further ones, each behind its link. -/
def Chain.run (first : LetterName) : List (Link × LetterName) → Chain
  | [] => last (.element first)
  | (between, second) :: rest => link (.element first) between (run second rest)

/-- The depth behind a link from the depth in front of it. -/
def Link.depth (depth : Nat) : Link → Nat
  | child => depth + 1
  | sibling => depth
  | climb further => depth - (further + 1)

/-- The depths and names of a run of elements whose first one stands `depth` below the depth
`base`. -/
def runPlaces (base depth : Nat) (first : LetterName) :
    List (Link × LetterName) → List (Nat × Option String)
  | [] => [(base + depth, some first.text)]
  | (between, second) :: rest =>
    (base + depth, some first.text) :: runPlaces base (between.depth depth) second rest

/-- Between elements every open item is one level, so that a link leads from depth to depth. -/
theorem Link.lead_replicate (between : Link) (depth : Nat) :
    between.lead 1 (List.replicate depth 1) = List.replicate (between.depth depth) 1 := by
  cases between with
  | child => rfl
  | sibling => rfl
  | climb further => exact List.drop_replicate

/-- A child stands one level deeper, a sibling at the same level, and climbs lead up to the
outermost level at most. -/
theorem Chain.places_run (base depth : Nat) (first : LetterName)
    (rest : List (Link × LetterName)) :
    (Chain.run first rest).places base (List.replicate depth 1) =
      runPlaces base depth first rest := by
  induction rest generalizing depth first with
  | nil => simp [Chain.run, Chain.places, ChainItem.places, runPlaces]
  | cons next rest ih =>
    obtain ⟨between, second⟩ := next
    simp [Chain.run, Chain.places, ChainItem.places, runPlaces, ChainItem.rise,
      Link.lead_replicate, ih]

end Shorthand.Markup
