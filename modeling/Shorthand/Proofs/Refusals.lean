import Shorthand.Fault
import Shorthand.Proofs.Span

/-!
# Where tokens are refused

A reader is given what is left of a list of tokens. What it notices, it notices at a place of that
list: at the beginning of a token that is left, or behind the last one, which is the end of the
source.
-/

namespace Shorthand

variable {α β : Type} {span : α → Span} {size : Nat} {tokens : List α}

/-- The offset at which a place of the tokens begins. Behind the tokens it is the size of the
source. -/
def offsetOf (span : α → Span) (size : Nat) (place : List α) : Nat :=
  (place.head?.map fun token => (span token).start).getD size

/-- Tokens that tile a source begin inside of it. -/
theorem offsetOf_le {place : List α} (tiles : Tile 0 (tokens.map span) size)
    (within : place <:+ tokens) : offsetOf span size place ≤ size := by
  cases place with
  | nil => exact Nat.le_refl size
  | cons token rest =>
    have member : span token ∈ tokens.map span :=
      List.mem_map_of_mem (within.subset List.mem_cons_self)
    have filled := (tiles.bounds (span token) member).2
    have inside := tiles.stop_le (span token) member
    simp only [offsetOf, List.head?_cons, Option.map_some, Option.getD_some]
    omega

/-- A reader that fails does so at a place of its tokens. -/
def FailsIn (span : α → Span) (size : Nat) (tokens : List α) (run : Except Notice β) : Prop :=
  ∀ notice, run = .error notice →
    ∃ place, place <:+ tokens ∧ notice.offset = offsetOf span size place

namespace FailsIn

/-- What succeeds fails nowhere. -/
theorem ok (tokens : List α) (result : β) : FailsIn span size tokens (.ok result) :=
  fun _ failed => nomatch failed

/-- A fault may lie at the first token that is left. -/
theorem here (tokens : List α) (cause : Fault.Cause) :
    FailsIn span size tokens
      (.error ⟨cause, offsetOf span size tokens⟩ : Except Notice β) := by
  intro notice failed
  cases failed
  exact ⟨tokens, List.suffix_rfl, rfl⟩

variable {run : Except Notice β}

/-- A notice is passed on to a caller with another result. -/
theorem passedOn {γ : Type} {notice : Notice} (fails : FailsIn span size tokens run)
    (failed : run = .error notice) :
    FailsIn span size tokens (.error notice : Except Notice γ) := by
  intro other same
  cases same
  exact fails notice failed

/-- Where a reader fails that is called from a later place, the caller fails. -/
theorem behind {between : List α} (fails : FailsIn span size between run)
    (led : between <:+ tokens) : FailsIn span size tokens run := by
  intro notice failed
  obtain ⟨place, further, same⟩ := fails notice failed
  exact ⟨place, further.trans led, same⟩

/-- A reader of tokens that tile a source fails inside of the source or right behind it. -/
theorem offset_le {notice : Notice} (fails : FailsIn span size tokens run)
    (tiles : Tile 0 (tokens.map span) size) (failed : run = .error notice) :
    notice.offset ≤ size := by
  obtain ⟨place, within, same⟩ := fails notice failed
  exact same ▸ offsetOf_le tiles within

end FailsIn

end Shorthand
