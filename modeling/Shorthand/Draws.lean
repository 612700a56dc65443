/-!
# Random draws

What draws at random is given a source: a state and the function that takes the next number
from it. A text is thus a function of the numbers drawn.
-/

namespace Shorthand

/-- Where random numbers are taken from. -/
structure Draws (State : Type) where
  next : State → Nat × State

namespace Draws

/-- A number of a non-empty range, both ends included: the next draw modulo its size. -/
def within {State : Type} (draws : Draws State) (least most : Nat) (state : State) :
    Nat × State :=
  let (drawn, state) := draws.next state
  (least + drawn % (most - least + 1), state)

/-- A number from `least` on and below `limit`. Nothing is drawn from an empty range, which
gives its beginning. -/
def below {State : Type} (draws : Draws State) (least limit : Nat) (state : State) :
    Nat × State :=
  if least < limit then draws.within least (limit - 1) state else (least, state)

section

variable {State : Type} (draws : Draws State) {least most limit : Nat} (state : State)

/-- What is drawn from a range lies in it. -/
theorem within_bounds (ordered : least ≤ most) :
    least ≤ (draws.within least most state).1 ∧ (draws.within least most state).1 ≤ most := by
  have drawn : (draws.within least most state).1 =
      least + (draws.next state).1 % (most - least + 1) := rfl
  have bounded : (draws.next state).1 % (most - least + 1) < most - least + 1 :=
    Nat.mod_lt _ (Nat.succ_pos _)
  rw [drawn]
  omega

/-- What is drawn from a range that is not empty lies in it, below its limit. -/
theorem below_bounds (ordered : least < limit) :
    least ≤ (draws.below least limit state).1 ∧ (draws.below least limit state).1 < limit := by
  have bounded := draws.within_bounds state (Nat.le_sub_one_of_lt ordered)
  rw [below, if_pos ordered]
  omega

/-- An empty range gives its beginning. -/
theorem below_le (least limit : Nat) :
    (draws.below least limit state).1 ≤ max least (limit - 1) := by
  by_cases ordered : least < limit
  · have bounded := draws.below_bounds state ordered
    omega
  · rw [below, if_neg ordered]
    omega

end

/-- The number of states of the congruential source: those of 31 bits. -/
def period : Nat := 2147483648

/-- The congruential source, which draws the upper 15 bits of its state. -/
def congruential : Draws Nat where
  next state :=
    let state := (state * 1103515245 + 12345) % period
    (state / 65536, state)

/-- The state that a seed begins with. -/
def seeded (seed : Nat) : Nat := seed % period

end Draws

end Shorthand
