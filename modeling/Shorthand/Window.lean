import Shorthand.Fault
import Shorthand.FieldMark

/-!
# Windows on an abbreviation

A window shows the characters of a source from some offset up to `stop` and remembers a read
position and a mark. Reading never passes `stop`. The position may be set anywhere, also
behind the end, where there is nothing to read.
-/

namespace Shorthand

/-- A read position and a mark in the part of a source before `stop`. -/
structure Window where
  source : List Char
  start : Nat
  position : Nat
  stop : Nat
  deriving DecidableEq, Repr

namespace Window

/-- The window on a whole source. -/
def ofSource (source : List Char) : Window := ⟨source, 0, 0, source.length⟩

/-- The window on a range of a source; ends outside the source are moved inside. -/
def ofRange (source : List Char) (first last : Nat) : Window :=
  let stop := min last source.length
  let start := min first stop
  ⟨source, start, start, stop⟩

/-- A window on a part of the same source that ends no later than this one. -/
def limit (window : Window) (first last : Nat) : Window :=
  ofRange window.source first (min last window.stop)

/-- Nothing is left to read. -/
def atEnd (window : Window) : Bool := window.stop ≤ window.position

/-- The characters that are left to read. -/
def unread (window : Window) : List Char :=
  (window.source.take window.stop).drop window.position

/-- The character at an offset inside the window. -/
def charAt? (window : Window) (offset : Nat) : Option Char :=
  (window.source.take window.stop)[offset]?

/-- The next character. -/
def peek? (window : Window) : Option Char := window.charAt? window.position

/-- Move the read position. -/
def seek (window : Window) (position : Nat) : Window := { window with position }

/-- Move the read position back, at most to the beginning. -/
def backUp (window : Window) (count : Nat) : Window := window.seek (window.position - count)

/-- Put the mark at the read position. -/
def mark (window : Window) : Window := { window with start := window.position }

/-- Read one character. -/
def next (window : Window) : Option Char × Window :=
  match window.peek? with
  | some c => (some c, window.seek (window.position + 1))
  | none => (none, window)

/-- Read one character if it satisfies the test, and tell whether it did. -/
def eatIf (window : Window) (test : Char → Bool) : Bool × Window :=
  if window.peek?.any test then (true, window.seek (window.position + 1)) else (false, window)

/-- Read characters while they satisfy the test, and tell whether any did. -/
def eatWhile (window : Window) (test : Char → Bool) : Bool × Window :=
  let width := (window.unread.takeWhile test).length
  (width != 0, window.seek (window.position + width))

/-- The characters of the source between two offsets. -/
def between (window : Window) (first last : Nat) : String :=
  String.ofList ((window.source.take last).drop first)

/-- The characters between the mark and the read position. -/
def current (window : Window) : String := window.between window.start window.position

/-- Read the placeholder of a field up to the brace that closes it. On failure the read
position is left at the fault. -/
def placeholder (window : Window) : Except Fault.Cause String × Window :=
  let marked := window.mark
  match FieldMark.placeholder window.unread with
  | .ok width =>
    let after := marked.seek (window.position + width)
    (.ok after.current, after)
  | .error offset => (.error .missingBrace, marked.seek (window.position + offset))

end Window

end Shorthand
