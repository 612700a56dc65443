/-!
# Places of tokens

A token covers a span of its source. Where it is recognised at the front of some input it is a
piece, of which only the width is known.
-/

namespace Shorthand

/-- The offsets from `start` up to, but not including, `stop`. -/
structure Span where
  start : Nat
  stop : Nat
  deriving DecidableEq, Repr

/-- A token at the front of the input and the number of characters it covers. -/
structure Piece (Kind : Type) where
  kind : Kind
  width : Nat
  deriving DecidableEq, Repr

end Shorthand
