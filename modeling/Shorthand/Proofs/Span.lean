import Shorthand.Span

/-!
# Spans that cover a source

The spans of a token list `Tile` a source when each begins where the one before it ends and
none is empty. The characters of a source that a span covers are its piece.
-/

namespace Shorthand

/-- The characters of a source that a span covers. -/
def Span.piece (span : Span) (source : List Char) : List Char :=
  (source.take span.stop).drop span.start

/-- The first characters of an input, `width` of them, have a property. -/
def Begins (width : Nat) (property : List Char → Prop) (input : List Char) : Prop :=
  ∃ text rest, input = text ++ rest ∧ text.length = width ∧ property text

/-- What begins an input is not longer than it. -/
theorem Begins.le {width : Nat} {property : List Char → Prop} {input : List Char}
    (begins : Begins width property input) : width ≤ input.length := by
  obtain ⟨text, rest, rfl, rfl, -⟩ := begins
  simp

/-- An input is what remains of a source from an offset on. -/
structure Remains (source : List Char) (offset : Nat) (input : List Char) : Prop where
  bounded : offset ≤ source.length
  left : source.drop offset = input

namespace Remains

/-- At its beginning the whole source remains. -/
theorem start (source : List Char) : Remains source 0 source := ⟨Nat.zero_le _, rfl⟩

/-- Less is left than there are characters, and one. -/
theorem length_lt {source input : List Char} {offset : Nat}
    (remains : Remains source offset input) : input.length < source.length + 1 := by
  rw [← remains.left, List.length_drop]
  exact Nat.lt_succ_of_le (Nat.sub_le _ _)

/-- Nothing remains at the end of the source only. -/
theorem stop {source : List Char} {offset : Nat} (remains : Remains source offset []) :
    offset = source.length :=
  Nat.le_antisymm remains.bounded (List.drop_eq_nil_iff.mp remains.left)

/-- What is passed over is a piece of the source. -/
theorem pass {source input : List Char} {offset width : Nat} {property : List Char → Prop}
    (remains : Remains source offset input) (begins : Begins width property input) :
    Remains source (offset + width) (input.drop width) ∧
      property ((⟨offset, offset + width⟩ : Span).piece source) := by
  obtain ⟨bounded, rfl⟩ := remains
  obtain ⟨text, rest, same, rfl, holds⟩ := begins
  have sizes := congrArg List.length same
  rw [List.length_drop, List.length_append] at sizes
  have piece : (⟨offset, offset + text.length⟩ : Span).piece source = text := by
    rw [Span.piece, List.drop_take, same, Nat.add_sub_cancel_left, List.take_left]
  rw [piece]
  exact ⟨⟨by omega, List.drop_drop.symm⟩, holds⟩

/-- A text in front is the piece that is passed over. -/
theorem behind {source text rest : List Char} {offset : Nat}
    (remains : Remains source offset (text ++ rest)) :
    Remains source (offset + text.length) rest ∧
      (⟨offset, offset + text.length⟩ : Span).piece source = text := by
  have begins : Begins text.length (· = text) (text ++ rest) := ⟨text, rest, rfl, rfl, rfl⟩
  have passed := remains.pass begins
  rwa [List.drop_left] at passed

/-- No more is passed over than is left. -/
theorem drop {source input : List Char} {offset width : Nat}
    (remains : Remains source offset input) (within : width ≤ input.length) :
    Remains source (offset + width) (input.drop width) := by
  have begins : Begins width (fun _ => True) input :=
    ⟨input.take width, input.drop width, (List.take_append_drop width input).symm,
      List.length_take_of_le within, trivial⟩
  exact (remains.pass begins).1

/-- The next character is passed over. -/
theorem behind_cons {source rest : List Char} {c : Char} {offset : Nat}
    (remains : Remains source offset (c :: rest)) : Remains source (offset + 1) rest :=
  remains.drop (Nat.le_add_left 1 rest.length)

end Remains

/-- Spans that are not empty lie side by side from one offset to another. -/
inductive Tile : Nat → List Span → Nat → Prop where
  | nil (offset : Nat) : Tile offset [] offset
  | cons {start stop last : Nat} {rest : List Span} (filled : start < stop)
      (others : Tile stop rest last) : Tile start (⟨start, stop⟩ :: rest) last

namespace Tile

/-- Tiles of neighbouring ranges are tiles of both. -/
theorem append {first between last : Nat} {front rest : List Span}
    (tiles : Tile first front between) (others : Tile between rest last) :
    Tile first (front ++ rest) last := by
  induction tiles with
  | nil => exact others
  | cons filled _ ih => exact cons filled (ih others)

/-- A tiling can be cut between any two spans. -/
theorem cut {first last : Nat} {front rest : List Span} (tiles : Tile first (front ++ rest) last) :
    ∃ between, Tile first front between ∧ Tile between rest last := by
  induction front generalizing first with
  | nil => exact ⟨first, nil first, tiles⟩
  | cons span front ih =>
    cases tiles with
    | cons filled others =>
      obtain ⟨between, tilesFront, tilesRest⟩ := ih others
      exact ⟨between, cons filled tilesFront, tilesRest⟩

/-- One more span behind a tiling. -/
theorem snoc {first start stop : Nat} {front : List Span} (tiles : Tile first front start)
    (filled : start < stop) : Tile first (front ++ [⟨start, stop⟩]) stop :=
  tiles.append (cons filled (nil stop))

/-- No span of a tiling is empty, and none begins before the first one. -/
theorem bounds {start stop : Nat} {spans : List Span} (tiles : Tile start spans stop) :
    ∀ span ∈ spans, start ≤ span.start ∧ span.start < span.stop := by
  induction tiles with
  | nil => exact List.forall_mem_nil _
  | cons filled _ ih =>
    refine List.forall_mem_cons.mpr ⟨⟨Nat.le_refl _, filled⟩, fun span member => ?_⟩
    have further := ih span member
    exact ⟨by omega, further.2⟩

/-- No span of a tiling ends behind the last one. -/
theorem stop_le {start last : Nat} {spans : List Span} (tiles : Tile start spans last) :
    ∀ span ∈ spans, span.stop ≤ last := by
  have reached {start last : Nat} {spans : List Span} (tiles : Tile start spans last) :
      start ≤ last := by
    induction tiles with
    | nil => exact Nat.le_refl _
    | cons filled _ ih => omega
  induction tiles with
  | nil => exact List.forall_mem_nil _
  | cons _ others ih => exact List.forall_mem_cons.mpr ⟨reached others, ih⟩

/-- Every span of a tiling ends before the later ones begin. -/
theorem pairwise {start stop : Nat} {spans : List Span} (tiles : Tile start spans stop) :
    spans.Pairwise fun first second => first.stop ≤ second.start := by
  induction tiles with
  | nil => exact .nil
  | cons _ others ih => exact .cons (fun span member => (others.bounds span member).1) ih

/-- A tiling begins with its first span and ends with its last one. -/
theorem ends {start stop : Nat} {first last : Span} {spans : List Span}
    (tiles : Tile start spans stop) (firstIs : spans.head? = some first)
    (lastIs : spans.getLast? = some last) :
    first.start = start ∧ last.stop = stop ∧ start < stop := by
  induction tiles generalizing first with
  | nil => cases firstIs
  | @cons start next stop rest filled others ih =>
    cases firstIs
    cases rest with
    | nil =>
      cases others
      cases lastIs
      exact ⟨rfl, rfl, filled⟩
    | cons second rest =>
      rw [List.getLast?_cons_cons] at lastIs
      obtain ⟨_, stops, further⟩ := ih rfl lastIs
      exact ⟨rfl, stops, Nat.lt_trans filled further⟩

end Tile

end Shorthand
