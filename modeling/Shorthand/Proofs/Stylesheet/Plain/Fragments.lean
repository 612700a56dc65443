import Shorthand.Proofs.Stylesheet.Plain.Tokens

/-!
# Written fragments are read back

The reader of fragments finds in the tokens of a written value token just that value token,
in any fragment and inside any open calls, and stops behind a written fragment. A field is
glued to the token in front only if their spans meet, and between written tokens a separator
lies; so the spans of the tokens are followed along.
-/

namespace Shorthand.Stylesheet

variable {size : Nat} {calls outer : List OpenCall} {current : OpenCall}
  {fragment : OpenFragment} {tokens rest : List Token} {span : Span} {start stop : Nat}

/-- No bracket opens here, so a literal in front is no call. -/
def Closed (rest : List Token) : Prop := ∀ token ∈ rest.head?, token.isBracket true = false

/-- Tokens are cut where their kinds are. -/
theorem exists_cut {kinds more : List Token.Kind} (same : tokens.map Token.kind = kinds ++ more)
    (tiles : Tile start (tokens.map Token.span) stop) :
    ∃ front behind between, tokens = front ++ behind ∧
      front.map Token.kind = kinds ∧ Tile start (front.map Token.span) between ∧
      behind.map Token.kind = more ∧ Tile between (behind.map Token.span) stop := by
  obtain ⟨front, behind, rfl, sameFront, sameBehind⟩ := List.map_eq_append_iff.mp same
  rw [List.map_append] at tiles
  obtain ⟨between, tilesFront, tilesBehind⟩ := tiles.cut
  exact ⟨front, behind, between, rfl, sameFront, tilesFront, sameBehind, tilesBehind⟩

/-! ### Single steps of the reader -/

/-- A separator is passed over. -/
theorem readFragment_separator (isTop : Bool) (skips : isTop = false → calls ≠ []) :
    readFragment false size calls fragment (⟨separatorKind isTop, span⟩ :: rest) =
      readFragment false size calls fragment.space rest := by
  rw [readFragment.eq_def]
  refine if_pos ?_
  cases isTop with
  | true => rfl
  | false => simpa [separatorKind, Token.isWhiteSpace] using Or.inr (skips rfl)

/-- A literal in front of which no bracket opens is a value. -/
theorem readFragment_letters (name : String) (closed : Closed rest) :
    readFragment false size calls fragment (⟨.literal name, span⟩ :: rest) =
      readFragment false size calls (fragment.push (.literal name) span.stop) rest := by
  rw [readFragment.eq_def]
  refine (if_neg nofun).trans ?_
  cases rest with
  | nil => rfl
  | cons next rest => exact if_neg (Bool.eq_false_iff.mp (closed next rfl))

/-- A token that is a value by itself is added to the fragment. -/
theorem readFragment_value {token : Token} {value : ValueToken}
    (solid : (token.isDelimiter || token.isWhiteSpace) = false)
    (noName : callName? token = none) (isValue : valueToken? fragment token = some value) :
    readFragment false size calls fragment (token :: rest) =
      readFragment false size calls (fragment.push value token.span.stop) rest := by
  rw [readFragment.eq_def]
  have notSkipped : ¬ (token.isDelimiter || (token.isWhiteSpace && (false || !calls.isEmpty))) =
      true := by
    simp only [Bool.or_eq_false_iff] at solid
    simp [solid.1, solid.2]
  simp only [if_neg notSkipped, noName, isValue]

/-- An atom that is not glued is added to the fragment. -/
theorem readFragment_atom (atom : PlainAtom) (unglued : fragment.isGlued span.start = false)
    (closed : Closed rest) :
    readFragment false size calls fragment (⟨atom.kind, span⟩ :: rest) =
      readFragment false size calls (fragment.push atom.meant span.stop) rest := by
  cases atom with
  | keyword name => exact readFragment_letters _ closed
  | number written => exact readFragment_value rfl rfl rfl
  | color written => exact readFragment_value rfl rfl rfl
  | quoted written => exact readFragment_value rfl rfl rfl
  | field written =>
    refine readFragment_value rfl rfl ?_
    simp only [valueToken?, PlainAtom.kind, PlainAtom.meant, unglued]

/-- A literal in front of an opening bracket begins a call. -/
theorem readFragment_opening (name : String) (opening : Span) :
    readFragment false size calls fragment
        (⟨.literal name, span⟩ :: ⟨.bracket true, opening⟩ :: rest) =
      readFragment false size (⟨name, [], fragment⟩ :: calls) .empty rest := by
  rw [readFragment.eq_def]
  exact (if_neg nofun).trans (if_pos rfl)

/-- A closing bracket ends the last argument and the call. -/
theorem readFragment_closing (solid : fragment.isHollow = false) :
    readFragment false size (current :: outer) fragment (⟨.bracket false, span⟩ :: rest) =
      readFragment false size outer (current.close fragment.read span.stop) rest := by
  rw [readFragment.eq_def]
  refine (if_neg nofun).trans (if_pos ?_)
  rw [solid]
  rfl

/-- A comma ends an argument. -/
theorem readFragment_comma :
    readFragment false size (current :: outer) fragment (⟨.operator .comma, span⟩ :: rest) =
      readFragment false size (current.addArgument fragment.read :: outer) .empty rest := by
  rw [readFragment.eq_def]
  exact (if_neg nofun).trans ((if_neg nofun).trans (if_pos rfl))

/-- A mark between fragments or declarations. -/
def IsMark (token : Token) : Prop :=
  token.kind = .operator .comma ∨ token.kind = .operator .important ∨
    token.kind = .operator .sibling

/-- A fragment at the top ends with the input or in front of a mark. -/
theorem readFragment_ends (marks : ∀ token ∈ rest.head?, IsMark token) :
    readFragment false size [] fragment rest = .ok (fragment.read, rest) := by
  cases rest with
  | nil =>
    rw [readFragment]
    simp [OpenCall.closeAll]
  | cons token rest =>
    obtain ⟨kind, span⟩ := token
    rw [readFragment.eq_def]
    obtain rfl | rfl | rfl : kind = _ ∨ kind = _ ∨ kind = _ := marks _ rfl <;>
      exact if_neg nofun

/-! ### Fragments and arguments -/

/-- Behind a gap a token is not glued. -/
theorem isGlued_of_lt (behind : fragment.stop < start) : fragment.isGlued start = false := by
  simp [OpenFragment.isGlued, Nat.ne_of_lt behind]

/-- Tokens that begin with something else than an opening bracket open no call. -/
theorem closed_cons {kind : Token.Kind} {kinds : List Token.Kind} (behind : List Token)
    (same : tokens.map Token.kind = kind :: kinds) (notOpen : kind ≠ .bracket true) :
    Closed (tokens ++ behind) := by
  obtain ⟨⟨found, span⟩, others, rfl, rfl, -⟩ := List.map_eq_cons_iff.mp same
  intro token front
  cases front
  cases found with
  | bracket isOpen =>
    cases isOpen with
    | false => rfl
    | true => exact absurd rfl notOpen
  | _ => rfl

/-- Further values open no call. -/
theorem closed_others {isTop : Bool} {others : List PlainToken} (closed : Closed rest)
    (same : tokens.map Token.kind = othersKinds isTop others) : Closed (tokens ++ rest) := by
  cases others with
  | nil =>
    rw [othersKinds, List.map_eq_nil_iff] at same
    exact same ▸ closed
  | cons first others => exact closed_cons rest same (by cases isTop <;> nofun)

/-- Further arguments open no call. -/
theorem closed_arguments {others : List PlainFragment} (behind : List Token)
    (same : tokens.map Token.kind =
      fragmentsKinds false [.operator .comma] others ++ [.bracket false]) :
    Closed (tokens ++ behind) := by
  cases others with
  | nil => exact closed_cons behind same nofun
  | cons first others => exact closed_cons behind same nofun

/-- A fragment that is meant is not empty. -/
theorem PlainFragment.isHollow_meant (written : PlainFragment) (stop : Nat) (isSpaced : Bool) :
    (⟨written.meant, stop, isSpaced⟩ : OpenFragment).isHollow = false := by
  cases written
  rfl

/-- An argument is added to its call. -/
theorem PlainFragment.addArgument_meant (written : PlainFragment) (call : OpenCall) :
    (call.addArgument written.meant).arguments = call.arguments ++ [written.meant] := by
  cases written
  rfl

/-- An argument that is added to a call changes neither its name nor the fragment around. -/
@[simp] theorem OpenCall.addArgument_around (call : OpenCall) (argument : Fragment) :
    (call.addArgument argument).around = call.around := by
  unfold OpenCall.addArgument
  split <;> rfl

/-- An argument leaves the name of its call. -/
@[simp] theorem OpenCall.addArgument_name (call : OpenCall) (argument : Fragment) :
    (call.addArgument argument).name = call.name := by
  unfold OpenCall.addArgument
  split <;> rfl

mutual

/-- The tokens of a value token are read as it, unless it is glued. -/
theorem PlainToken.reads (token : PlainToken) (calls : List OpenCall) (fragment : OpenFragment)
    (rest : List Token) {tokens : List Token} {start stop : Nat}
    (same : tokens.map Token.kind = token.kinds)
    (tiles : Tile start (tokens.map Token.span) stop) (unglued : fragment.isGlued start = false)
    (closed : Closed rest) :
    readFragment false size calls fragment (tokens ++ rest) =
      readFragment false size calls (fragment.push token.meant stop) rest := by
  cases token with
  | atom atom =>
    simp only [PlainToken.kinds, List.map_eq_cons_iff, List.map_eq_nil_iff] at same
    obtain ⟨⟨kind, span⟩, _, rfl, rfl, rfl⟩ := same
    cases tiles with
    | cons filled others =>
      cases others
      exact readFragment_atom atom unglued closed
  | call name arguments =>
    simp only [PlainToken.kinds, List.cons_append, List.nil_append, List.map_eq_cons_iff] at same
    obtain ⟨⟨kind, span⟩, _, rfl, rfl, ⟨_, bracket⟩, inner, rfl, rfl, sameInner⟩ := same
    cases tiles with
    | cons _ others =>
      cases others with
      | cons _ tilesInner =>
        have read := reads_arguments arguments ⟨String.ofList name.text, [], fragment⟩ calls .empty
          rest (.inl ⟨rfl, rfl⟩) rfl sameInner tilesInner
        exact (readFragment_opening _ _).trans read

/-- The tokens of a fragment are read as it. -/
theorem PlainFragment.reads (isTop : Bool) (written : PlainFragment) (calls : List OpenCall)
    (rest : List Token) {tokens : List Token} {start stop : Nat}
    (skips : isTop = false → calls ≠ []) (same : tokens.map Token.kind = written.kinds isTop)
    (tiles : Tile start (tokens.map Token.span) stop) (closed : Closed rest) :
    ∃ isSpaced, readFragment false size calls .empty (tokens ++ rest) =
      readFragment false size calls ⟨written.meant, stop, isSpaced⟩ rest := by
  cases written with
  | mk first others =>
    rw [PlainFragment.kinds] at same
    obtain ⟨front, behind, between, rfl, sameFirst, tilesFirst, sameOthers, tilesOthers⟩ :=
      exists_cut same tiles
    have readFirst := first.reads calls .empty (behind ++ rest) sameFirst tilesFirst rfl
      (closed_others closed sameOthers)
    obtain ⟨isSpaced, readOthers⟩ := reads_others isTop others calls
      (OpenFragment.empty.push first.meant between) rest skips sameOthers tilesOthers rfl closed
    rw [List.append_assoc, readFirst]
    exact ⟨isSpaced, readOthers⟩

/-- Further tokens of a fragment are read behind their separators. -/
theorem reads_others (isTop : Bool) (others : List PlainToken) (calls : List OpenCall)
    (fragment : OpenFragment) (rest : List Token) {tokens : List Token} {start stop : Nat}
    (skips : isTop = false → calls ≠ []) (same : tokens.map Token.kind = othersKinds isTop others)
    (tiles : Tile start (tokens.map Token.span) stop) (meets : fragment.stop = start)
    (closed : Closed rest) :
    ∃ isSpaced, readFragment false size calls fragment (tokens ++ rest) =
      readFragment false size calls ⟨fragment.read ++ meantTokens others, stop, isSpaced⟩
        rest := by
  cases others with
  | nil =>
    rw [othersKinds, List.map_eq_nil_iff] at same
    subst same
    cases tiles
    subst meets
    refine ⟨fragment.isSpaced, ?_⟩
    rw [meantTokens, List.append_nil, List.nil_append]
  | cons token others =>
    rw [othersKinds, List.singleton_append] at same
    obtain ⟨⟨_, separator⟩, _, rfl, rfl, sameBoth⟩ := List.map_eq_cons_iff.mp same
    cases tiles with
    | @cons _ next _ _ filled tilesBoth =>
      obtain ⟨front, behind, between, rfl, sameToken, tilesToken, sameOthers, tilesOthers⟩ :=
        exists_cut sameBoth tilesBoth
      -- The separator lies between the values, so that they are not glued together.
      have apart : fragment.space.isGlued next = false :=
        isGlued_of_lt (show fragment.stop < next from meets ▸ filled)
      have readToken := token.reads calls fragment.space (behind ++ rest) sameToken tilesToken
        apart (closed_others closed sameOthers)
      obtain ⟨isSpaced, readOthers⟩ := reads_others isTop others calls
        (fragment.space.push token.meant between) rest skips sameOthers tilesOthers rfl closed
      refine ⟨isSpaced, ?_⟩
      rw [List.cons_append, readFragment_separator isTop skips, List.append_assoc, readToken,
        readOthers]
      simp only [OpenFragment.push, OpenFragment.space, meantTokens, List.append_assoc,
        List.singleton_append]

/-- The arguments of a call, with the bracket behind them, are read into the call. In front of
the first one nothing has been read of an argument; a comma ends the argument in front. -/
theorem reads_arguments (arguments : List PlainFragment) (current : OpenCall)
    (outer : List OpenCall) (fragment : OpenFragment) (rest : List Token)
    {leadKinds : List Token.Kind} {tokens : List Token} {start stop : Nat}
    (leads : (leadKinds = [] ∧ fragment = .empty) ∨ leadKinds = [.operator .comma])
    (solid : fragment.isHollow = false)
    (same : tokens.map Token.kind = fragmentsKinds false leadKinds arguments ++ [.bracket false])
    (tiles : Tile start (tokens.map Token.span) stop) :
    readFragment false size (current :: outer) fragment (tokens ++ rest) =
      readFragment false size outer
        (current.around.push (.call current.name
          ((current.addArgument fragment.read).arguments ++ meantFragments arguments)) stop)
        rest := by
  -- An argument is complete when the next comma or the bracket is read, which is why the lead of
  -- the first one may be missing.
  cases arguments with
  | nil =>
    simp only [fragmentsKinds, List.nil_append, List.map_eq_cons_iff, List.map_eq_nil_iff] at same
    obtain ⟨⟨_, bracket⟩, _, rfl, rfl, rfl⟩ := same
    cases tiles with
    | cons filled others =>
      cases others
      refine (readFragment_closing solid).trans ?_
      simp only [OpenCall.close, OpenCall.addArgument_around, OpenCall.addArgument_name,
        meantFragments, List.append_nil]
      rfl
  | cons first others =>
    rw [fragmentsKinds, List.append_assoc, List.append_assoc] at same
    obtain ⟨lead, _, _, rfl, sameLead, -, sameBoth, tilesBoth⟩ := exists_cut same tiles
    obtain ⟨front, behind, between, rfl, sameFirst, tilesFirst, sameOthers, tilesOthers⟩ :=
      exists_cut sameBoth tilesBoth
    have ends : readFragment false size (current :: outer) fragment
        (lead ++ (front ++ (behind ++ rest))) =
          readFragment false size (current.addArgument fragment.read :: outer) .empty
            (front ++ (behind ++ rest)) := by
      obtain ⟨rfl, rfl⟩ | rfl := leads
      · rw [List.map_eq_nil_iff.mp sameLead]
        rfl
      · obtain ⟨⟨_, comma⟩, _, rfl, rfl, none⟩ := List.map_eq_cons_iff.mp sameLead
        rw [List.map_eq_nil_iff.mp none]
        exact readFragment_comma
    obtain ⟨isSpaced, readFirst⟩ := first.reads false (current.addArgument fragment.read :: outer)
      (behind ++ rest) nofun sameFirst tilesFirst (closed_arguments rest sameOthers)
    have readOthers := reads_arguments others (current.addArgument fragment.read) outer
      ⟨first.meant, between, isSpaced⟩ rest (.inr rfl) (first.isHollow_meant _ _) sameOthers
      tilesOthers
    rw [List.append_assoc, List.append_assoc, ends, readFirst, readOthers]
    simp only [OpenCall.addArgument_around, OpenCall.addArgument_name, first.addArgument_meant,
      meantFragments, List.append_assoc, List.singleton_append]

end

end Shorthand.Stylesheet
