import Shorthand.Markup.Unrolling
import Shorthand.Proofs.Markup.Statement.Contents

/-!
# Numbers that are too wide

A number is padded to as many digits as it has dollar signs, and the digits are counted in 16
bits. A source without a run of more dollar signs than that is read as `nodes` says. Otherwise
the program stops exactly if its tokens have such a number and write statements, since every
token with content is kept and every statement is unrolled at least once.
-/

namespace Shorthand.Markup

/-- More dollar signs follow one another than a number can have digits. -/
def HasWideRun (text : List Char) : Prop := List.replicate (digitLimit + 1) '$' <:+: text

namespace HasWideRun

variable {front rest text : List Char}

/-- Other characters in front make no run wider. -/
theorem append_iff (others : '$' ∉ front) : HasWideRun (front ++ rest) ↔ HasWideRun rest := by
  induction front with
  | nil => rfl
  | cons c front ih =>
    rw [List.mem_cons, not_or] at others
    have beginsNone : ¬ List.replicate (digitLimit + 1) '$' <+: c :: (front ++ rest) :=
      fun begins => others.1 (List.cons_prefix_cons.mp begins).1
    rw [HasWideRun, List.cons_append, List.infix_cons_iff, or_iff_right beginsNone]
    exact ih others.2

/-- A whole run in front is too wide, or one behind it is. -/
theorem dollars_iff (size : Nat) (stops : rest.head? ≠ some '$') :
    HasWideRun (List.replicate size '$' ++ rest) ↔ digitLimit < size ∨ HasWideRun rest := by
  induction size with
  | zero => simp [HasWideRun]
  | succ size ih =>
    have begins : List.replicate (digitLimit + 1) '$' <+: List.replicate (size + 1) '$' ++ rest ↔
        digitLimit ≤ size := by
      constructor
      · intro isPrefix
        by_contra shorter
        obtain ⟨more, isMore⟩ := Nat.exists_eq_add_of_lt (Nat.lt_of_not_le shorter)
        rw [isMore, show size + more + 1 + 1 = (size + 1) + (more + 1) by omega,
          List.replicate_add, List.prefix_append_right_inj] at isPrefix
        obtain ⟨behind, rfl⟩ := isPrefix
        exact stops rfl
      · intro inside
        have fits : digitLimit + 1 ≤ size + 1 := Nat.succ_le_succ inside
        have whole := List.replicate_add (digitLimit + 1) (size - digitLimit) '$'
        rw [show digitLimit + 1 + (size - digitLimit) = size + 1 by omega] at whole
        rw [whole, List.append_assoc]
        exact List.prefix_append _ _
    have whole : HasWideRun (List.replicate (size + 1) '$' ++ rest) ↔
        digitLimit ≤ size ∨ HasWideRun (List.replicate size '$' ++ rest) := by
      rw [← begins]
      exact List.infix_cons_iff
    rw [whole, ih, ← or_assoc, Nat.lt_succ_iff, or_iff_left_of_imp Nat.le_of_lt]

/-- A run by itself. -/
theorem replicate_iff (size : Nat) :
    HasWideRun (List.replicate size '$') ↔ digitLimit < size := by
  have none : ¬ HasWideRun [] := by
    rw [HasWideRun, List.infix_nil]
    exact List.cons_ne_nil _ _
  have alone : HasWideRun (List.replicate size '$' ++ []) ↔ digitLimit < size ∨ HasWideRun [] :=
    dollars_iff size (by simp)
  rwa [List.append_nil, or_iff_left none] at alone

/-- A short text has no room for a run that is too wide. -/
theorem not_of_length (short : text.length ≤ digitLimit) : ¬ HasWideRun text := fun wide => by
  have fits := wide.length_le
  rw [List.length_replicate] at fits
  omega

end HasWideRun

/-- A number that is too wide is written with a run that is too wide. -/
theorem Token.Kind.WrittenAs.hasWideRun {kind : Token.Kind} {text : List Char}
    (written : kind.WrittenAs text) (wide : kind.isTooWide) : HasWideRun text := by
  cases written with
  | number =>
    exact (HasWideRun.replicate_iff _).mpr (of_decide_eq_true wide)
  | numberFrom =>
    exact (HasWideRun.dollars_iff _ (by simp)).mpr (.inl (of_decide_eq_true wide))
  | _ => cases wide

/-- The tokens of a source without a wide run have no number that is too wide. -/
theorem tokens_narrow {source : String} {found : List Token} (read : tokens source = .ok found)
    (narrow : ¬ HasWideRun source.toList) : ∀ token ∈ found, token.kind.isTooWide = false := by
  intro token member
  refine Bool.eq_false_iff.mpr fun wide => narrow ?_
  have covered := tokensFrom_cover (mapError_within_eq_ok_iff.mp read) (.start source.toList)
  have isPiece : token.span.piece source.toList <:+: source.toList :=
    (List.drop_suffix _ _).isInfix.trans (List.take_prefix _ _).isInfix
  exact ((covered.2 token member).hasWideRun wide).trans isPiece

/-! ### Numbers of statements -/

/-- A number is content. -/
theorem Token.isNamePart_of_wide {token : Token} (wide : token.kind.isTooWide) :
    token.isNamePart := by
  unfold Token.Kind.isTooWide at wide
  split at wide
  case h_1 isNumber => rw [Token.isNamePart, isNumber]
  case h_2 => cases wide

/-- The numbers of an element are all written: no mark implies one. -/
theorem Head.exists_wide_iff (head : Head) :
    (∃ token ∈ head.tokens, token.kind.isTooWide) ↔ ∃ token ∈ head.own, token.kind.isTooWide := by
  have notImplied {token : Token} (wide : token.kind.isTooWide) : token.isImplied = false := by
    refine Bool.eq_false_iff.mpr fun isImplied => ?_
    simp only [Token.isImplied, Bool.or_eq_true, decide_eq_true_eq] at isImplied
    obtain rfl | rfl := isImplied <;> cases wide
  have same {token : Token} (wide : token.kind.isTooWide) :
      token ∈ head.tokens ↔ token ∈ head.own := by
    simp [Head.tokens, Head.own, AttributeTokens.tokens, AttributeTokens.own, notImplied wide,
      or_comm]
  constructor
  · rintro ⟨token, member, wide⟩
    exact ⟨token, (same wide).mp member, wide⟩
  · rintro ⟨token, member, wide⟩
    exact ⟨token, (same wide).mpr member, wide⟩

/-- Statements have a number that is too wide exactly if their tokens have one. -/
theorem hasWideNumber_iff {jsx : Bool} {source : String} {found : List Statement}
    (read : statements jsx source = .ok found) :
    ∃ written, tokens source = .ok written ∧
      (hasWideNumber found ↔ ∃ token ∈ written, token.kind.isTooWide) := by
  obtain ⟨written, lexed, readAll⟩ := statements_finds read
  have tiles := (tokensFrom_cover (mapError_within_eq_ok_iff.mp lexed) (.start source.toList)).1
  obtain ⟨heads, same, takesHeads⟩ := readStatements_takes (allWritten_of_tile tiles) readAll
  have isHeads : headsAll found = heads := same
  subst isHeads
  obtain ⟨piece, whole, dropped, all, without⟩ := takesHeads.takes
  rw [List.append_nil] at whole
  subst whole
  have inHeads : hasWideNumber found ↔
      ∃ token ∈ ownTokens found, token.kind.isTooWide := by
    simp only [hasWideNumber, List.any_eq_true, Head.exists_wide_iff, ownTokens, List.mem_flatMap]
    constructor
    · rintro ⟨head, member, token, isOwn, wide⟩
      exact ⟨token, ⟨head, member, isOwn⟩, wide⟩
    · rintro ⟨token, ⟨head, member, isOwn⟩, wide⟩
      exact ⟨head, member, token, isOwn, wide⟩
  refine ⟨written, lexed, inHeads.trans ⟨?_, ?_⟩⟩
  · rintro ⟨token, isOwn, wide⟩
    exact ⟨token, all.mem_iff.mpr (List.mem_append_left dropped isOwn), wide⟩
  · rintro ⟨token, member, wide⟩
    refine ⟨token, (List.mem_append.mp (all.mem_iff.mp member)).resolve_right fun isDropped => ?_,
      wide⟩
    have content := Token.isNamePart_of_wide wide
    rw [without token isDropped] at content
    cases content

/-! ### Sources -/

/-- Where all numbers can be written, the program does not stop. -/
theorem parse_written (options : ReadOptions) {source : String} {found : List Statement}
    (read : statements options.jsx source = .ok found) (noneWide : ¬ hasWideNumber found) :
    parse options source = (nodes options source).mapError .fault := by
  simp [parse, nodes, read, noneWide, bind, Except.bind, pure, Except.pure, Except.mapError]

/-- Without a wide run, the program stops nowhere: it finds the nodes or a fault. -/
theorem parse_narrow (options : ReadOptions) {source : String}
    (narrow : ¬ HasWideRun source.toList) :
    parse options source = (nodes options source).mapError .fault := by
  cases read : statements options.jsx source with
  | error fault => simp [parse, nodes, read, bind, Except.bind, Except.mapError]
  | ok found =>
    obtain ⟨written, lexed, same⟩ := hasWideNumber_iff read
    refine parse_written options read fun wide => ?_
    obtain ⟨token, member, isTooWide⟩ := same.mp wide
    rw [tokens_narrow lexed narrow token member] at isTooWide
    cases isTooWide

/-- The program stops exactly at statements with a token that is too wide. -/
theorem parse_eq_crash_iff (options : ReadOptions) (source : String) :
    parse options source = .error .crash ↔
      (∃ found, statements options.jsx source = .ok found) ∧
      ∃ written, tokens source = .ok written ∧ ∃ token ∈ written, token.kind.isTooWide := by
  cases read : statements options.jsx source with
  | error fault => simp [parse, read]
  | ok found =>
    obtain ⟨written, lexed, same⟩ := hasWideNumber_iff read
    simp [parse, read, lexed, ← same]

end Shorthand.Markup
