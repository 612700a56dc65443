import Shorthand.Proofs.Refusals
import Shorthand.Proofs.Stylesheet.TokenCover
import Shorthand.Stylesheet.Declaration.Reader

/-!
# Where a stylesheet abbreviation is refused

What the lexer notices, it notices inside of the abbreviation or right behind it. A reader leaves a
suffix of the tokens that it is given, and fails at a place among them.
-/

namespace Shorthand.Stylesheet

/-! ### The lexer -/

/-- An open brace is noticed inside of the input or behind it. -/
theorem scanToken_error {isShort isFirst : Bool} {input : List Char} {distance : Nat}
    (scanned : scanToken isShort isFirst input = .error distance) : distance ≤ input.length := by
  unfold scanToken at scanned
  split at scanned
  · next failed =>
    cases scanned
    exact FieldMark.scan_error failed
  · cases scanned
  · cases scanned

/-- The lexer's faults lie within the source. -/
theorem offset_le_of_tokensFrom {isValue : Bool} {source : List Char} {depth offset : Nat}
    {read : List Token} {input : List Char} {notice : Notice}
    (remains : Remains source offset input)
    (failed : tokensFrom isValue source depth offset read input = .error notice) :
    notice.offset ≤ source.length := by
  fun_induction tokensFrom isValue source depth offset read input with
  | case1 => cases failed
  | case2 depth offset read first rest distance scanned =>
    cases failed
    exact (remains.drop (scanToken_error scanned)).bounded
  | case3 depth offset read first rest more stop merged scanned token ih =>
    exact ih (remains.drop (scanToken_begins scanned).le) failed
  | case4 =>
    cases failed
    exact remains.bounded
  | case5 depth offset read first rest more stop isOpen scanned token ih =>
    exact ih (remains.drop (scanToken_begins scanned).le) failed
  -- An operator that separates two tokens is read in the same step as the first of them.
  | case6 depth offset read first rest kind more scanned stop token separator separates notOpen
      notClosed =>
    rename_i ih
    have behind : Remains source stop (rest.drop more) := remains.drop (scanToken_begins scanned).le
    split at separates
    case isFalse => cases separates
    case isTrue =>
      obtain ⟨operator, behindOperator, same, rfl⟩ := scanOperator_some separates
      have further : rest.drop (more + 1) = behindOperator := by
        rw [← List.drop_drop, same]
        rfl
      rw [same] at behind
      exact ih (further ▸ behind.behind_cons) failed
  | case7 depth offset read first rest kind more scanned stop token _ notOpen notClosed =>
    rename_i ih
    exact ih (remains.drop (scanToken_begins scanned).le) failed
  | case8 =>
    cases failed
    exact remains.bounded

/-! ### What the readers leave -/

section Suffixes

variable {isValue : Bool} {size : Nat} {tokens left : List Token}

/-- A fragment is read from the front of the tokens. -/
theorem readFragment_suffix {skipsBlanks : Bool} {calls : List OpenCall}
    {fragment : OpenFragment} {found : Fragment}
    (read : readFragment skipsBlanks size calls fragment tokens = .ok (found, left)) :
    left <:+ tokens := by
  fun_induction readFragment skipsBlanks size calls fragment tokens with
  | case1 => cases read
  | case2 =>
    cases read
    exact List.suffix_rfl
  | case3 calls fragment token rest skipped ih =>
    exact (ih read).trans (List.suffix_cons token rest)
  | case4 calls fragment token notSkipped name bracket rest isName opening ih =>
    exact (ih read).trans ((List.suffix_cons bracket rest).trans (List.suffix_cons token _))
  | case5 calls fragment token notSkipped name bracket rest isName notOpening ih =>
    exact (ih read).trans (List.suffix_cons token _)
  | case6 calls fragment token notSkipped name isName ih =>
    exact (ih read).trans (List.suffix_cons token _)
  | case7 calls fragment token notSkipped rest noName value isValueToken ih =>
    exact (ih read).trans (List.suffix_cons token _)
  | case8 =>
    cases read
    exact List.suffix_rfl
  | case9 fragment token rest noName noValue call outer closing notSkipped ih =>
    exact (ih read).trans (List.suffix_cons token rest)
  | case10 fragment token rest noName noValue call outer notClosing comma notSkipped ih =>
    exact (ih read).trans (List.suffix_cons token rest)
  | case11 => cases read

/-- The fragments of a declaration are read from the front of the tokens. -/
theorem readFragments_suffix {declaration found : Declaration}
    (read : readFragments isValue size declaration tokens = .ok (found, left)) :
    left <:+ tokens := by
  fun_induction readFragments isValue size declaration tokens with
  | case1 =>
    cases read
    exact List.suffix_rfl
  | case2 declaration token rest important ih => exact (ih read).trans (List.suffix_cons token rest)
  | case3 => cases read
  | case4 declaration token rest notImportant first others behind readFirst ih =>
    exact (ih read).trans (readFragment_suffix readFirst)
  | case5 declaration token rest notImportant readFirst =>
    cases read
    exact List.nil_suffix
  | case6 declaration token rest notImportant next behind readFirst comma ih =>
    exact ((ih read).trans (List.suffix_cons next behind)).trans (readFragment_suffix readFirst)
  | case7 declaration token rest notImportant next behind readFirst notComma =>
    cases read
    exact readFragment_suffix readFirst

/-- The name of a declaration is read from the front of the tokens. -/
theorem readDeclarationName_suffix (isValue : Bool) (tokens : List Token) :
    (readDeclarationName isValue tokens).2 <:+ tokens := by
  cases tokens with
  | nil => exact List.suffix_rfl
  | cons token rest =>
    rw [readDeclarationName]
    split
    · split
      · exact List.suffix_cons token rest
      · exact List.suffix_rfl
    · split
      · exact List.suffix_rfl
      · split
        · exact List.nil_suffix
        · next next behind =>
          split
          · exact List.suffix_rfl
          · split
            · exact (List.suffix_cons next behind).trans (List.suffix_cons token _)
            · exact List.suffix_cons token _

/-- A declaration is read from the front of the tokens. -/
theorem readDeclaration_suffix {found : Declaration}
    (read : readDeclaration isValue size tokens = .ok (found, left)) : left <:+ tokens :=
  (readFragments_suffix read).trans (readDeclarationName_suffix isValue tokens)

end Suffixes

/-! ### Where the readers fail -/

section Failures

variable {isValue : Bool} {size : Nat}

/-- A fragment fails at a token inside of a call, or at the end of the abbreviation. -/
theorem readFragment_fails (skipsBlanks : Bool) (calls : List OpenCall) (fragment : OpenFragment)
    (tokens : List Token) :
    FailsIn Token.span size tokens
      (readFragment skipsBlanks size calls fragment tokens) := by
  fun_induction readFragment skipsBlanks size calls fragment tokens with
  | case1 => exact .here [] _
  | case2 => exact .ok _ _
  | case3 calls fragment token rest skipped ih => exact ih.behind (List.suffix_cons token rest)
  | case4 calls fragment token notSkipped name bracket rest isName opening ih =>
    exact ih.behind ((List.suffix_cons bracket rest).trans (List.suffix_cons token _))
  | case5 calls fragment token notSkipped name bracket rest isName notOpening ih =>
    exact ih.behind (List.suffix_cons token _)
  | case6 calls fragment token notSkipped name isName ih =>
    exact ih.behind (List.suffix_cons token _)
  | case7 calls fragment token notSkipped rest noName value isValueToken ih =>
    exact ih.behind (List.suffix_cons token _)
  | case8 => exact .ok _ _
  | case9 fragment token rest noName noValue call outer closing notSkipped ih =>
    exact ih.behind (List.suffix_cons token rest)
  | case10 fragment token rest noName noValue call outer notClosing comma notSkipped ih =>
    exact ih.behind (List.suffix_cons token rest)
  | case11 fragment token rest => exact .here (token :: rest) _

/-- A declaration fails in one of its fragments. -/
theorem readFragments_fails (declaration : Declaration) (tokens : List Token) :
    FailsIn Token.span size tokens
      (readFragments isValue size declaration tokens) := by
  fun_induction readFragments isValue size declaration tokens with
  | case1 | case5 | case7 => exact .ok _ _
  | case2 declaration token rest important ih => exact ih.behind (List.suffix_cons token rest)
  | case3 declaration token rest notImportant fault failed =>
    exact (readFragment_fails _ _ _ _).passedOn failed
  | case4 declaration token rest notImportant first others behind readFirst ih =>
    exact ih.behind (readFragment_suffix readFirst)
  | case6 declaration token rest notImportant next behind readFirst comma ih =>
    exact ih.behind ((List.suffix_cons next behind).trans (readFragment_suffix readFirst))

/-- With its name a declaration fails where its fragments do. -/
theorem readDeclaration_fails (tokens : List Token) :
    FailsIn Token.span size tokens
      (readDeclaration isValue size tokens) :=
  (readFragments_fails _ _).behind (readDeclarationName_suffix isValue tokens)

/-- The reader of declarations fails at a place of the tokens. -/
theorem readDeclarations_fails (tokens : List Token) :
    FailsIn Token.span size tokens (readDeclarations isValue size tokens) := by
  fun_induction readDeclarations isValue size tokens with
  | case1 | case4 => exact .ok _ _
  | case2 token rest notice failed => exact (readDeclaration_fails _).passedOn failed
  | case3 token rest declaration left readFirst filled notice failed ih =>
    exact (ih.behind (readDeclaration_suffix readFirst)).passedOn failed
  | case5 token rest declaration unfilled readFirst =>
    exact (FailsIn.here [] .unexpectedEnd).behind List.nil_suffix
  | case6 token rest declaration unfilled next left readFirst isSibling _ ih =>
    exact ih.behind ((List.suffix_cons next left).trans (readDeclaration_suffix readFirst))
  | case7 token rest declaration unfilled next left readFirst notSibling =>
    exact (FailsIn.here (next :: left) .unexpectedToken).behind (readDeclaration_suffix readFirst)

end Failures

end Shorthand.Stylesheet
