import Shorthand.Stylesheet.Declaration.Reader

/-!
# Declarations hold the contents of their tokens

A token has content unless it is a bracket, an operator or a blank. Reading moves every content
from the tokens into one declaration: at any moment what the open calls and the fragment hold,
followed by the contents still to be read, is the same list.
-/

namespace Shorthand.Stylesheet

/-- Brackets, operators and blanks only put contents apart. -/
def Token.Kind.isContent : Token.Kind → Bool
  | .bracket _ | .operator _ | .whiteSpace => false
  | _ => true

/-- The kinds of the tokens that have content. -/
def contentsOfTokens (tokens : List Token) : List Token.Kind :=
  (tokens.map Token.kind).filter Token.Kind.isContent

mutual

/-- The contents of a value token; a call is its name and its arguments. -/
def ValueToken.contents : ValueToken → List Token.Kind
  | .literal value => [.literal value]
  | .customProperty value => [.customProperty value]
  | .number value raw unit => [.number value raw unit]
  | .color color => [.color color]
  | .quoted value isSingle => [.quoted value isSingle]
  | .field index name _ => [.field index name]
  | .call name arguments => .literal name :: contentsOfFragments arguments

/-- The contents of value tokens from first to last. -/
def contentsOfFragment : List ValueToken → List Token.Kind
  | [] => []
  | token :: rest => token.contents ++ contentsOfFragment rest

/-- The contents of fragments or arguments from first to last. -/
def contentsOfFragments : List (List ValueToken) → List Token.Kind
  | [] => []
  | fragment :: rest => contentsOfFragment fragment ++ contentsOfFragments rest

end

/-- The contents of a declaration: its name and its fragments. -/
def Declaration.contents (declaration : Declaration) : List Token.Kind :=
  declaration.name.toList.map Token.Kind.literal ++ contentsOfFragments declaration.fragments

/-- What open calls hold: each stands behind what the fragment around it holds. -/
def contentsOfCalls : List OpenCall → List Token.Kind
  | [] => []
  | call :: outer =>
    contentsOfCalls outer ++ contentsOfFragment call.around.read ++
      .literal call.name :: contentsOfFragments call.arguments

/-! ### Contents of what is put together -/

/-- A token with content adds its kind. -/
theorem contentsOfTokens_content {token : Token} (rest : List Token)
    (content : token.kind.isContent = true) :
    contentsOfTokens (token :: rest) = token.kind :: contentsOfTokens rest := by
  simp [contentsOfTokens, content]

/-- A token without content adds nothing. -/
theorem contentsOfTokens_apart {token : Token} (rest : List Token)
    (noContent : token.kind.isContent = false) :
    contentsOfTokens (token :: rest) = contentsOfTokens rest := by
  simp [contentsOfTokens, noContent]

/-- The contents of a fragment are those of its pieces. -/
theorem contentsOfFragment_append (front rest : List ValueToken) :
    contentsOfFragment (front ++ rest) = contentsOfFragment front ++ contentsOfFragment rest := by
  induction front with
  | nil => rfl
  | cons token front ih => simp [contentsOfFragment, ih]

/-- The contents of fragments are those of each of them. -/
theorem contentsOfFragments_append (front rest : List (List ValueToken)) :
    contentsOfFragments (front ++ rest) =
      contentsOfFragments front ++ contentsOfFragments rest := by
  induction front with
  | nil => rfl
  | cons fragment front ih => simp [contentsOfFragments, ih]

/-- A token that is pushed stands behind what a fragment holds. -/
@[simp] theorem contentsOfFragment_push (fragment : OpenFragment) (token : ValueToken)
    (stop : Nat) :
    contentsOfFragment (fragment.push token stop).read =
      contentsOfFragment fragment.read ++ token.contents := by
  simp [OpenFragment.push, contentsOfFragment_append, contentsOfFragment]

/-- An argument without tokens has no contents that could be lost. -/
theorem contentsOfFragments_addArgument (call : OpenCall) (argument : Fragment) :
    contentsOfFragments (call.addArgument argument).arguments =
      contentsOfFragments call.arguments ++ contentsOfFragment argument := by
  cases argument with
  | nil => simp [OpenCall.addArgument, contentsOfFragment]
  | cons token rest =>
    simp [OpenCall.addArgument, contentsOfFragments_append, contentsOfFragments]

/-- A complete argument stands behind what its call holds. -/
theorem contentsOfCalls_addArgument (call : OpenCall) (argument : Fragment)
    (outer : List OpenCall) :
    contentsOfCalls (call.addArgument argument :: outer) =
      contentsOfCalls (call :: outer) ++ contentsOfFragment argument := by
  have around : (call.addArgument argument).around = call.around ∧
      (call.addArgument argument).name = call.name := by
    unfold OpenCall.addArgument
    split <;> exact ⟨rfl, rfl⟩
  simp [contentsOfCalls, around, contentsOfFragments_addArgument]

/-- A call that is closed stands in the fragment around it with all its contents. -/
theorem contentsOfFragment_close (call : OpenCall) (argument : Fragment) (stop : Nat)
    (outer : List OpenCall) :
    contentsOfCalls outer ++ contentsOfFragment (call.close argument stop).read =
      contentsOfCalls (call :: outer) ++ contentsOfFragment argument := by
  rw [← contentsOfCalls_addArgument]
  simp [OpenCall.close, contentsOfCalls, ValueToken.contents]

/-- At the end all open calls are closed around what they hold. -/
theorem contentsOfFragment_closeAll (argument : Fragment) (calls : List OpenCall) :
    contentsOfFragment (OpenCall.closeAll argument calls) =
      contentsOfCalls calls ++ contentsOfFragment argument := by
  induction calls generalizing argument with
  | nil => rfl
  | cons call outer ih => rw [OpenCall.closeAll, ih, contentsOfFragment_close]

/-! ### Tokens with and without content -/

/-- A token that stands for a value by itself has content, and keeps it. -/
theorem content_of_valueToken? {fragment : OpenFragment} {token : Token} {value : ValueToken}
    (stands : valueToken? fragment token = some value) :
    token.kind.isContent = true ∧ value.contents = [token.kind] := by
  unfold valueToken? at stands
  split at stands
  all_goals cases stands
  all_goals
    rename_i isKind
    simp [isKind, Token.Kind.isContent, ValueToken.contents]

/-- The name of a call is a literal. -/
theorem content_of_callName? {token : Token} {name : String}
    (named : callName? token = some name) :
    token.kind = .literal name ∧ token.kind.isContent = true := by
  unfold callName? at named
  split at named
  · rename_i isLiteral
    cases named
    simp [isLiteral, Token.Kind.isContent]
  · cases named

/-- Operators have no content. -/
theorem noContent_of_isOperator {operator : Operator} {token : Token}
    (isOperator : token.isOperator operator = true) : token.kind.isContent = false := by
  cases kind : token.kind <;> simp_all [Token.isOperator, Token.Kind.isContent]

/-- Delimiters have no content. -/
theorem noContent_of_isDelimiter {token : Token} (delimiter : token.isDelimiter = true) :
    token.kind.isContent = false := by
  rw [Token.isDelimiter, Bool.or_eq_true] at delimiter
  exact delimiter.elim noContent_of_isOperator noContent_of_isOperator

/-- White space has no content. -/
theorem noContent_of_isWhiteSpace {token : Token} (blank : token.isWhiteSpace = true) :
    token.kind.isContent = false := by
  cases kind : token.kind <;> simp_all [Token.isWhiteSpace, Token.Kind.isContent]

/-- Brackets have no content. -/
theorem noContent_of_isBracket {isOpen : Bool} {token : Token}
    (isBracket : token.isBracket isOpen = true) : token.kind.isContent = false := by
  cases kind : token.kind <;> simp_all [Token.isBracket, Token.Kind.isContent]

/-! ### Reading -/

/-- A fragment holds what the open calls held, and the contents of the tokens it took. -/
theorem contents_readFragment {skipsBlanks : Bool} {size : Nat} {calls : List OpenCall}
    {fragment : OpenFragment} {tokens left : List Token} {found : Fragment}
    (read : readFragment skipsBlanks size calls fragment tokens = .ok (found, left)) :
    contentsOfFragment found ++ contentsOfTokens left =
      contentsOfCalls calls ++ contentsOfFragment fragment.read ++ contentsOfTokens tokens := by
  -- Contents are kept together in the open calls, the fragment and the tokens that are left; a step
  -- moves one of them from the right to the left.
  fun_induction readFragment skipsBlanks size calls fragment tokens with
  | case1 => cases read
  | case2 calls fragment =>
    cases read
    rw [contentsOfFragment_closeAll]
  | case3 calls fragment token rest skipped ih =>
    have noContent : token.kind.isContent = false := by
      rw [Bool.or_eq_true, Bool.and_eq_true] at skipped
      obtain delimiter | ⟨blank, -⟩ := skipped
      · exact noContent_of_isDelimiter delimiter
      · exact noContent_of_isWhiteSpace blank
    rw [ih read, contentsOfTokens_apart rest noContent]
    rfl
  | case4 calls fragment token _ name bracket rest isName opening ih =>
    obtain ⟨isLiteral, content⟩ := content_of_callName? isName
    rw [ih read, contentsOfTokens_content _ content,
      contentsOfTokens_apart rest (noContent_of_isBracket opening), isLiteral]
    simp [contentsOfCalls, contentsOfFragments, contentsOfFragment, OpenFragment.empty]
  | case5 calls fragment token _ name bracket rest isName _ ih =>
    obtain ⟨isLiteral, content⟩ := content_of_callName? isName
    rw [ih read, contentsOfTokens_content _ content, isLiteral]
    simp [ValueToken.contents]
  | case6 calls fragment token _ name isName ih =>
    obtain ⟨isLiteral, content⟩ := content_of_callName? isName
    rw [ih read, contentsOfTokens_content _ content, isLiteral]
    simp [ValueToken.contents]
  | case7 calls fragment token _ rest _ value stands ih =>
    obtain ⟨content, same⟩ := content_of_valueToken? stands
    rw [ih read, contentsOfTokens_content rest content]
    simp [same]
  | case8 => cases read; rfl
  | case9 fragment token rest _ _ call outer closing _ ih =>
    rw [Bool.and_eq_true] at closing
    rw [ih read, contentsOfFragment_close,
      contentsOfTokens_apart rest (noContent_of_isBracket closing.1)]
  | case10 fragment token rest _ _ call outer _ comma _ ih =>
    rw [ih read, contentsOfCalls_addArgument,
      contentsOfTokens_apart rest (noContent_of_isOperator comma)]
    simp [OpenFragment.empty, contentsOfFragment]
  | case11 => cases read

/-- Outside of calls a fragment begins with nothing. -/
theorem contents_readFragment_top {skipsBlanks : Bool} {size : Nat} {tokens left : List Token}
    {found : Fragment}
    (read : readFragment skipsBlanks size [] .empty tokens = .ok (found, left)) :
    contentsOfFragment found ++ contentsOfTokens left = contentsOfTokens tokens :=
  contents_readFragment read

/-- Reading fragments moves contents from the tokens into the declaration. -/
theorem contents_readFragments {isValue : Bool} {size : Nat} {declaration found : Declaration}
    {tokens left : List Token}
    (read : readFragments isValue size declaration tokens = .ok (found, left)) :
    found.contents ++ contentsOfTokens left =
      declaration.contents ++ contentsOfTokens tokens := by
  fun_induction readFragments isValue size declaration tokens with
  | case1 => cases read; rfl
  | case2 declaration token rest important ih =>
    rw [ih read, contentsOfTokens_apart rest (noContent_of_isOperator important)]
    rfl
  | case3 => cases read
  | case4 declaration token rest _ first others left' readFirst ih =>
    rw [ih read, ← contents_readFragment_top readFirst]
    simp [Declaration.contents, contentsOfFragments_append, contentsOfFragments]
  | case5 declaration token rest _ readNothing =>
    cases read
    rw [← contents_readFragment_top readNothing]
    rfl
  | case6 declaration token rest _ next left' readNothing comma ih =>
    rw [ih read, ← contents_readFragment_top readNothing,
      contentsOfTokens_apart left' (noContent_of_isOperator comma)]
    rfl
  | case7 declaration token rest _ next left' readNothing _ =>
    cases read
    rw [← contents_readFragment_top readNothing]
    rfl

/-- A name is a literal; the delimiter or the blank that is passed over has no content. -/
theorem contents_readDeclarationName (isValue : Bool) (tokens : List Token) :
    (readDeclarationName isValue tokens).1.toList.map Token.Kind.literal ++
        contentsOfTokens (readDeclarationName isValue tokens).2 =
      contentsOfTokens tokens := by
  fun_cases readDeclarationName isValue tokens with
  | case1 => rfl
  | case2 token rest _ =>
    by_cases blank : token.isWhiteSpace = true
    · simp [blank, contentsOfTokens_apart rest (noContent_of_isWhiteSpace blank)]
    · simp [blank]
  | case3 token rest _ _ => rfl
  | case4 token _ name isName =>
    obtain ⟨isLiteral, content⟩ := content_of_callName? isName
    rw [contentsOfTokens_content _ content, isLiteral]
    rfl
  | case5 token _ name isName next rest _ => rfl
  | case6 token _ name isName next rest _ =>
    obtain ⟨isLiteral, content⟩ := content_of_callName? isName
    rw [contentsOfTokens_content _ content, isLiteral]
    by_cases delimiter : next.isDelimiter = true
    · simp [delimiter, contentsOfTokens_apart rest (noContent_of_isDelimiter delimiter)]
    · simp [delimiter]

/-- Reading a declaration moves contents from the tokens into it. -/
theorem contents_readDeclaration {isValue : Bool} {size : Nat} {found : Declaration}
    {tokens left : List Token}
    (read : readDeclaration isValue size tokens = .ok (found, left)) :
    found.contents ++ contentsOfTokens left = contentsOfTokens tokens := by
  rw [contents_readFragments read, ← contents_readDeclarationName isValue tokens]
  simp [Declaration.contents, contentsOfFragments]

/-- A declaration that is left out has no contents. -/
theorem contents_of_not_isFilled {declaration : Declaration}
    (notFilled : ¬ declaration.isFilled = true) : declaration.contents = [] := by
  simp only [Declaration.isFilled, Bool.or_eq_true, not_or, Bool.not_eq_true,
    Option.isSome_eq_false_iff, Option.isNone_iff_eq_none, Bool.not_eq_false',
    List.isEmpty_iff] at notFilled
  obtain ⟨⟨noName, noFragments⟩, -⟩ := notFilled
  simp [Declaration.contents, noName, noFragments, contentsOfFragments]

/-- All declarations together hold the contents of all tokens. -/
theorem contents_readDeclarations {isValue : Bool} {size : Nat} {found : List Declaration}
    {tokens : List Token} (read : readDeclarations isValue size tokens = .ok found) :
    found.flatMap Declaration.contents = contentsOfTokens tokens := by
  fun_induction readDeclarations isValue size tokens generalizing found with
  | case1 => cases read; rfl
  | case2 => cases read
  | case3 => cases read
  | case4 token rest declaration left readFirst _ others readOthers ih =>
    cases read
    rw [List.flatMap_cons, ih readOthers, contents_readDeclaration readFirst]
  | case5 => cases read
  | case6 token rest declaration isEmpty next left readNothing sibling _ ih =>
    rw [ih read, ← contents_readDeclaration readNothing, contents_of_not_isFilled isEmpty,
      contentsOfTokens_apart left (noContent_of_isOperator sibling)]
    rfl
  | case7 => cases read

/-! ### Declarations that say something -/

/-- A fragment that is not empty has contents. -/
theorem contentsOfFragment_ne_nil {fragment : List ValueToken} (filled : fragment ≠ []) :
    contentsOfFragment fragment ≠ [] := by
  cases fragment with
  | nil => exact absurd rfl filled
  | cons token rest => cases token <;> simp [contentsOfFragment, ValueToken.contents]

/-- Reading adds only fragments that hold a token. -/
theorem filled_readFragments {isValue : Bool} {size : Nat} {declaration found : Declaration}
    {tokens left : List Token}
    (read : readFragments isValue size declaration tokens = .ok (found, left))
    (filled : [] ∉ declaration.fragments) : [] ∉ found.fragments := by
  fun_induction readFragments isValue size declaration tokens with
  | case1 => cases read; exact filled
  | case2 _ _ _ _ ih => exact ih read filled
  | case3 => cases read
  | case4 declaration _ _ _ first others _ _ ih => exact ih read (by simp [filled])
  | case5 => cases read; exact filled
  | case6 _ _ _ _ _ _ _ _ ih => exact ih read filled
  | case7 => cases read; exact filled

/-- A declaration that is kept holds a content or the mark of importance. -/
theorem says_readDeclaration {isValue : Bool} {size : Nat} {found : Declaration}
    {tokens left : List Token}
    (read : readDeclaration isValue size tokens = .ok (found, left))
    (isFilled : found.isFilled = true) :
    found.contents ≠ [] ∨ found.isImportant = true := by
  have filled := filled_readFragments read List.not_mem_nil
  simp only [Declaration.isFilled, Bool.or_eq_true] at isFilled
  obtain (named | fragments) | important := isFilled
  · obtain ⟨name, isName⟩ := Option.isSome_iff_exists.mp named
    exact .inl (by simp [Declaration.contents, isName])
  · cases isFragments : found.fragments with
    | nil => simp [isFragments] at fragments
    | cons first rest =>
      have holds : contentsOfFragment first ≠ [] :=
        contentsOfFragment_ne_nil fun empty => filled (by simp [isFragments, empty])
      exact .inl (by simp [Declaration.contents, isFragments, contentsOfFragments, holds])
  · exact .inr important

/-- Every declaration that is read has contents or the mark of importance. -/
theorem says_readDeclarations {isValue : Bool} {size : Nat} {found : List Declaration}
    {tokens : List Token} (read : readDeclarations isValue size tokens = .ok found) :
    ∀ declaration ∈ found, declaration.contents ≠ [] ∨ declaration.isImportant = true := by
  fun_induction readDeclarations isValue size tokens generalizing found with
  | case1 => cases read; simp
  | case2 => cases read
  | case3 => cases read
  | case4 _ _ declaration left readFirst isFilled others readOthers ih =>
    cases read
    exact List.forall_mem_cons.mpr ⟨says_readDeclaration readFirst isFilled, ih readOthers⟩
  | case5 => cases read
  | case6 _ _ _ _ _ _ _ _ _ ih => exact ih read
  | case7 => cases read

/-- The declarations of an abbreviation hold, in order, exactly the contents of its tokens, and
each of them says something. -/
theorem contents_declarations {isValue : Bool} {source : String} {found : List Declaration}
    (read : declarations isValue source = .ok found) :
    ∃ written, tokens isValue source = .ok written ∧
      found.flatMap Declaration.contents = contentsOfTokens written ∧
      ∀ declaration ∈ found, declaration.contents ≠ [] ∨ declaration.isImportant = true := by
  unfold declarations at read
  cases readTokens : tokens isValue source with
  | error fault =>
    rw [readTokens] at read
    cases read
  | ok written =>
    rw [readTokens] at read
    have readAll := mapError_within_eq_ok_iff.mp read
    exact ⟨written, rfl, contents_readDeclarations readAll, says_readDeclarations readAll⟩

/-- A call in a call, an argument and a fragment that are left out, a mark alone, and a call that
is not closed. -/
theorem contents_declarations_nested :
    ∃ found, declarations false "p-a(b,,f(#t)'x'),,c!+!+f('y" = .ok found ∧
      found.map Declaration.name = [some "p", none, none] ∧
      ∃ written, tokens false "p-a(b,,f(#t)'x'),,c!+!+f('y" = .ok written ∧
        found.flatMap Declaration.contents = contentsOfTokens written ∧
        ∀ declaration ∈ found, declaration.contents ≠ [] ∨ declaration.isImportant = true := by
  have names : (declarations false "p-a(b,,f(#t)'x'),,c!+!+f('y").toOption.map
      (List.map Declaration.name) = some [some "p", none, none] := by decide +kernel
  cases read : declarations false "p-a(b,,f(#t)'x'),,c!+!+f('y" with
  | error fault => simp [read, Except.toOption] at names
  | ok found =>
    rw [read] at names
    exact ⟨found, rfl, Option.some.inj names, contents_declarations read⟩

end Shorthand.Stylesheet
