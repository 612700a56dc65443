import Shorthand.Proofs.Reading
import Shorthand.Proofs.Stylesheet.Refusals

/-!
# The reader of a stylesheet abbreviation

The readers of declarations as programs that move a read position over the whole list of tokens.
Each `run_` lemma says that no index is out of range and that the same is found as by the reader of
what is left; `outcome_declarations` says so of the whole.
-/

namespace Shorthand.Stylesheet.Reader

open Reading

/-- The end of the token before the read position. -/
def lastStop : Reading Token Nat := return ((← previous?).map fun token => token.span.stop).getD 0

/-- Read a fragment inside of open calls, up to the first token that cannot belong to it. -/
def fragmentFrom (skipsBlanks : Bool) (size : Nat) (calls : List OpenCall)
    (fragment : OpenFragment) : Nat → Reading Token Fragment
  | 0 => exhausted
  | steps + 1 => do
    match ← peek? with
    | none =>
      if fragment.isHollow && !calls.isEmpty then
        refuse Token.span size .unexpectedToken
      else
        return OpenCall.closeAll fragment.read calls
    | some token =>
      if token.isDelimiter || (token.isWhiteSpace && (skipsBlanks || !calls.isEmpty)) then
        advance
        fragmentFrom skipsBlanks size calls fragment.space steps
      else
        match callName? token with
        | some name =>
          advance
          if ← consume (Token.isBracket true) then
            fragmentFrom skipsBlanks size (⟨name, [], fragment⟩ :: calls) .empty steps
          else
            fragmentFrom skipsBlanks size calls (fragment.push (.literal name) (← lastStop)) steps
        | none =>
          match valueToken? fragment token with
          | some value =>
            advance
            fragmentFrom skipsBlanks size calls (fragment.push value (← lastStop)) steps
          | none =>
            match calls with
            | [] => return fragment.read
            | call :: outer =>
              if token.isBracket false && !fragment.isHollow then
                advance
                fragmentFrom skipsBlanks size outer (call.close fragment.read (← lastStop)) steps
              else if ← consume (Token.isOperator .comma) then
                fragmentFrom skipsBlanks size (call.addArgument fragment.read :: outer) .empty steps
              else
                refuse Token.span size .unexpectedToken

/-- Read the fragments and marks of a declaration. -/
def fragments (isValue : Bool) (size : Nat) (declaration : Declaration) :
    Nat → Reading Token Declaration
  | 0 => exhausted
  | steps + 1 => do
    match ← peek? with
    | none => return declaration
    | some _ =>
      if ← consume (Token.isOperator .important) then
        fragments isValue size { declaration with isImportant := true } steps
      else
        match ← bounded (fragmentFrom isValue size [] .empty) with
        | first :: others =>
          fragments isValue size
            { declaration with fragments := declaration.fragments ++ [first :: others] } steps
        | [] =>
          if ← consume (Token.isOperator .comma) then
            fragments isValue size declaration steps
          else
            return declaration

/-- Read the name of a declaration and one delimiter behind it. -/
def declarationName (isValue : Bool) : Reading Token (Option String) := do
  if isValue then
    let _ ← consume Token.isWhiteSpace
    return none
  else
    let behind ← following?
    match (← peek?).bind callName? with
    | none => return none
    | some name =>
      if behind.any (Token.isBracket true) then
        return none
      else
        advance
        let _ ← consume Token.isDelimiter
        return some name

/-- Read one declaration, which may turn out to say nothing. -/
def declaration (isValue : Bool) (size : Nat) : Reading Token Declaration := do
  let name ← declarationName isValue
  bounded (fragments isValue size ⟨name, [], false⟩)

/-- Read declarations up to the end. -/
def declarationsFrom (isValue : Bool) (size : Nat) : Nat → Reading Token (List Declaration)
  | 0 => exhausted
  | steps + 1 => do
    match ← peek? with
    | none => return []
    | some _ =>
      let first ← declaration isValue size
      if first.isFilled then
        return first :: (← declarationsFrom isValue size steps)
      else if ← consume (Token.isOperator .sibling) then
        declarationsFrom isValue size steps
      else
        refuse Token.span size .unexpectedToken

/-- Read all declarations of an abbreviation of `size` characters. -/
def declarations (isValue : Bool) (size : Nat) : Reading Token (List Declaration) :=
  bounded (declarationsFrom isValue size)

/-! ### What the programs find -/

section

variable {tokens left rest : List Token} {token : Token}

/-- Behind a token its end is known. -/
theorem run_lastStop (within : token :: rest <:+ tokens) (start : Nat) :
    lastStop.run (facing tokens start rest) =
      pure (token.span.stop, facing tokens start rest) := by
  rw [lastStop, run_bind, run_previous? within]
  rfl

/-- What is done with the end of the token that has just been passed. -/
theorem run_advance_lastStop {β : Type} (behind : Nat → Reading Token β)
    (within : token :: rest <:+ tokens) (start : Nat) :
    (do advance; behind (← lastStop) : Reading Token β).run (facing tokens start (token :: rest)) =
      (behind token.span.stop).run (facing tokens start rest) := by
  rw [run_bind, run_advance within, pure_bind, run_bind, run_lastStop within]
  rfl

/-- What is done at a token of a fragment. -/
theorem run_fragmentFrom_cons (skipsBlanks : Bool) (size steps : Nat) (calls : List OpenCall)
    (fragment : OpenFragment) (within : token :: rest <:+ tokens) (start : Nat) :
    (fragmentFrom skipsBlanks size calls fragment (steps + 1)).run
        (facing tokens start (token :: rest)) =
      if token.isDelimiter || (token.isWhiteSpace && (skipsBlanks || !calls.isEmpty)) then
        (fragmentFrom skipsBlanks size calls fragment.space steps).run (facing tokens start rest)
      else
        match callName? token, rest with
        | some name, bracket :: rest =>
          if bracket.isBracket true then
            (fragmentFrom skipsBlanks size (⟨name, [], fragment⟩ :: calls) .empty steps).run
              (facing tokens start rest)
          else
            (fragmentFrom skipsBlanks size calls (fragment.push (.literal name) token.span.stop)
              steps).run (facing tokens start (bracket :: rest))
        | some name, [] =>
          (fragmentFrom skipsBlanks size calls (fragment.push (.literal name) token.span.stop)
            steps).run (facing tokens start [])
        | none, rest =>
          match valueToken? fragment token with
          | some value =>
            (fragmentFrom skipsBlanks size calls (fragment.push value token.span.stop) steps).run
              (facing tokens start rest)
          | none =>
            match calls with
            | [] => pure (fragment.read, facing tokens start (token :: rest))
            | call :: outer =>
              if token.isBracket false && !fragment.isHollow then
                (fragmentFrom skipsBlanks size outer (call.close fragment.read token.span.stop)
                  steps).run (facing tokens start rest)
              else if token.isOperator .comma then
                (fragmentFrom skipsBlanks size (call.addArgument fragment.read :: outer) .empty
                  steps).run (facing tokens start rest)
              else
                throw ⟨.unexpectedToken, token.span.start⟩ := by
  have inner := (List.suffix_cons token rest).trans within
  rw [fragmentFrom.eq_def]
  dsimp only
  rw [run_bind, run_peek? within, pure_bind]
  dsimp only [List.head?_cons]
  split
  · rw [run_bind, run_advance within, pure_bind]
  · cases callName? token with
    | some name =>
      dsimp only
      rw [run_bind, run_advance within, pure_bind]
      -- the end of the name is asked for behind the look for a bracket, which may take a token
      cases rest with
      | nil =>
        rw [run_ifConsume_nil, run_bind, run_lastStop within]
        rfl
      | cons bracket rest =>
        rw [run_ifConsume _ _ _ inner]
        dsimp only
        split
        · rfl
        · rw [run_bind, run_lastStop within]
          rfl
    | none =>
      cases valueToken? fragment token with
      | some value => exact run_advance_lastStop _ within start
      | none =>
        cases calls with
        | nil => rfl
        | cons call outer =>
          dsimp only
          split
          · exact run_advance_lastStop _ within start
          · rw [run_ifConsume _ _ _ within]
            split
            · rfl
            · exact run_refuse Token.span size .unexpectedToken within start

/-- A fragment is read as far as it goes. -/
theorem run_fragmentFrom {steps : Nat} (skipsBlanks : Bool) (size : Nat) (calls : List OpenCall)
    (fragment : OpenFragment) (within : left <:+ tokens) (start : Nat)
    (enough : left.length < steps) :
    (fragmentFrom skipsBlanks size calls fragment steps).run (facing tokens start left) =
      leaving tokens start (readFragment skipsBlanks size calls fragment left) := by
  -- In each case the loop makes the step of the reader and has enough of them left for the rest.
  fun_induction readFragment skipsBlanks size calls fragment left generalizing steps with
  | case1 calls fragment hollow =>
    obtain ⟨steps, rfl, -⟩ := exists_fewer enough
    rw [fragmentFrom.eq_def]
    dsimp only
    rw [run_bind, run_peek? within, pure_bind]
    simp only [List.head?_nil, hollow, if_true]
    exact run_refuse_nil Token.span size .unexpectedToken tokens start
  | case2 calls fragment notHollow =>
    obtain ⟨steps, rfl, -⟩ := exists_fewer enough
    rw [fragmentFrom.eq_def]
    dsimp only
    rw [run_bind, run_peek? within, pure_bind]
    simp only [List.head?_nil, notHollow]
    rfl
  | case3 calls fragment token rest skipped ih =>
    obtain ⟨steps, rfl, fewer⟩ := exists_fewer enough
    rw [run_fragmentFrom_cons _ _ _ _ _ within, if_pos skipped]
    exact ih ((List.suffix_cons token rest).trans within) fewer
  | case4 calls fragment token notSkipped name bracket rest isName opening ih =>
    obtain ⟨steps, rfl, fewer⟩ := exists_fewer enough
    have inner := (List.suffix_cons token _).trans within
    rw [run_fragmentFrom_cons _ _ _ _ _ within, if_neg notSkipped, isName]
    exact (if_pos opening).trans
      (ih ((List.suffix_cons bracket rest).trans inner) (Nat.lt_of_succ_lt fewer))
  | case5 calls fragment token notSkipped name bracket rest isName notOpening ih =>
    obtain ⟨steps, rfl, fewer⟩ := exists_fewer enough
    rw [run_fragmentFrom_cons _ _ _ _ _ within, if_neg notSkipped, isName]
    exact (if_neg notOpening).trans (ih ((List.suffix_cons token _).trans within) fewer)
  | case6 calls fragment token notSkipped name isName ih =>
    obtain ⟨steps, rfl, fewer⟩ := exists_fewer enough
    rw [run_fragmentFrom_cons _ _ _ _ _ within, if_neg notSkipped, isName]
    exact ih ((List.suffix_cons token _).trans within) fewer
  | case7 calls fragment token notSkipped rest noName value isValueToken ih =>
    obtain ⟨steps, rfl, fewer⟩ := exists_fewer enough
    rw [run_fragmentFrom_cons _ _ _ _ _ within, if_neg notSkipped, noName, isValueToken]
    exact ih ((List.suffix_cons token rest).trans within) fewer
  | case8 fragment token rest noName noValue notSkipped =>
    obtain ⟨steps, rfl, -⟩ := exists_fewer enough
    rw [run_fragmentFrom_cons _ _ _ _ _ within, if_neg notSkipped, noName, noValue]
    rfl
  | case9 fragment token rest noName noValue call outer closing notSkipped ih =>
    obtain ⟨steps, rfl, fewer⟩ := exists_fewer enough
    rw [run_fragmentFrom_cons _ _ _ _ _ within, if_neg notSkipped, noName, noValue]
    exact (if_pos closing).trans (ih ((List.suffix_cons token rest).trans within) fewer)
  | case10 fragment token rest noName noValue call outer notClosing comma notSkipped ih =>
    obtain ⟨steps, rfl, fewer⟩ := exists_fewer enough
    rw [run_fragmentFrom_cons _ _ _ _ _ within, if_neg notSkipped, noName, noValue]
    exact (if_neg notClosing).trans
      ((if_pos comma).trans (ih ((List.suffix_cons token rest).trans within) fewer))
  | case11 fragment token rest noName noValue call outer notClosing notComma notSkipped =>
    obtain ⟨steps, rfl, -⟩ := exists_fewer enough
    rw [run_fragmentFrom_cons _ _ _ _ _ within, if_neg notSkipped, noName, noValue]
    exact (if_neg notClosing).trans (if_neg notComma)

/-- What is done at a token of a declaration. -/
theorem run_fragments_cons (isValue : Bool) (size steps : Nat) (declaration : Declaration)
    (within : token :: rest <:+ tokens) (start : Nat) :
    (fragments isValue size declaration (steps + 1)).run (facing tokens start (token :: rest)) =
      if token.isOperator .important then
        (fragments isValue size { declaration with isImportant := true } steps).run
          (facing tokens start rest)
      else
        match readFragment isValue size [] .empty (token :: rest) with
        | .error notice => throw notice
        | .ok (first :: others, left) =>
          (fragments isValue size
            { declaration with fragments := declaration.fragments ++ [first :: others] } steps).run
            (facing tokens start left)
        | .ok ([], []) => pure (declaration, facing tokens start [])
        | .ok ([], next :: left) =>
          if next.isOperator .comma then
            (fragments isValue size declaration steps).run (facing tokens start left)
          else
            pure (declaration, facing tokens start (next :: left)) := by
  conv_lhs => rw [fragments, run_bind, run_peek? within, pure_bind]
  dsimp only [List.head?_cons]
  rw [run_ifConsume _ _ _ within]
  split
  · rfl
  · rw [run_bind, run_bounded, run_fragmentFrom _ _ _ _ within start (length_lt within)]
    cases found : readFragment isValue size [] .empty (token :: rest) with
    | error notice => rfl
    | ok read =>
      obtain ⟨fragment, left⟩ := read
      cases fragment with
      | cons first others => rfl
      | nil =>
        cases left with
        | nil => exact run_ifConsume_nil _ _ _ tokens start
        | cons next left =>
          exact run_ifConsume _ _ _ ((readFragment_suffix found).trans within) start

/-- The fragments and marks of a declaration are read as far as they go. -/
theorem run_fragments {steps : Nat} (isValue : Bool) (size : Nat) (declaration : Declaration)
    (within : left <:+ tokens) (start : Nat) (enough : left.length < steps) :
    (fragments isValue size declaration steps).run (facing tokens start left) =
      leaving tokens start (readFragments isValue size declaration left) := by
  fun_induction readFragments isValue size declaration left generalizing steps with
  | case1 declaration =>
    obtain ⟨steps, rfl, -⟩ := exists_fewer enough
    rw [fragments, run_bind, run_peek? within]
    rfl
  | case2 declaration token rest important ih =>
    obtain ⟨steps, rfl, fewer⟩ := exists_fewer enough
    rw [run_fragments_cons isValue size steps declaration within, if_pos important]
    exact ih ((List.suffix_cons token rest).trans within) fewer
  | case3 declaration token rest notImportant notice failed =>
    obtain ⟨steps, rfl, -⟩ := exists_fewer enough
    rw [run_fragments_cons isValue size steps declaration within, if_neg notImportant, failed]
    rfl
  | case4 declaration token rest notImportant first others behind readFirst ih =>
    obtain ⟨steps, rfl, fewer⟩ := exists_fewer enough
    rw [run_fragments_cons isValue size steps declaration within, if_neg notImportant, readFirst]
    exact ih ((readFragment_suffix readFirst).trans within)
      ((readFragment_shorter readFirst).trans_le fewer)
  | case5 declaration token rest notImportant readFirst =>
    obtain ⟨steps, rfl, -⟩ := exists_fewer enough
    rw [run_fragments_cons isValue size steps declaration within, if_neg notImportant, readFirst]
    rfl
  | case6 declaration token rest notImportant next behind readFirst comma ih =>
    obtain ⟨steps, rfl, fewer⟩ := exists_fewer enough
    have further := (readFragment_suffix readFirst).trans within
    have shorter : behind.length < steps := (readFragment_length readFirst).1.trans fewer
    rw [run_fragments_cons isValue size steps declaration within, if_neg notImportant, readFirst]
    exact (if_pos comma).trans (ih ((List.suffix_cons next behind).trans further) shorter)
  | case7 declaration token rest notImportant next behind readFirst notComma =>
    obtain ⟨steps, rfl, -⟩ := exists_fewer enough
    rw [run_fragments_cons isValue size steps declaration within, if_neg notImportant, readFirst]
    exact if_neg notComma

/-- The name of a declaration is read with the delimiter behind it. -/
theorem run_declarationName (isValue : Bool) (within : left <:+ tokens) (start : Nat) :
    (declarationName isValue).run (facing tokens start left) =
      pure ((readDeclarationName isValue left).1,
        facing tokens start (readDeclarationName isValue left).2) := by
  cases isValue with
  | true =>
    rw [declarationName, if_pos rfl, run_bind, run_consume _ within]
    cases left with
    | nil => rfl
    | cons token rest => rfl
  | false =>
    rw [declarationName, if_neg Bool.false_ne_true, run_bind, run_following? within, pure_bind,
      run_bind, run_peek? within, pure_bind]
    cases left with
    | nil => rfl
    | cons token rest =>
      have inner := (List.suffix_cons token rest).trans within
      simp only [List.head?_cons, Option.bind_some, readDeclarationName]
      cases callName? token with
      | none => rfl
      | some name =>
        cases rest with
        | nil =>
          simp only [List.getElem?_cons_succ, List.getElem?_nil, Option.any_none]
          rw [if_neg Bool.false_ne_true, run_bind, run_advance within, pure_bind, run_bind,
            run_consume _ inner]
          rfl
        | cons next rest =>
          simp only [List.getElem?_cons_succ, List.getElem?_cons_zero, Option.any_some]
          by_cases opening : next.isBracket true
          · simp only [opening, if_true]
            rfl
          · simp only [opening]
            rw [if_neg Bool.false_ne_true, run_bind, run_advance within, pure_bind, run_bind,
              run_consume _ inner]
            rfl

/-- A declaration is read as from what is left. -/
theorem run_declaration (isValue : Bool) (size : Nat) (within : left <:+ tokens) (start : Nat) :
    (declaration isValue size).run (facing tokens start left) =
      leaving tokens start (readDeclaration isValue size left) := by
  have further := (readDeclarationName_suffix isValue left).trans within
  rw [declaration, run_bind, run_declarationName isValue within, pure_bind, run_bounded]
  exact run_fragments isValue size _ further start (length_lt further)

/-- What is done at a token where a declaration may begin. -/
theorem run_declarationsFrom_cons (isValue : Bool) (size steps : Nat)
    (within : token :: rest <:+ tokens) (start : Nat) :
    (declarationsFrom isValue size (steps + 1)).run (facing tokens start (token :: rest)) =
      match readDeclaration isValue size (token :: rest) with
      | .error notice => throw notice
      | .ok (first, left) =>
        if first.isFilled then
          (declarationsFrom isValue size steps).run (facing tokens start left) >>= fun outcome =>
            pure (first :: outcome.1, outcome.2)
        else
          match left with
          | [] => throw ⟨.unexpectedEnd, size⟩
          | next :: left =>
            if next.isOperator .sibling then
              (declarationsFrom isValue size steps).run (facing tokens start left)
            else
              throw ⟨.unexpectedToken, next.span.start⟩ := by
  conv_lhs => rw [declarationsFrom, run_bind, run_peek? within, pure_bind]
  dsimp only [List.head?_cons]
  rw [run_bind, run_declaration isValue size within]
  cases found : readDeclaration isValue size (token :: rest) with
  | error notice => rfl
  | ok read =>
    obtain ⟨first, left⟩ := read
    have further := (readDeclaration_suffix found).trans within
    simp only [leaving, pure_bind]
    split
    · rfl
    · cases left with
      | nil =>
        rw [run_ifConsume_nil]
        exact run_refuse_nil Token.span size .unexpectedToken tokens start
      | cons next left =>
        rw [run_ifConsume _ _ _ further]
        dsimp only
        split
        · rfl
        · exact run_refuse Token.span size .unexpectedToken further start

/-- The declarations are read up to the end, or to a token that no declaration begins with. -/
theorem run_declarationsFrom {steps : Nat} (isValue : Bool) (size : Nat)
    (within : left <:+ tokens) (start : Nat) (enough : left.length < steps) :
    (declarationsFrom isValue size steps).run (facing tokens start left) =
      leaving tokens start ((readDeclarations isValue size left).map (·, [])) := by
  fun_induction readDeclarations isValue size left generalizing steps with
  | case1 =>
    obtain ⟨steps, rfl, -⟩ := exists_fewer enough
    rw [declarationsFrom, run_bind, run_peek? within]
    rfl
  | case2 token rest notice failed =>
    obtain ⟨steps, rfl, -⟩ := exists_fewer enough
    rw [run_declarationsFrom_cons isValue size steps within, failed]
    rfl
  | case3 token rest declaration left readFirst filled notice failed ih =>
    obtain ⟨steps, rfl, fewer⟩ := exists_fewer enough
    have shorter := (readDeclaration_shorter readFirst filled).trans_le fewer
    rw [run_declarationsFrom_cons isValue size steps within, readFirst]
    simp only [filled, if_true]
    rw [ih ((readDeclaration_suffix readFirst).trans within) shorter, failed]
    rfl
  | case4 token rest declaration left readFirst filled others readRest ih =>
    obtain ⟨steps, rfl, fewer⟩ := exists_fewer enough
    have shorter := (readDeclaration_shorter readFirst filled).trans_le fewer
    rw [run_declarationsFrom_cons isValue size steps within, readFirst]
    simp only [filled, if_true]
    rw [ih ((readDeclaration_suffix readFirst).trans within) shorter, readRest]
    rfl
  | case5 token rest declaration unfilled readFirst =>
    obtain ⟨steps, rfl, -⟩ := exists_fewer enough
    rw [run_declarationsFrom_cons isValue size steps within, readFirst]
    simp only [unfilled]
    rfl
  | case6 token rest declaration unfilled next left readFirst isSibling _ ih =>
    obtain ⟨steps, rfl, fewer⟩ := exists_fewer enough
    have further := (readDeclaration_suffix readFirst).trans within
    have shorter : left.length < steps := (readDeclaration_length readFirst).1.trans fewer
    rw [run_declarationsFrom_cons isValue size steps within, readFirst]
    simp only [unfilled, isSibling, if_true]
    exact ih ((List.suffix_cons next left).trans further) shorter
  | case7 token rest declaration unfilled next left readFirst notSibling =>
    obtain ⟨steps, rfl, -⟩ := exists_fewer enough
    rw [run_declarationsFrom_cons isValue size steps within, readFirst]
    simp only [unfilled, notSibling]
    rfl

end

/-- The declarations of an abbreviation are read without an index out of range, and they are those
of the reader. -/
theorem outcome_declarations (isValue : Bool) (size : Nat) (tokens : List Token) :
    (declarations isValue size).outcome tokens = some (readDeclarations isValue size tokens) := by
  have whole := List.suffix_refl tokens
  refine outcome_eq (facing tokens 0 []) ?_
  rw [declarations, run_bounded, run_declarationsFrom isValue size whole 0 (length_lt whole)]
  cases readDeclarations isValue size tokens <;> rfl

end Shorthand.Stylesheet.Reader
