import Shorthand.Stylesheet.Declaration
import Shorthand.Stylesheet.Token.Lexer

/-!
# Reading declarations from tokens

```
declarations := declaration ("+" declaration)*
declaration  := name? (":" | "-")? (fragment | "!" | ",")*
fragment     := (literal | number | color | string | field | call) ((":" | "-") ...)*
call         := literal "(" (fragment | ",")* ")"
```

A fragment is read token by token; the calls that are still open are kept on a stack. Calls
that the input does not close end with it. An argument of delimiters and blanks alone must
end with a comma.
-/

namespace Shorthand.Stylesheet

/-- A fragment being read, the end of its last token, and whether delimiters or blanks of it
were passed over. -/
structure OpenFragment where
  read : Fragment
  stop : Nat
  isSpaced : Bool

/-- A call that is not closed: its name, its complete arguments and the fragment around. -/
structure OpenCall where
  name : String
  arguments : List Fragment
  around : OpenFragment

namespace OpenFragment

/-- A fragment of which nothing has been read. -/
def empty : OpenFragment := ⟨[], 0, false⟩

/-- Add a token that ends at `stop`. -/
def push (fragment : OpenFragment) (token : ValueToken) (stop : Nat) : OpenFragment :=
  { fragment with read := fragment.read ++ [token], stop }

/-- Pass over a delimiter or a blank. -/
def space (fragment : OpenFragment) : OpenFragment := { fragment with isSpaced := true }

/-- Whether a fragment holds nothing but delimiters and blanks. -/
def isHollow (fragment : OpenFragment) : Bool := fragment.read.isEmpty && fragment.isSpaced

/-- Whether a token that begins at `start` is glued to the fragment. -/
def isGlued (fragment : OpenFragment) (start : Nat) : Bool :=
  !fragment.read.isEmpty && fragment.stop == start

end OpenFragment

namespace OpenCall

/-- The call with an argument added, unless that is empty. -/
def addArgument (call : OpenCall) (argument : Fragment) : OpenCall :=
  if argument.isEmpty then call else { call with arguments := call.arguments ++ [argument] }

/-- The fragment around, when the last argument is complete and the call ends at `stop`. -/
def close (call : OpenCall) (argument : Fragment) (stop : Nat) : OpenFragment :=
  let complete := call.addArgument argument
  complete.around.push (.call complete.name complete.arguments) stop

/-- The fragment around all open calls, when the input ends. -/
def closeAll (argument : Fragment) : List OpenCall → Fragment
  | [] => argument
  | call :: outer => closeAll (call.close argument 0).read outer

end OpenCall

/-- The value token that a token stands for by itself. -/
def valueToken? (fragment : OpenFragment) (token : Token) : Option ValueToken :=
  match token.kind with
  | .literal value => some (.literal value)
  | .customProperty value => some (.customProperty value)
  | .number value raw unit => some (.number value raw unit)
  | .color color => some (.color color)
  | .quoted value isSingle => some (.quoted value isSingle)
  | .field index name => some (.field index name (fragment.isGlued token.span.start))
  | _ => none

/-- The name that a call has when the token stands before an opening bracket. -/
def callName? (token : Token) : Option String :=
  match token.kind with
  | .literal name => some name
  | _ => none

/-- Read a fragment inside open calls, up to the first token that cannot belong to it. Blanks
are skipped inside of calls, and everywhere if `skipsBlanks` is set. The abbreviation is
`size` characters long. -/
def readFragment (skipsBlanks : Bool) (size : Nat) (calls : List OpenCall)
    (fragment : OpenFragment) : List Token → Except Notice (Fragment × List Token)
  | [] =>
    if fragment.isHollow && !calls.isEmpty then
      .error ⟨.unexpectedEnd, size⟩
    else
      .ok (OpenCall.closeAll fragment.read calls, [])
  | token :: rest =>
    if token.isDelimiter || (token.isWhiteSpace && (skipsBlanks || !calls.isEmpty)) then
      readFragment skipsBlanks size calls fragment.space rest
    else
      match callName? token, rest with
      | some name, bracket :: rest =>
        if bracket.isBracket true then
          readFragment skipsBlanks size (⟨name, [], fragment⟩ :: calls) .empty rest
        else
          readFragment skipsBlanks size calls (fragment.push (.literal name) token.span.stop)
            (bracket :: rest)
      | some name, [] =>
        readFragment skipsBlanks size calls (fragment.push (.literal name) token.span.stop) []
      | none, rest =>
        match valueToken? fragment token with
        | some value =>
          readFragment skipsBlanks size calls (fragment.push value token.span.stop) rest
        | none =>
          match calls with
          | [] => .ok (fragment.read, token :: rest)
          | call :: outer =>
            if token.isBracket false && !fragment.isHollow then
              readFragment skipsBlanks size outer (call.close fragment.read token.span.stop) rest
            else if token.isOperator .comma then
              readFragment skipsBlanks size (call.addArgument fragment.read :: outer) .empty rest
            else
              .error ⟨.unexpectedToken, token.span.start⟩
termination_by tokens => tokens.length

/-- A fragment that holds something already, or some token was taken. -/
theorem readFragment_length {skipsBlanks : Bool} {size : Nat} {calls : List OpenCall}
    {fragment : OpenFragment} {tokens left : List Token} {found : Fragment}
    (read : readFragment skipsBlanks size calls fragment tokens = .ok (found, left)) :
    left.length ≤ tokens.length ∧
      (left.length = tokens.length → found = OpenCall.closeAll fragment.read calls) := by
  fun_induction readFragment skipsBlanks size calls fragment tokens with
  | case1 => cases read
  | case2 => simp_all
  | case3 calls fragment token rest skipped ih =>
    have step := (ih read).1
    simp only [List.length_cons]
    omega
  | case4 calls fragment token notSkipped name bracket rest isName opening ih =>
    have step := (ih read).1
    simp only [List.length_cons]
    omega
  | case5 calls fragment token notSkipped name bracket rest isName notOpening ih =>
    have step := (ih read).1
    simp only [List.length_cons] at step ⊢
    omega
  | case6 calls fragment token notSkipped name isName ih =>
    have step := (ih read).1
    simp only [List.length_cons, List.length_nil] at step ⊢
    omega
  | case7 calls fragment token notSkipped rest noName value isValueToken ih =>
    have step := (ih read).1
    simp only [List.length_cons]
    omega
  | case8 fragment token rest noName noValue notSkipped =>
    simp only [Except.ok.injEq, Prod.mk.injEq] at read
    simp [← read.1, ← read.2, OpenCall.closeAll]
  | case9 fragment token rest noName noValue call outer closing notSkipped ih =>
    have step := (ih read).1
    simp only [List.length_cons]
    omega
  | case10 fragment token rest noName noValue call outer notClosing comma notSkipped ih =>
    have step := (ih read).1
    simp only [List.length_cons]
    omega
  | case11 => cases read

/-- What holds something has taken some token. -/
theorem readFragment_shorter {skipsBlanks : Bool} {size : Nat} {first : ValueToken}
    {others : Fragment} {tokens left : List Token}
    (read : readFragment skipsBlanks size [] .empty tokens = .ok (first :: others, left)) :
    left.length < tokens.length := by
  refine Nat.lt_of_le_of_ne (readFragment_length read).1 fun same => ?_
  exact List.cons_ne_nil first others ((readFragment_length read).2 same)

/-- Read the fragments and marks of a declaration. -/
def readFragments (isValue : Bool) (size : Nat) (declaration : Declaration) (tokens : List Token) :
    Except Notice (Declaration × List Token) :=
  match tokens with
  | [] => .ok (declaration, [])
  | token :: rest =>
    if token.isOperator .important then
      readFragments isValue size { declaration with isImportant := true } rest
    else
      match _found : readFragment isValue size [] .empty (token :: rest) with
      | .error fault => .error fault
      | .ok (first :: others, left) =>
        readFragments isValue size
          { declaration with fragments := declaration.fragments ++ [first :: others] } left
      | .ok ([], []) => .ok (declaration, [])
      | .ok ([], next :: left) =>
        if next.isOperator .comma then
          readFragments isValue size declaration left
        else
          .ok (declaration, next :: left)
termination_by tokens.length
decreasing_by
  · simp
  · exact readFragment_shorter _found
  · have step := (readFragment_length _found).1
    simp only [List.length_cons] at step ⊢
    omega

/-- Read the name of a declaration and one delimiter behind it. A literal in front of an
opening bracket is a call and no name. -/
def readDeclarationName (isValue : Bool) (tokens : List Token) : Option String × List Token :=
  match tokens with
  | [] => (none, [])
  | token :: rest =>
    if isValue then
      (none, if token.isWhiteSpace then rest else token :: rest)
    else
      match callName? token with
      | none => (none, token :: rest)
      | some name =>
        match rest with
        | [] => (some name, [])
        | next :: left =>
          if next.isBracket true then (none, token :: rest)
          else (some name, if next.isDelimiter then left else rest)

/-- A name takes some token. -/
theorem readDeclarationName_length (isValue : Bool) (tokens : List Token) :
    (readDeclarationName isValue tokens).2.length ≤ tokens.length ∧
      ((readDeclarationName isValue tokens).2.length = tokens.length →
        (readDeclarationName isValue tokens).1 = none) := by
  unfold readDeclarationName
  repeat' split
  all_goals simp_all
  all_goals omega

/-- Fragments take some token, or the declaration stays as it is. -/
theorem readFragments_length {isValue : Bool} {size : Nat} {declaration found : Declaration}
    {tokens left : List Token}
    (read : readFragments isValue size declaration tokens = .ok (found, left)) :
    left.length ≤ tokens.length ∧ (left.length = tokens.length → found = declaration) := by
  fun_induction readFragments isValue size declaration tokens with
  | case1 => simp_all
  | case2 declaration token rest important ih =>
    have step := (ih read).1
    simp only [List.length_cons]
    omega
  | case3 => cases read
  | case4 declaration token rest notImportant first others left' readFirst ih =>
    have step := readFragment_shorter readFirst
    have more := (ih read).1
    omega
  | case5 declaration token rest notImportant readFirst =>
    simp only [Except.ok.injEq, Prod.mk.injEq] at read
    simp [← read.1, ← read.2]
  | case6 declaration token rest notImportant next left' readFirst comma ih =>
    have step := (readFragment_length readFirst).1
    have more := (ih read).1
    simp only [List.length_cons] at step ⊢
    omega
  | case7 declaration token rest notImportant next left' readFirst notComma =>
    have step := (readFragment_length readFirst).1
    simp only [Except.ok.injEq, Prod.mk.injEq] at read
    obtain ⟨rfl, rfl⟩ := read
    exact ⟨step, fun _ => rfl⟩

/-- Read one declaration, which may turn out to say nothing. -/
def readDeclaration (isValue : Bool) (size : Nat) (tokens : List Token) :
    Except Notice (Declaration × List Token) :=
  readFragments isValue size ⟨(readDeclarationName isValue tokens).1, [], false⟩
    (readDeclarationName isValue tokens).2

/-- A declaration takes some token, or it says nothing. -/
theorem readDeclaration_length {isValue : Bool} {size : Nat} {found : Declaration}
    {tokens left : List Token}
    (read : readDeclaration isValue size tokens = .ok (found, left)) :
    left.length ≤ tokens.length ∧
      (left.length = tokens.length → found = ⟨none, [], false⟩) := by
  have nameStep := readDeclarationName_length isValue tokens
  have step := readFragments_length read
  refine ⟨by omega, fun same => ?_⟩
  rw [step.2 (by omega), nameStep.2 (by omega)]

/-- A declaration that says something has taken some token. -/
theorem readDeclaration_shorter {isValue : Bool} {size : Nat} {found : Declaration}
    {tokens left : List Token} (read : readDeclaration isValue size tokens = .ok (found, left))
    (filled : found.isFilled) : left.length < tokens.length := by
  refine Nat.lt_of_le_of_ne (readDeclaration_length read).1 fun same => ?_
  rw [(readDeclaration_length read).2 same] at filled
  cases filled

/-- Read all declarations of an abbreviation that is `size` characters long. -/
def readDeclarations (isValue : Bool) (size : Nat) (tokens : List Token) :
    Except Notice (List Declaration) :=
  match tokens with
  | [] => .ok []
  | token :: rest =>
    match _found : readDeclaration isValue size (token :: rest) with
    | .error fault => .error fault
    | .ok (declaration, left) =>
      if _filled : declaration.isFilled then
        match readDeclarations isValue size left with
        | .error fault => .error fault
        | .ok others => .ok (declaration :: others)
      else
        match left with
        | [] => .error ⟨.unexpectedEnd, size⟩
        | next :: left =>
          if next.isOperator .sibling then
            readDeclarations isValue size left
          else
            .error ⟨.unexpectedToken, next.span.start⟩
termination_by tokens.length
decreasing_by
  · exact readDeclaration_shorter _found _filled
  · have step := (readDeclaration_length _found).1
    simp only [List.length_cons] at step ⊢
    omega

/-- Read a stylesheet abbreviation, or a property value alone. -/
def declarations (isValue : Bool) (source : String) : Except Fault (List Declaration) := do
  (readDeclarations isValue source.length (← tokens isValue source)).mapError
    (Notice.within source)

end Shorthand.Stylesheet
