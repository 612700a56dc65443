import Shorthand.Markup.Statement.Reader

/-!
# How statements nest

Operators place a statement below, beside or above the one before it. A place is the list of
statements being extended and the way up from it; groups that are still open keep the places
around them. Climbing stops at the top of the group.
-/

namespace Shorthand.Markup

/-- A statement under construction and the statements before it. -/
structure Level where
  before : List Statement
  parent : Statement
  deriving Repr

/-- The statements being extended and the levels above them, nearest first. -/
structure Place where
  statements : List Statement
  levels : List Level
  deriving Repr

namespace Place

/-- The beginning of an abbreviation or of a group. -/
def top : Place := ⟨[], []⟩

/-- Add a statement at the end. -/
def add (place : Place) (statement : Statement) : Place :=
  { place with statements := place.statements ++ [statement] }

/-- Go on inside a statement that comes next. -/
def descend (place : Place) (statement : Statement) : Place :=
  ⟨statement.inner, ⟨place.statements, statement⟩ :: place.levels⟩

/-- The statement under construction, when its inner statements are complete. -/
def Level.close (level : Level) (statements : List Statement) : List Statement :=
  level.before ++ [level.parent.withInner statements]

/-- Go on behind the parent; at the top stay where the place is. -/
def climb (place : Place) : Place :=
  match place.levels with
  | [] => place
  | level :: levels => ⟨Level.close level place.statements, levels⟩

/-- Climb several levels. -/
def climbs : Nat → Place → Place
  | 0, place => place
  | count + 1, place => climbs count place.climb

/-- All statements from the top, when nothing follows. -/
def close (place : Place) : List Statement :=
  place.levels.foldl (fun statements level => Level.close level statements) place.statements

/-- Put a statement here and go where the operator behind it leads. -/
def put (place : Place) (statement : Statement) : List Token → Place × List Token
  | [] => (place.add statement, [])
  | token :: rest =>
    if token.isOperator .child then
      (place.descend statement, rest)
    else if token.isOperator .sibling then
      (place.add statement, rest)
    else
      let carets := (token :: rest).takeWhile (Token.isOperator .climb)
      ((place.add statement).climbs carets.length,
        (token :: rest).dropWhile (Token.isOperator .climb))

end Place

/-- No more is left behind a repeater than was there. -/
theorem readRepeat_length (tokens : List Token) :
    (readRepeat tokens).2.length ≤ tokens.length := by
  cases tokens with
  | nil => simp [readRepeat]
  | cons token rest =>
    simp only [readRepeat]
    split <;> simp

/-- What follows in an element takes some token, or the element stays as it is. -/
theorem extendHead_length {jsx : Bool} {head extended : Head} {tokens left : List Token}
    (read : extendHead jsx head tokens = .ok (extended, left)) :
    left.length ≤ tokens.length ∧ (left.length = tokens.length → extended = head) := by
  fun_induction extendHead jsx head tokens with
  | case1 => simp_all
  | case2 head token rest repetition found ih =>
    have step := (ih read).1
    simp only [List.length_cons]
    omega
  | case3 head token rest notRepeated text left' found ih =>
    have shorter : left'.length < (token :: rest).length := by
      cases empty : head.value.isNone
      · simp [empty] at found
      · exact readText_length (by simpa [empty] using found)
    have step := (ih read).1
    omega
  | case4 => cases read
  | case5 head token rest notRepeated noText added left' found ih =>
    have shorter := readAttributes_length found
    have step := (ih read).1
    omega
  | case6 head token rest notRepeated noText noAttributes closing repetition present =>
    simp only [Except.ok.injEq, Prod.mk.injEq] at read
    simp only [← read.2, List.length_cons]
    omega
  | case7 head token rest notRepeated noText noAttributes closing absent repetition left' found =>
    have step := readRepeat_length rest
    simp only [Except.ok.injEq, Prod.mk.injEq] at read
    simp only [found] at step
    simp only [← read.2, List.length_cons]
    omega
  | case8 head token rest notRepeated noText noAttributes notClosing =>
    simp only [Except.ok.injEq, Prod.mk.injEq] at read
    simp [← read.2, read.1]

/-- The dotted names and what is left behind them are all that was there. -/
theorem readDottedNames_append (tokens : List Token) :
    (readDottedNames tokens).1 ++ (readDottedNames tokens).2 = tokens := by
  fun_induction readDottedNames tokens <;> simp_all

/-- A name and what is left behind it are all that was there. -/
theorem readName_append (jsx : Bool) (tokens : List Token) :
    (readName jsx tokens).1 ++ (readName jsx tokens).2 = tokens := by
  cases tokens with
  | nil => simp [readName]
  | cons token rest =>
    simp only [readName]
    split
    · simp [List.append_assoc, readDottedNames_append]
    · simp

/-- An element takes some token. -/
theorem readHead_length {jsx : Bool} {tokens left : List Token} {head : Head}
    (read : readHead jsx tokens = .ok (some (head, left))) : left.length < tokens.length := by
  have whole := congrArg List.length (readName_append jsx tokens)
  simp only [List.length_append] at whole
  simp only [readHead] at read
  split at read
  · cases read
  · rename_i extended left' extension
    have step := extendHead_length extension
    split at read
    · cases read
    · rename_i carries
      simp only [Except.ok.injEq, Option.some.injEq, Prod.mk.injEq] at read
      obtain ⟨rfl, rfl⟩ := read
      cases name : (readName jsx tokens).1 with
      | nil =>
        have unchanged : left'.length ≠ (readName jsx tokens).2.length := by
          intro same
          have := step.2 same
          simp [name, Head.isEmpty, Head.empty, this] at carries
        omega
      | cons first others =>
        simp only [name, List.length_cons] at whole
        omega

/-- No more is left behind an operator than was there. -/
theorem Place.put_length (place : Place) (statement : Statement) (tokens : List Token) :
    (place.put statement tokens).2.length ≤ tokens.length := by
  cases tokens with
  | nil => simp [put]
  | cons token rest =>
    simp only [put]
    split
    · simp
    · split
      · simp
      · exact length_dropWhile_le _ _

/-- Read what may follow the token that ends a group: a repeater behind its closing
bracket. -/
def readGroupEnd (token : Token) (rest : List Token) : Option Repeat × List Token :=
  if token.isBracket .group false then readRepeat rest else (none, rest)

/-- No more is left behind the end of a group than was there. -/
theorem readGroupEnd_length (token : Token) (rest : List Token) :
    (readGroupEnd token rest).2.length ≤ rest.length := by
  simp only [readGroupEnd]
  split
  · exact readRepeat_length rest
  · simp

/-- Read statements at a place inside open groups. A group ends where no statement begins:
the token there is taken whatever it is, and only behind a closing bracket may the group be
repeated. Outside of groups the tokens from there on are left. -/
def readStatements (jsx : Bool) (place : Place) (outer : List Place) (tokens : List Token) :
    Except Notice (List Statement × List Token) :=
  match tokens with
  | [] =>
    match outer with
    | [] => .ok (place.close, [])
    | around :: outer => readStatements jsx (around.add (.group place.close none)) outer []
  | token :: rest =>
    match _found : readHead jsx (token :: rest) with
    | .error fault => .error fault
    | .ok (some (head, left)) =>
      readStatements jsx (place.put (.element head []) left).1 outer
        (place.put (.element head []) left).2
    | .ok none =>
      if token.isBracket .group true then
        readStatements jsx .top (place :: outer) rest
      else
        match outer with
        | [] => .ok (place.close, token :: rest)
        | around :: outer =>
          let statement := Statement.group place.close (readGroupEnd token rest).1
          readStatements jsx (around.put statement (readGroupEnd token rest).2).1 outer
            (around.put statement (readGroupEnd token rest).2).2
termination_by 2 * tokens.length + outer.length
decreasing_by
  · simp
  · have shorter := readHead_length _found
    have step := Place.put_length place (.element head []) left
    omega
  · simp only [List.length_cons]
    omega
  · have ending := readGroupEnd_length token rest
    have step := Place.put_length around
      (.group place.close (readGroupEnd token rest).1) (readGroupEnd token rest).2
    simp only [List.length_cons]
    omega

/-- The statements that a list of tokens writes. -/
def statementsOfTokens (jsx : Bool) (tokens : List Token) : Except Notice (List Statement) :=
  match readStatements jsx .top [] tokens with
  | .error fault => .error fault
  | .ok (statements, []) => .ok statements
  | .ok (_, token :: _) => .error ⟨.unexpectedCharacter, token.span.start⟩

/-- Read the statements of a markup abbreviation. -/
def statements (jsx : Bool) (source : String) : Except Fault (List Statement) := do
  (statementsOfTokens jsx (← tokens source)).mapError (Notice.within source)

/-- Once the tokens of a source are known, its statements are those of the tokens. -/
theorem statements_eq {source : String} {written : List Token}
    (lexed : tokens source = .ok written) (jsx : Bool) :
    statements jsx source =
      (statementsOfTokens jsx written).mapError (Notice.within source) := by
  rw [statements, lexed]
  rfl

end Shorthand.Markup
