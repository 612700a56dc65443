import Shorthand.Text.Lines

/-!
# Faults of an abbreviation

A fault is a cause and the offset of the character where it was noticed, with a copy of the
abbreviation. Offsets count characters of the abbreviation from zero. The wording of every
cause is fixed here.
-/

namespace Shorthand

/-- Why an abbreviation is refused. -/
inductive Fault.Cause where
  /-- No token begins here, or input is left over. -/
  | unexpectedCharacter
  /-- A field or a nested pair of braces is not closed. -/
  | missingBrace
  /-- A closing bracket without its opening one. -/
  | unexpectedBracket
  /-- A quoted attribute value is not closed. -/
  | unclosedQuote
  /-- A token of the named kind stands inside an attribute list. -/
  | misplaced (kind : String)
  /-- A token that continues no declaration. -/
  | unexpectedToken
  /-- The input ends where a declaration had to follow. -/
  | unexpectedEnd
  deriving DecidableEq, Repr

/-- The wording of a cause. -/
def Fault.Cause.message : Fault.Cause → String
  | .unexpectedCharacter => "Unexpected character"
  | .missingBrace => "Expecting \x7d"
  | .unexpectedBracket => "Unexpected bracket"
  | .unclosedQuote => "Unclosed quote"
  | .misplaced kind => "Unexpected \"" ++ kind ++ "\" token"
  | .unexpectedToken => "Unexpected token"
  | .unexpectedEnd => "Unexpected end of input"

/-- A cause and the offset where it was noticed. -/
structure Notice where
  cause : Fault.Cause
  offset : Nat
  deriving DecidableEq, Repr

/-- What was noticed in an abbreviation. -/
structure Fault where
  cause : Fault.Cause
  offset : Nat
  abbreviation : String
  deriving DecidableEq, Repr

/-- The fault of an abbreviation in which something was noticed. -/
def Notice.within (abbreviation : String) (notice : Notice) : Fault :=
  ⟨notice.cause, notice.offset, abbreviation⟩

section

variable {α : Type} {answer : Except Notice α} {abbreviation : String}

/-- An abbreviation is answered if nothing is noticed in it. -/
theorem mapError_within_eq_ok_iff {value : α} :
    answer.mapError (Notice.within abbreviation) = .ok value ↔ answer = .ok value := by
  cases answer with
  | error notice => exact ⟨nofun, nofun⟩
  | ok found => exact ⟨fun same => congrArg Except.ok (Except.ok.inj same), fun same => same ▸ rfl⟩

/-- An abbreviation is at fault if something is noticed in it. -/
theorem mapError_within_eq_error_iff {fault : Fault} :
    answer.mapError (Notice.within abbreviation) = .error fault ↔
      ∃ notice, answer = .error notice ∧ notice.within abbreviation = fault := by
  cases answer with
  | error notice =>
    constructor
    · intro same
      exact ⟨notice, rfl, Except.error.inj same⟩
    · rintro ⟨other, same, rfl⟩
      cases same
      rfl
  | ok found => exact ⟨nofun, nofun⟩

end

namespace Fault

/-- A message with the offset it concerns. -/
def located (message : String) (offset : Nat) : String := message ++ " at " ++ toString offset

/-- The text shown for a fault. -/
def display (fault : Fault) : String := located fault.cause.message fault.offset

/-- A text and below it a pointer to the character at an offset. -/
def ruler (text : String) (offset : Nat) : String :=
  text ++ "\n" ++ Text.repeated " " offset ++ "^"

/-- The abbreviation of a fault and below it a pointer to where it was noticed. -/
def pointer (fault : Fault) : String := ruler fault.abbreviation fault.offset

end Fault

/-- Why an abbreviation comes to nothing. -/
inductive Failure where
  /-- It is refused. -/
  | fault (fault : Fault)
  /-- The program stops before there is an answer. -/
  | crash
  deriving DecidableEq, Repr

end Shorthand
