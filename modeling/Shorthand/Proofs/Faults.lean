import Shorthand.Proofs.Markup.Reader
import Shorthand.Proofs.Markup.Scanner
import Shorthand.Proofs.Stylesheet.Reader
import Shorthand.Proofs.Stylesheet.Scanner

/-!
# Faults point into the abbreviation

Every fault of reading is pointed to inside of the abbreviation or right behind it, whichever
language it is read in. What reads it never leaves it: neither the scanners its characters nor the
readers its tokens.
-/

namespace Shorthand

/-- A span holds characters of the source. -/
def Span.LiesIn (span : Span) (source : String) : Prop :=
  span.start < span.stop ∧ span.stop ≤ source.length

/-- The tiles of a source lie in it. -/
theorem Tile.forall_liesIn {source : String} {spans : List Span}
    (tiles : Tile 0 spans source.length) : ∀ span ∈ spans, span.LiesIn source :=
  fun span member => ⟨(tiles.bounds span member).2, tiles.stop_le span member⟩

/-- The pointer of a fault stands below a character of the source or behind its last one: the
abbreviation is the source, and there are as many blanks before the pointer as characters before
the place of the fault. -/
def Fault.PointsInto (fault : Fault) (source : String) : Prop :=
  fault.abbreviation = source ∧ fault.offset ≤ source.length ∧
    ∃ front behind, source = front ++ behind ∧ front.length = fault.offset ∧
      fault.pointer = source ++ "\n" ++ Text.repeated " " front.length ++ "^"

/-- What is noticed inside of a source or right behind it is a fault that points into it. -/
theorem Notice.pointsInto_within {notice : Notice} {source : String}
    (inside : notice.offset ≤ source.length) : (notice.within source).PointsInto source := by
  have cut : (String.ofList (source.toList.take notice.offset)).length = notice.offset := by
    rw [← String.length_toList, String.toList_ofList,
      List.length_take_of_le (by rwa [String.length_toList])]
  refine ⟨rfl, inside, String.ofList (source.toList.take notice.offset),
    String.ofList (source.toList.drop notice.offset), ?_, cut, ?_⟩
  · rw [← String.ofList_append, List.take_append_drop, String.ofList_toList]
  · rw [cut]
    rfl

/-! ### Markup -/

namespace Markup

variable {source : String} {found : List Token} {fault : Fault}

/-- The spans of the tokens tile the source. -/
theorem tile_of_tokens (read : tokens source = .ok found) :
    Tile 0 (found.map Token.span) source.length := by
  have covered := tokensFrom_cover (mapError_within_eq_ok_iff.mp read) (.start source.toList)
  rw [String.length_toList] at covered
  exact covered.1

/-- The lexer's faults point into the source. -/
theorem pointsInto_of_tokens (failed : tokens source = .error fault) : fault.PointsInto source := by
  obtain ⟨notice, noticed, rfl⟩ := mapError_within_eq_error_iff.mp failed
  have inside := offset_le_of_tokensFrom (.start source.toList) noticed
  rw [String.length_toList] at inside
  exact Notice.pointsInto_within inside

/-- The reader's faults point into the source. -/
theorem pointsInto_of_statements {jsx : Bool} (failed : statements jsx source = .error fault) :
    fault.PointsInto source := by
  cases read : tokens source with
  | error lexed =>
    rw [statements, read] at failed
    cases failed
    exact pointsInto_of_tokens read
  | ok found =>
    rw [statements_eq read] at failed
    obtain ⟨notice, noticed, rfl⟩ := mapError_within_eq_error_iff.mp failed
    exact Notice.pointsInto_within
      ((statementsOfTokens_fails jsx found).offset_le (tile_of_tokens read) noticed)

end Markup

/-! ### Stylesheets -/

namespace Stylesheet

variable {isValue : Bool} {source : String} {found : List Token} {fault : Fault}

/-- The spans of the tokens tile the source. -/
theorem tile_of_tokens (read : tokens isValue source = .ok found) :
    Tile 0 (found.map Token.span) source.length := by
  obtain ⟨depth, reads⟩ :=
    tokensFrom_reads (mapError_within_eq_ok_iff.mp read) (.nil source.toList) (.start source.toList)
  have tiles := reads.tiles
  rwa [List.reverse_reverse, String.length_toList] at tiles

/-- The lexer's faults point into the source. -/
theorem pointsInto_of_tokens (failed : tokens isValue source = .error fault) :
    fault.PointsInto source := by
  obtain ⟨notice, noticed, rfl⟩ := mapError_within_eq_error_iff.mp failed
  have inside := offset_le_of_tokensFrom (.start source.toList) noticed
  rw [String.length_toList] at inside
  exact Notice.pointsInto_within inside

/-- The reader's faults point into the source. -/
theorem pointsInto_of_declarations (failed : declarations isValue source = .error fault) :
    fault.PointsInto source := by
  rw [declarations] at failed
  cases read : tokens isValue source with
  | error lexed =>
    rw [read] at failed
    cases failed
    exact pointsInto_of_tokens read
  | ok found =>
    rw [read] at failed
    obtain ⟨notice, noticed, rfl⟩ := mapError_within_eq_error_iff.mp failed
    exact Notice.pointsInto_within
      ((readDeclarations_fails found).offset_le (tile_of_tokens read) noticed)

end Stylesheet

/-! ### Both languages -/

/-- A fault of reading the tokens or the whole of a source, in either language. -/
inductive IsFaultOf (source : String) : Fault → Prop where
  | markupTokens {fault : Fault} (failed : Markup.tokens source = .error fault) :
      IsFaultOf source fault
  | stylesheetTokens {isValue : Bool} {fault : Fault}
      (failed : Stylesheet.tokens isValue source = .error fault) : IsFaultOf source fault
  | statements {jsx : Bool} {fault : Fault} (failed : Markup.statements jsx source = .error fault) :
      IsFaultOf source fault
  | declarations {isValue : Bool} {fault : Fault}
      (failed : Stylesheet.declarations isValue source = .error fault) : IsFaultOf source fault

/-- The spans of the tokens of a source, in either language. -/
inductive IsSpanOf (source : String) : Span → Prop where
  | markup {tokens : List Markup.Token} {token : Markup.Token}
      (read : Markup.tokens source = .ok tokens) (member : token ∈ tokens) :
      IsSpanOf source token.span
  | stylesheet {isValue : Bool} {tokens : List Stylesheet.Token} {token : Stylesheet.Token}
      (read : Stylesheet.tokens isValue source = .ok tokens) (member : token ∈ tokens) :
      IsSpanOf source token.span

/-- Every fault of a source points into it. The scanners, whose every position is checked against
the end of the source, come to the tokens, or to the fault, without a check that fails, and every
token holds characters of the source; the readers, whose every index is checked against the list of
the tokens, come to what is written, or to a fault, without one that fails. -/
theorem faults_pointInto (source : String) :
    (∀ fault, IsFaultOf source fault → fault.PointsInto source) ∧
      Markup.Scanner.tokens.outcome source = some (Markup.tokens source) ∧
      (∀ isValue, (Stylesheet.Scanner.tokens isValue).outcome source =
        some (Stylesheet.tokens isValue source)) ∧
      (∀ span, IsSpanOf source span → span.LiesIn source) ∧
      (∀ jsx tokens, (Markup.Reader.statements jsx source.length).outcome tokens =
        some (Markup.statementsOfTokens jsx tokens)) ∧
      ∀ isValue tokens, (Stylesheet.Reader.declarations isValue source.length).outcome tokens =
        some (Stylesheet.readDeclarations isValue source.length tokens) := by
  refine ⟨?faults, Markup.Scanner.outcome_tokens source,
    fun isValue => Stylesheet.Scanner.outcome_tokens isValue source, ?spans,
    fun jsx tokens => Markup.Reader.outcome_statements jsx source.length tokens,
    fun isValue tokens => Stylesheet.Reader.outcome_declarations isValue source.length tokens⟩
  case faults =>
    intro fault isFault
    cases isFault with
    | markupTokens failed => exact Markup.pointsInto_of_tokens failed
    | stylesheetTokens failed => exact Stylesheet.pointsInto_of_tokens failed
    | statements failed => exact Markup.pointsInto_of_statements failed
    | declarations failed => exact Stylesheet.pointsInto_of_declarations failed
  case spans =>
    intro span isSpan
    cases isSpan with
    | markup read member =>
      exact (Markup.tile_of_tokens read).forall_liesIn _ (List.mem_map_of_mem member)
    | stylesheet read member =>
      exact (Stylesheet.tile_of_tokens read).forall_liesIn _ (List.mem_map_of_mem member)

/-- An open field at the end is pointed to right behind the last character. -/
example :
    Markup.tokens "p\x7b$\x7b1" = .error ⟨.missingBrace, 5, "p\x7b$\x7b1"⟩ := by
  decide +kernel

end Shorthand
