import Mathlib.Data.List.TakeWhile
import Mathlib.Data.List.Nodup
import Shorthand.Proofs.Markup.Statement.Findings
import Shorthand.Proofs.Markup.TokenCover

/-!
# Statements hold the contents of their tokens

Every reader takes a piece from the front of the tokens and keeps what has content in it: only
brackets, marks, blanks and repeaters are left out. The elements of the statements, in preorder,
are what the pieces were taken for, one behind the other, so that the tokens of an element stand
in front of those of all later elements.
-/

namespace Shorthand.Markup

/-! ### The tokens of an element -/

/-- Whether a token is a name that a mark implies. -/
def Token.isImplied (token : Token) : Bool :=
  token = impliedLiteral "id" || token = impliedLiteral "class"

/-- The tokens of an attribute, without a name that a mark implies. -/
def AttributeTokens.own (written : AttributeTokens) : List Token :=
  (written.name.getD []).filter (!·.isImplied) ++ written.value.getD []

/-- The tokens of an element: of its name, its attributes and its text. -/
def Head.own (head : Head) : List Token :=
  head.name.getD [] ++ (head.attributes.getD []).flatMap AttributeTokens.own ++
    head.value.getD []

/-- The tokens of the elements of some statements, in preorder. -/
def ownTokens (statements : List Statement) : List Token := (headsAll statements).flatMap Head.own

/-! ### Taking tokens from the front -/

/-- What is kept of a piece is all but some tokens without content. -/
def Keeps (piece kept : List Token) : Prop :=
  ∃ dropped, piece.Perm (kept ++ dropped) ∧ ∀ token ∈ dropped, token.isNamePart = false

/-- A piece is taken from the front of some tokens, and what it keeps is known. -/
def Takes (tokens kept left : List Token) : Prop :=
  ∃ piece, tokens = piece ++ left ∧ Keeps piece kept

/-- A piece that is kept whole loses nothing. -/
theorem Keeps.all (piece : List Token) : Keeps piece piece :=
  ⟨[], by rw [List.append_nil], List.forall_mem_nil _⟩

/-- Of a piece without content tokens nothing has to be kept. -/
theorem Keeps.nothing {piece : List Token} (without : ∀ token ∈ piece, token.isNamePart = false) :
    Keeps piece [] :=
  ⟨piece, .refl _, without⟩

/-- What is kept of two pieces is kept of both together. -/
theorem Keeps.append {first second keptFirst keptSecond : List Token}
    (keepsFirst : Keeps first keptFirst) (keepsSecond : Keeps second keptSecond) :
    Keeps (first ++ second) (keptFirst ++ keptSecond) := by
  obtain ⟨droppedFirst, sameFirst, withoutFirst⟩ := keepsFirst
  obtain ⟨droppedSecond, sameSecond, withoutSecond⟩ := keepsSecond
  refine ⟨droppedFirst ++ droppedSecond, ?_,
    List.forall_mem_append.mpr ⟨withoutFirst, withoutSecond⟩⟩
  refine (sameFirst.append sameSecond).trans ?_
  simp only [List.append_assoc]
  refine .append_left _ ?_
  simp only [← List.append_assoc]
  exact List.perm_append_comm.append_right _

/-- The order in which a piece is kept does not matter. -/
theorem Keeps.perm {piece kept other : List Token} (keeps : Keeps piece kept)
    (same : kept.Perm other) : Keeps piece other := by
  obtain ⟨dropped, all, without⟩ := keeps
  exact ⟨dropped, all.trans (same.append_right _), without⟩

namespace Takes

variable {tokens kept more left behind : List Token}

/-- A reader that hands on a whole piece takes all of it. -/
theorem all (piece left : List Token) : Takes (piece ++ left) piece left :=
  ⟨piece, rfl, .all piece⟩

/-- A reader that leaves everything takes nothing. -/
theorem none (tokens : List Token) : Takes tokens [] tokens := all [] tokens

/-- A token without content may be passed over. -/
theorem skip {token : Token} (without : token.isNamePart = false) (rest : List Token) :
    Takes (token :: rest) [] rest :=
  ⟨[token], rfl, .nothing (List.forall_mem_singleton.mpr without)⟩

/-- Two readers in a row take what each of them takes. -/
theorem trans (first : Takes tokens kept left) (second : Takes left more behind) :
    Takes tokens (kept ++ more) behind := by
  obtain ⟨piece, rfl, keeps⟩ := first
  obtain ⟨next, rfl, keepsNext⟩ := second
  exact ⟨piece ++ next, (List.append_assoc _ _ _).symm, keeps.append keepsNext⟩

/-- A token without content stands in front of what is taken. -/
theorem behind_mark {token : Token} (without : token.isNamePart = false)
    (takes : Takes tokens kept left) : Takes (token :: tokens) kept left :=
  (skip without tokens).trans takes

/-- The order in which tokens are taken does not matter. -/
theorem perm {other : List Token} (takes : Takes tokens kept left) (same : kept.Perm other) :
    Takes tokens other left := by
  obtain ⟨piece, whole, keeps⟩ := takes
  exact ⟨piece, whole, keeps.perm same⟩

/-- Only tokens that were there are taken. -/
theorem subset (takes : Takes tokens kept left) : kept ⊆ tokens := by
  obtain ⟨piece, rfl, dropped, same, -⟩ := takes
  exact fun token member =>
    List.mem_append_left left (same.mem_iff.mpr (List.mem_append_left dropped member))

end Takes

/-! ### Texts, values and attributes -/

/-- Brackets are no content. -/
theorem Token.noContent_of_isBracket {enclosure : Enclosure} {isOpen : Bool} {token : Token}
    (isBracket : token.isBracket enclosure isOpen) : token.isNamePart = false := by
  rw [Token.isNamePart, kind_of_isBracket isBracket]

/-- Operators are no content. -/
theorem Token.noContent_of_isOperator {operator : Operator} {token : Token}
    (isOperator : token.isOperator operator) : token.isNamePart = false := by
  rw [Token.isNamePart, kind_of_isOperator isOperator]

/-- White space is no content. -/
theorem Token.noContent_of_isWhiteSpace {token : Token} (isWhiteSpace : token.isWhiteSpace) :
    token.isNamePart = false := by
  obtain ⟨blanks, isBlank⟩ := kind_of_isWhiteSpace isWhiteSpace
  rw [Token.isNamePart, isBlank]

/-- Repeaters are no content. -/
theorem Token.noContent_of_repeat? {token : Token} {repetition : Repeat}
    (found : token.repeat? = some repetition) : token.isNamePart = false := by
  rw [Token.isNamePart, kind_of_repeat? found]

/-- A literal takes the tokens it passes. -/
theorem readLiteral_takes {allowBrackets : Bool} {tokens taken left : List Token}
    (read : readLiteral allowBrackets 0 0 0 tokens = (taken, left)) : Takes tokens taken left := by
  have whole := readLiteral_append allowBrackets 0 0 0 tokens
  rw [read] at whole
  rw [← whole]
  exact .all taken left

/-- A closing brace at the end is no content. -/
theorem dropFinalBrace_keeps (tokens : List Token) : Keeps tokens (dropFinalBrace tokens) := by
  rw [dropFinalBrace]
  split
  case isTrue closes =>
    cases isLast : tokens.getLast? with
    | none =>
      rw [isLast] at closes
      cases closes
    | some last =>
      rw [isLast] at closes
      refine ⟨[last], ?_, List.forall_mem_singleton.mpr (Token.noContent_of_isBracket closes)⟩
      rw [List.dropLast_append_getLast? last isLast]
  case isFalse => exact .all tokens

/-- A text takes what stands between its braces. -/
theorem readText_takes {tokens text left : List Token}
    (read : readText tokens = some (text, left)) : Takes tokens text left := by
  obtain ⟨opening, rest, isOpening, rfl, rfl, rfl⟩ := readText_finds read
  exact .behind_mark (Token.noContent_of_isBracket isOpening)
    ⟨_, (throughBrace_append 0 rest).symm, dropFinalBrace_keeps _⟩

/-- A quoted value takes all of its tokens, the quotes too. -/
theorem readQuoted_takes {tokens taken left : List Token}
    (read : readQuoted tokens = .ok (some (taken, left))) : Takes tokens taken left := by
  obtain ⟨_, _, _, _, -, -, -, -, rfl⟩ := readQuoted_finds read
  exact .all taken left

/-- A value takes its tokens, where there is one. -/
theorem readValue_takes {tokens left : List Token} {value : Option (List Token)}
    (read : readValue tokens = .ok (value, left)) : Takes tokens (value.getD []) left :=
  (readValue_finds read).elim readQuoted_takes readLiteral_takes

/-- An attribute of a list takes the tokens of its name and those of its value. -/
theorem readAttribute_takes {tokens left : List Token} {written : AttributeTokens}
    (read : readAttribute tokens = .ok (some (written, left))) :
    Takes tokens (written.name.getD [] ++ written.value.getD []) left := by
  obtain ⟨value, rfl, quoted⟩ | ⟨name, value, behind, -, rfl, literal, alone | assigned⟩ :=
    readAttribute_finds read
  · exact readQuoted_takes quoted
  · obtain ⟨rfl, rfl⟩ := alone
    exact (readLiteral_takes literal).trans (.none left)
  · obtain ⟨next, rest, isEqual, rfl, valued⟩ := assigned
    exact (readLiteral_takes literal).trans
      ((readValue_takes valued).behind_mark (Token.noContent_of_isOperator isEqual))

/-! ### Attributes with the names that marks imply -/

/-- No token is one that a mark implies. -/
def AllWritten (tokens : List Token) : Prop := ∀ token ∈ tokens, token.isImplied = false

/-- Behind tokens that are taken all are still written ones. -/
theorem Takes.allWritten {tokens kept left : List Token} (takes : Takes tokens kept left)
    (written : AllWritten tokens) : AllWritten left := by
  obtain ⟨piece, rfl, -⟩ := takes
  exact fun token member => written token (List.mem_append_right piece member)

/-- The tokens of a list are kept as the own tokens of its attributes. -/
theorem readAttributeList_takes {tokens left : List Token} {found : List AttributeTokens}
    (written : AllWritten tokens) (read : readAttributeList tokens = .ok (found, left)) :
    Takes tokens (found.flatMap AttributeTokens.own) left := by
  fun_induction readAttributeList tokens generalizing found left with
  | case1 =>
    cases read
    exact .none []
  | case2 | case3 | case7 => cases read
  | case4 token rest first between readFirst others left' readRest ih =>
    cases read
    have takes := readAttribute_takes readFirst
    have own : first.own = first.name.getD [] ++ first.value.getD [] := by
      have named : AllWritten (first.name.getD []) := fun token member =>
        written token (takes.subset (List.mem_append_left _ member))
      rw [AttributeTokens.own, List.filter_eq_self.mpr fun token member => by
        rw [named token member]; rfl]
    rw [List.flatMap_cons, own]
    exact takes.trans (ih (takes.allWritten written) readRest)
  | case5 token rest none' isClosing =>
    cases read
    exact .skip (Token.noContent_of_isBracket isClosing) rest
  | case6 token rest none' notClosing isBlank ih =>
    exact (ih (fun token member => written token (List.mem_cons_of_mem _ member)) read).behind_mark
      (Token.noContent_of_isWhiteSpace isBlank)

/-- Marks of classes and ids are no content. -/
theorem noContent_marks {operator : Operator} {marks : List Token}
    (isMark : ∀ mark ∈ marks, mark.isOperator operator) : Keeps marks [] :=
  .nothing fun mark member => Token.noContent_of_isOperator (isMark mark member)

/-- Attributes take their own tokens, without the names that their marks imply. -/
theorem readAttributes_takes {jsx : Bool} {tokens left : List Token}
    {found : List AttributeTokens} (written : AllWritten tokens)
    (read : readAttributes jsx tokens = .ok (some (found, left))) :
    Takes tokens (found.flatMap AttributeTokens.own) left := by
  obtain ⟨operator, name, short, implied, rfl, readShort⟩ |
    ⟨opening, rest, isOpening, rfl, listed⟩ := readAttributes_finds read
  · obtain ⟨isName, marks, rest, -, areMarks, rfl, valued⟩ := readShortAttribute_finds readShort
    have own : [short].flatMap AttributeTokens.own = short.value.getD [] := by
      simp only [List.mem_cons, Prod.mk.injEq, List.not_mem_nil, or_false] at implied
      rw [List.flatMap_singleton, AttributeTokens.own, isName]
      obtain ⟨-, rfl⟩ | ⟨-, rfl⟩ := implied <;> rfl
    rw [own]
    have marked : Takes (marks ++ rest) [] rest := ⟨marks, rfl, noContent_marks areMarks⟩
    exact marked.trans (valued.elim (fun text => readText_takes text.2) readLiteral_takes)
  · exact (readAttributeList_takes (fun token member => written token
      (List.mem_cons_of_mem _ member)) listed).behind_mark (Token.noContent_of_isBracket isOpening)

/-! ### Elements -/

/-- A repeater takes nothing. -/
theorem readRepeat_takes {tokens left : List Token} {repetition : Option Repeat}
    (read : readRepeat tokens = (repetition, left)) : Takes tokens [] left := by
  obtain ⟨-, rfl⟩ | ⟨token, found, isRepeat, -, rfl⟩ := readRepeat_finds read
  · exact .none left
  · exact .skip (Token.noContent_of_repeat? isRepeat) left

/-- A text is put behind the own tokens of an element. -/
theorem Head.own_withText {head : Head} (isNone : head.value.isNone) (text : List Token) :
    { head with value := some text }.own = head.own ++ text := by
  simp [Head.own, Option.isNone_iff_eq_none.mp isNone]

/-- Attributes that are added are own tokens of the element. -/
theorem Head.own_addAttributes (head : Head) (added : List AttributeTokens) :
    (head.addAttributes added).own.Perm (head.own ++ added.flatMap AttributeTokens.own) := by
  simp only [Head.own, Head.addAttributes, Option.getD_some, List.flatMap_append, List.append_assoc]
  exact .append_left _ (.append_left _ List.perm_append_comm)

/-- What is added to an element is added to its tokens. -/
theorem Extension.takes {jsx : Bool} {head extended : Head} {tokens left : List Token}
    (extension : Extension jsx head tokens extended left) (written : AllWritten tokens) :
    ∃ added, Takes tokens added left ∧ extended.own.Perm (head.own ++ added) := by
  have further {head next extended : Head} {tokens kept middle left : List Token}
      (takes : Takes tokens kept middle) (own : next.own.Perm (head.own ++ kept))
      (behind : ∃ added, Takes middle added left ∧ extended.own.Perm (next.own ++ added)) :
      ∃ added, Takes tokens added left ∧ extended.own.Perm (head.own ++ added) := by
    obtain ⟨added, takesAdded, same⟩ := behind
    refine ⟨kept ++ added, takes.trans takesAdded, ?_⟩
    rw [← List.append_assoc]
    exact same.trans (own.append_right added)
  have nothing (head : Head) : head.own.Perm (head.own ++ []) := by rw [List.append_nil]
  induction extension with
  | ends => exact ⟨[], .none _, nothing _⟩
  | @closes head close rest left _ isClose repetition behind =>
    have takes : Takes rest [] left := by
      obtain rfl | found := behind
      · exact .none left
      · exact readRepeat_takes found
    exact ⟨[], takes.behind_mark (Token.noContent_of_isOperator isClose), nothing head⟩
  | @repeated head extended token rest left repetition _ isRepeat _ ih =>
    have takes := Takes.skip (Token.noContent_of_repeat? isRepeat) rest
    exact further takes (nothing _) (ih (takes.allWritten written))
  | text noValue isText _ ih =>
    have takes := readText_takes isText
    exact further takes (.of_eq (Head.own_withText noValue _)) (ih (takes.allWritten written))
  | attributes areAttributes _ ih =>
    have takes := readAttributes_takes written areAttributes
    exact further takes (Head.own_addAttributes _ _) (ih (takes.allWritten written))

/-- The own tokens of an element are those that are taken for it. -/
theorem readHead_takes {jsx : Bool} {tokens left : List Token} {head : Head}
    (written : AllWritten tokens) (read : readHead jsx tokens = .ok (some (head, left))) :
    Takes tokens head.own left ∧ head.isEmpty = false := by
  obtain ⟨filled, name, rest, named, extension⟩ := readHead_finds read
  have whole := readName_append jsx tokens
  rw [named] at whole
  have takes : Takes tokens name rest := whole ▸ Takes.all name rest
  obtain ⟨added, takesAdded, same⟩ := extension.takes (takes.allWritten written)
  have start : { Head.empty with name := if name.isEmpty then none else some name }.own = name := by
    cases name <;> simp [Head.own, Head.empty]
  rw [start] at same
  exact ⟨(takes.trans takesAdded).perm same.symm, filled⟩

/-- A token that begins no element is no content. -/
theorem noContent_of_not_beginsElement {token : Token}
    (beginsNone : token.beginsElement = false) : token.isNamePart = false := by
  simp only [Token.beginsElement, Bool.or_eq_false_iff] at beginsNone
  exact beginsNone.1.1.1.1

/-! ### Places in the tree -/

/-- The element that a statement itself is; a group is none. -/
def Statement.ownHeads : Statement → List Head
  | .element head _ => [head]
  | .group _ _ => []

/-- A statement has its own head and those below it, in this order. -/
theorem heads_eq (statement : Statement) :
    statement.heads = statement.ownHeads ++ headsAll statement.inner := by
  cases statement <;> rfl

/-- Statements put below another one change only what is below it. -/
theorem heads_withInner (statement : Statement) (inner : List Statement) :
    (statement.withInner inner).heads = statement.ownHeads ++ headsAll inner := by
  cases statement <;> rfl

/-- The heads of statements in a row are those of each of them. -/
theorem headsAll_append (front rest : List Statement) :
    headsAll (front ++ rest) = headsAll front ++ headsAll rest := by
  induction front with
  | nil => rfl
  | cons first front ih => simp [headsAll, ih]

/-- One statement has its own heads. -/
theorem headsAll_singleton (statement : Statement) : headsAll [statement] = statement.heads :=
  List.append_nil _

/-- The elements of a level are those before it and its parent, and what is inside follows. -/
theorem headsAll_close (level : Level) (inner : List Statement) :
    headsAll (Place.Level.close level inner) =
      headsAll level.before ++ level.parent.ownHeads ++ headsAll inner := by
  simp [Place.Level.close, headsAll_append, headsAll_singleton, heads_withInner]

namespace Place

/-- The elements of the levels come before those of the statements inside. -/
theorem headsAll_foldl_close (levels : List Level) : ∃ above, ∀ statements,
    headsAll (levels.foldl (fun inner level => Level.close level inner) statements) =
      above ++ headsAll statements := by
  induction levels with
  | nil => exact ⟨[], fun _ => rfl⟩
  | cons level levels ih =>
    obtain ⟨above, same⟩ := ih
    refine ⟨above ++ (headsAll level.before ++ level.parent.ownHeads), fun statements => ?_⟩
    rw [List.foldl_cons, same, headsAll_close, List.append_assoc above]

/-- A statement added to a place is its last one. -/
theorem headsAll_add (place : Place) (statement : Statement) :
    headsAll (place.add statement).close = headsAll place.close ++ statement.heads := by
  obtain ⟨above, same⟩ := headsAll_foldl_close place.levels
  rw [close, close, add, same, same, headsAll_append, headsAll_singleton, List.append_assoc]

/-- A statement that is gone down into is the last one so far. -/
theorem headsAll_descend (place : Place) (statement : Statement) :
    headsAll (place.descend statement).close = headsAll place.close ++ statement.heads := by
  obtain ⟨above, same⟩ := headsAll_foldl_close place.levels
  rw [close, close, descend, List.foldl_cons, same, same, headsAll_close, heads_eq,
    List.append_assoc, List.append_assoc]

/-- Climbing changes nothing about what has been read. -/
theorem close_climbs (count : Nat) (place : Place) : (place.climbs count).close = place.close := by
  induction count generalizing place with
  | zero => rfl
  | succ count ih =>
    obtain ⟨statements, levels⟩ := place
    rw [climbs, ih]
    cases levels <;> rfl

/-- Wherever the operator behind a statement leads, the elements of the statement come last. -/
theorem headsAll_put (place : Place) (statement : Statement) (tokens : List Token) :
    headsAll (place.put statement tokens).1.close = headsAll place.close ++ statement.heads := by
  cases tokens with
  | nil => exact headsAll_add place statement
  | cons token rest =>
    rw [put]
    split
    · exact headsAll_descend place statement
    · split
      · exact headsAll_add place statement
      · rw [close_climbs, headsAll_add]

/-- The operator behind a statement takes nothing. -/
theorem put_takes (place : Place) (statement : Statement) (tokens : List Token) :
    Takes tokens [] (place.put statement tokens).2 := by
  cases tokens with
  | nil => exact .none []
  | cons token rest =>
    rw [put]
    split
    case isTrue isChild => exact .skip (Token.noContent_of_isOperator isChild) rest
    case isFalse =>
      split
      case isTrue isSibling => exact .skip (Token.noContent_of_isOperator isSibling) rest
      case isFalse =>
        exact ⟨_, List.takeWhile_append_dropWhile.symm,
          noContent_marks fun mark member => List.mem_takeWhile_imp member⟩

end Place

/-! ### The statements of a source -/

/-- Pieces are taken from the front of tokens, one for each element, with tokens that have no
content between them. -/
inductive TakesHeads : List Token → List Head → List Token → Prop where
  | done (tokens : List Token) : TakesHeads tokens [] tokens
  | pass {tokens rest left : List Token} {heads : List Head} (takes : Takes tokens [] rest)
      (others : TakesHeads rest heads left) : TakesHeads tokens heads left
  | head {tokens rest left : List Token} {head : Head} {heads : List Head}
      (takes : Takes tokens head.own rest) (filled : head.isEmpty = false)
      (others : TakesHeads rest heads left) : TakesHeads tokens (head :: heads) left

/-- The elements of open places, the outermost first. -/
def headsOfPlaces : List Place → List Head
  | [] => []
  | place :: outer => headsOfPlaces outer ++ headsAll place.close

/-- The end of a group takes nothing. -/
theorem readGroupEnd_takes {token : Token} {rest left : List Token} {repetition : Option Repeat}
    (beginsNone : token.beginsElement = false)
    (read : readGroupEnd token rest = (repetition, left)) :
    Takes (token :: rest) [] left := by
  have noContent := noContent_of_not_beginsElement beginsNone
  rw [readGroupEnd] at read
  split at read
  case isTrue => exact (readRepeat_takes read).behind_mark noContent
  case isFalse =>
    cases read
    exact .skip noContent rest

/-- Reading adds the elements that are taken behind those of the open places. -/
theorem readStatements_takes {jsx : Bool} {place : Place} {outer : List Place}
    {tokens left : List Token} {found : List Statement} (written : AllWritten tokens)
    (read : readStatements jsx place outer tokens = .ok (found, left)) :
    ∃ heads, headsAll found = headsOfPlaces (place :: outer) ++ heads ∧
      TakesHeads tokens heads left := by
  -- What has been read stands at the places, inside of all open groups; closing a group puts it at
  -- the place around and takes nothing.
  fun_induction readStatements jsx place outer tokens with
  | case1 place =>
    cases read
    exact ⟨[], by simp [headsOfPlaces], .done []⟩
  | case2 place around outer ih =>
    obtain ⟨heads, same, takes⟩ := ih written read
    refine ⟨heads, ?_, takes⟩
    rw [same]
    simp [headsOfPlaces, Place.headsAll_add, Statement.heads]
  | case3 => cases read
  | case4 place outer token rest head behind readFirst ih =>
    obtain ⟨takesHead, filled⟩ := readHead_takes written readFirst
    have takesPut := Place.put_takes place (.element head []) behind
    obtain ⟨heads, same, takes⟩ := ih (takesPut.allWritten (takesHead.allWritten written)) read
    refine ⟨head :: heads, ?_, .head takesHead filled (.pass takesPut takes)⟩
    rw [same]
    simp [headsOfPlaces, Place.headsAll_put, Statement.heads, headsAll]
  | case5 place outer token rest none' opens ih =>
    have takesOpening := Takes.skip (Token.noContent_of_isBracket opens) rest
    obtain ⟨heads, same, takes⟩ := ih (takesOpening.allWritten written) read
    refine ⟨heads, ?_, .pass takesOpening takes⟩
    rw [same]
    simp [headsOfPlaces, Place.top, Place.close, headsAll]
  | case6 place token rest none' notOpening =>
    cases read
    exact ⟨[], by simp [headsOfPlaces], .done _⟩
  | case7 place token rest none' notOpening around outer statement ih =>
    have takesEnd := readGroupEnd_takes (not_beginsElement_of_readHead none')
      (rfl : readGroupEnd token rest = _)
    have takesPut := Place.put_takes around statement (readGroupEnd token rest).2
    obtain ⟨heads, same, takes⟩ := ih (takesPut.allWritten (takesEnd.allWritten written)) read
    refine ⟨heads, ?_, .pass takesEnd (.pass takesPut takes)⟩
    rw [same]
    simp [headsOfPlaces, Place.headsAll_put, statement, Statement.heads]

/-! ### Every content once and in order -/

/-- No element that is read is empty. -/
theorem TakesHeads.filled {tokens left : List Token} {heads : List Head}
    (takes : TakesHeads tokens heads left) : ∀ head ∈ heads, head.isEmpty = false := by
  induction takes with
  | done => exact List.forall_mem_nil _
  | pass _ _ ih => exact ih
  | head _ filled _ ih => exact List.forall_mem_cons.mpr ⟨filled, ih⟩

/-- All tokens together are taken for the elements. -/
theorem TakesHeads.takes {tokens left : List Token} {heads : List Head}
    (takes : TakesHeads tokens heads left) : Takes tokens (heads.flatMap Head.own) left := by
  induction takes with
  | done tokens => exact .none tokens
  | pass takes _ ih => exact takes.trans ih
  | head takes _ _ ih => exact takes.trans ih

/-- A relation that holds between tokens and those behind them holds between the tokens of an
element and those of all later ones. -/
theorem TakesHeads.pairwise {relation : Token → Token → Prop} {tokens left : List Token}
    {heads : List Head} (takes : TakesHeads tokens heads left)
    (ordered : tokens.Pairwise relation) :
    heads.Pairwise fun earlier later =>
      ∀ first ∈ earlier.own, ∀ second ∈ later.own, relation first second := by
  induction takes with
  | done => exact .nil
  | pass takes _ ih =>
    obtain ⟨piece, rfl, -⟩ := takes
    exact ih (List.pairwise_append.mp ordered).2.1
  | @head tokens rest left head heads takes _ others ih =>
    obtain ⟨piece, rfl, dropped, same, -⟩ := takes
    obtain ⟨-, behind, across⟩ := List.pairwise_append.mp ordered
    refine .cons (fun later member first isFirst second isSecond => ?_) (ih behind)
    refine across first (same.mem_iff.mpr (List.mem_append_left dropped isFirst)) second ?_
    exact others.takes.subset (List.mem_flatMap.mpr ⟨later, member, isSecond⟩)

/-- Tokens whose spans tile a piece of the source are written ones. -/
theorem allWritten_of_tile {written : List Token} {start stop : Nat}
    (tiles : Tile start (written.map Token.span) stop) : AllWritten written := by
  intro token member
  have filled := (tiles.bounds token.span (List.mem_map_of_mem member)).2
  refine Bool.eq_false_iff.mpr fun isImplied => ?_
  simp only [Token.isImplied, Bool.or_eq_true, decide_eq_true_eq] at isImplied
  obtain rfl | rfl := isImplied <;> cases filled

/-- Every token with content occurs once in the elements, whose tokens are all written and cover
different parts of the source. No element is empty, and the tokens of each stand before those of
all later ones in preorder. -/
theorem contents_statements {jsx : Bool} {source : String} {found : List Statement}
    (read : statements jsx source = .ok found) :
    ∃ written, tokens source = .ok written ∧
      (∀ token ∈ written, token.isNamePart → (ownTokens found).count token = 1) ∧
      (∀ token ∈ ownTokens found, token ∈ written) ∧
      ((ownTokens found).Pairwise fun first second =>
        first.span.stop ≤ second.span.start ∨ second.span.stop ≤ first.span.start) ∧
      (∀ head ∈ headsAll found, head.isEmpty = false) ∧
      (headsAll found).Pairwise fun earlier later => ∀ first ∈ earlier.own, ∀ second ∈ later.own,
        first.span.stop ≤ second.span.start := by
  obtain ⟨written, readTokens, readAll⟩ := statements_finds read
  have tiles :=
    (tokensFrom_cover (mapError_within_eq_ok_iff.mp readTokens) (.start source.toList)).1
  obtain ⟨heads, same, takesHeads⟩ := readStatements_takes (allWritten_of_tile tiles) readAll
  have isHeads : headsAll found = heads := same
  subst isHeads
  have inOrder := List.pairwise_map.mp tiles.pairwise
  -- The tokens lie one behind the other and none is empty, so that no token is there twice.
  have filled (token : Token) (member : token ∈ written) : token.span.start < token.span.stop :=
    (tiles.bounds token.span (List.mem_map_of_mem member)).2
  have takes := takesHeads.takes
  obtain ⟨piece, whole, dropped, all, without⟩ := takes
  rw [List.append_nil] at whole
  subst whole
  refine ⟨written, readTokens, fun token member content => ?_, takesHeads.takes.subset, ?_,
    takesHeads.filled, takesHeads.pairwise inOrder⟩
  · have once : written.count token = 1 := by
      refine List.count_eq_one_of_mem (inOrder.imp_of_mem ?_) member
      rintro first second isFirst - before rfl
      have := filled first isFirst
      omega
    have notDropped : dropped.count token = 0 := by
      refine List.count_eq_zero.mpr fun isDropped => ?_
      rw [without token isDropped] at content
      cases content
    rw [all.count_eq, List.count_append, notDropped] at once
    exact once
  · have apart : written.Pairwise fun first second =>
        first.span.stop ≤ second.span.start ∨ second.span.stop ≤ first.span.start :=
      inOrder.imp .inl
    exact (List.pairwise_append.mp ((all.pairwise_iff Or.symm).mp apart)).1

/-- A class, a list and a text of an element in a group, and an element without a name. -/
theorem contents_statements_mixed :
    let source := "(a.b$[c \"d\"]\x7be\x7d>f)*2+.$#"
    ∃ found written, statements false source = .ok found ∧ tokens source = .ok written ∧
      (headsAll found).map (fun head => head.own.map Token.span) =
        [[⟨1, 2⟩, ⟨3, 4⟩, ⟨4, 5⟩, ⟨6, 7⟩, ⟨8, 9⟩, ⟨9, 10⟩, ⟨10, 11⟩, ⟨13, 14⟩], [⟨16, 17⟩],
          [⟨22, 24⟩]] ∧
      ∀ token ∈ written, token.isNamePart → (ownTokens found).count token = 1 := by
  intro source
  have spans : (statements false source).toOption.map
      (fun found => (headsAll found).map fun head => head.own.map Token.span) =
        some [[⟨1, 2⟩, ⟨3, 4⟩, ⟨4, 5⟩, ⟨6, 7⟩, ⟨8, 9⟩, ⟨9, 10⟩, ⟨10, 11⟩, ⟨13, 14⟩], [⟨16, 17⟩],
          [⟨22, 24⟩]] := by
    decide +kernel
  cases read : statements false source with
  | error fault =>
    rw [read] at spans
    cases spans
  | ok found =>
    rw [read] at spans
    obtain ⟨written, readTokens, once, -⟩ := contents_statements read
    exact ⟨found, written, rfl, readTokens, Option.some.inj spans, once⟩

end Shorthand.Markup
