import Mathlib.Data.List.TakeWhile
import Shorthand.Proofs.Markup.Statement.Grammar

/-!
# Only the grammar is accepted

Every reader takes a piece from the front of the tokens that follows its part of the grammar.
Where the tokens end, the brackets that are still open may be missing. The readers are put
together as the grammar is, so that the missing brackets only have to be looked at once.
-/

namespace Shorthand.Markup.Grammar

/-! ### Pieces with missing brackets -/

/-- A closing bracket that no character of the abbreviation writes. -/
def closer (enclosure : Enclosure) : Token := ⟨.bracket false enclosure, ⟨0, 0⟩⟩

/-- A piece from the front of some tokens has a form. At the end of the tokens, and only there,
closing brackets may be missing in it. -/
def Reads (form : List Slip → List Token → Prop) (tokens left : List Token) : Prop :=
  ∃ piece missing slips, tokens = piece ++ left ∧ (left ≠ [] → missing = []) ∧
    form slips (piece ++ missing.map closer)

namespace Reads

variable {form other both : List Slip → List Token → Prop} {tokens left behind : List Token}

/-- A piece in which nothing is missing. -/
theorem piece (slips : List Slip) {piece : List Token} (isForm : form slips piece)
    (left : List Token) : Reads form (piece ++ left) left :=
  ⟨piece, [], slips, rfl, fun _ => rfl, by simpa using isForm⟩

/-- Nothing is read. -/
theorem stop (slips : List Slip) (isForm : form slips []) (left : List Token) :
    Reads form left left :=
  piece slips isForm left

/-- One token is read. -/
theorem single (slips : List Slip) {token : Token} (isForm : form slips [token])
    (left : List Token) : Reads form (token :: left) left :=
  piece slips isForm left

/-- All brackets are missing. -/
theorem missing (slips : List Slip) {missing : List Enclosure}
    (isForm : form slips (missing.map closer)) : Reads form [] [] :=
  ⟨[], missing, slips, rfl, fun filled => absurd rfl filled, isForm⟩

/-- What is read in one form is read in every weaker one. -/
theorem mono (reads : Reads form tokens left)
    (weaken : ∀ slips piece, form slips piece → ∃ slips, other slips piece) :
    Reads other tokens left := by
  obtain ⟨piece, missing, slips, whole, complete, isForm⟩ := reads
  obtain ⟨slips, isOther⟩ := weaken slips _ isForm
  exact ⟨piece, missing, slips, whole, complete, isOther⟩

/-- Pieces behind each other. Only the last one can miss brackets, as nothing follows those that
do. -/
theorem comp (reads : Reads form tokens left) (next : Reads other left behind)
    (join : ∀ {slips more first rest}, form slips first → other more rest →
      both (slips ++ more) (first ++ rest)) : Reads both tokens behind := by
  obtain ⟨first, missingFirst, slips, rfl, completeFirst, isForm⟩ := reads
  obtain ⟨rest, missingRest, more, rfl, completeRest, isOther⟩ := next
  have joined := join isForm isOther
  refine ⟨first ++ rest, missingFirst ++ missingRest, slips ++ more,
    (List.append_assoc _ _ _).symm, ?_, ?_⟩
  · intro filled
    rw [completeRest filled, completeFirst (List.append_ne_nil_of_right_ne_nil rest filled)]
    rfl
  · have same : first ++ rest ++ (missingFirst ++ missingRest).map closer =
        first ++ missingFirst.map closer ++ (rest ++ missingRest.map closer) := by
      by_cases filled : rest = []
      · simp [filled]
      · simp [completeFirst (List.append_ne_nil_of_left_ne_nil filled behind)]
    rwa [same]

/-- Tokens in front of a piece. -/
theorem front (front : List Token) (reads : Reads form tokens left)
    (wrap : ∀ {slips piece}, form slips piece → other slips (front ++ piece)) :
    Reads other (front ++ tokens) left := by
  obtain ⟨piece, missing, slips, rfl, complete, isForm⟩ := reads
  refine ⟨front ++ piece, missing, slips, (List.append_assoc _ _ _).symm, complete, ?_⟩
  rw [List.append_assoc]
  exact wrap isForm

/-- A token in front is read along if it belongs to the form. -/
theorem cons {token : Token} (reads : Reads form tokens left)
    (wrap : ∀ {slips piece}, form slips piece → other slips (token :: piece)) :
    Reads other (token :: tokens) left :=
  reads.front [token] wrap

/-- A form that has no slips. -/
theorem free (reads : Reads (fun _ => form []) tokens left) : Reads form tokens left :=
  reads.mono fun _ _ isForm => ⟨[], isForm⟩

/-- A piece is not empty if fewer tokens are left. -/
theorem filled (reads : Reads form tokens left) (shorter : left.length < tokens.length) :
    Reads (fun slips piece => piece ≠ [] ∧ form slips piece) tokens left := by
  obtain ⟨piece, missing, slips, rfl, complete, isForm⟩ := reads
  have isFilled : piece ≠ [] := by
    rintro rfl
    exact absurd shorter (Nat.lt_irrefl _)
  exact ⟨piece, missing, slips, rfl, complete, List.append_ne_nil_of_left_ne_nil isFilled _, isForm⟩

end Reads

/-! ### Texts, quotes and literals -/

/-- Behind an opening brace a text is read up to the brace that closes it. -/
theorem throughBrace_reads (depth : Nat) (tokens : List Token) :
    Reads (fun _ => Braced depth) tokens (throughBrace depth tokens).2 := by
  fun_induction throughBrace depth tokens with
  | case1 depth =>
    have closers : Braced depth ((List.replicate (depth + 1) Enclosure.expression).map closer) := by
      induction depth with
      | zero => exact .closing rfl
      | succ depth ih => exact .closesInner rfl ih
    exact .missing [] closers
  | case2 token rest isClosing =>
    exact .single [] (.closing isClosing) _
  | case3 token rest isClosing depth taken left read ih =>
    rw [read] at ih
    exact ih.cons (.closesInner isClosing)
  | case4 depth token rest notClosing isOpening taken left read ih =>
    rw [read] at ih
    exact ih.cons (.opensInner isOpening)
  | case5 depth token rest notClosing notOpening taken left read ih =>
    rw [read] at ih
    exact ih.cons (.inside (Bool.eq_false_iff.mpr notClosing) (Bool.eq_false_iff.mpr notOpening))

/-- A text is read as the grammar has it, or it misses its last brace. -/
theorem readText_reads {tokens text left : List Token}
    (read : readText tokens = some (text, left)) : Reads (fun _ => IsText) tokens left := by
  obtain ⟨opening, rest, isOpening, rfl, -, rfl⟩ := readText_finds read
  exact (throughBrace_reads 0 rest).cons (.braced isOpening)

/-- A quoted value is read between two quotes of one kind. -/
theorem readQuoted_reads {tokens taken left : List Token}
    (read : readQuoted tokens = .ok (some (taken, left))) :
    Reads (fun _ => IsQuoted) tokens left := by
  obtain ⟨isSingle, opening, inner, closing, isOpening, isClosing, others, rfl, rfl⟩ :=
    readQuoted_finds read
  exact .piece [] (.quoted isOpening isClosing others) left

/-- A token that neither separates nor brackets stands in every literal. -/
theorem isPlain_of_kind {token : Token} (noSeparator : ¬ token.separatesLiterals)
    (noBracket : ∀ isOpen enclosure, token.kind = .bracket isOpen enclosure → False) :
    isPlain token := by
  rw [isPlain, Bool.and_eq_true, Bool.not_eq_true', Bool.not_eq_true']
  refine ⟨Bool.eq_false_iff.mpr noSeparator, ?_⟩
  split
  case h_1 isBracket => exact absurd isBracket (noBracket _ _)
  case h_2 => rfl

/-- Without brackets a literal is plain. -/
theorem plain_readLiteral (tokens : List Token) :
    ∀ token ∈ (readLiteral false 0 0 0 tokens).1, isPlain token := by
  induction tokens with
  | nil => exact List.forall_mem_nil _
  | cons token rest ih =>
    rw [readLiteral, if_neg (Nat.lt_irrefl 0)]
    split
    case isTrue => exact List.forall_mem_nil _
    case isFalse noSeparator =>
      split
      case h_1 => exact List.forall_mem_nil _
      case h_2 noBracket =>
        exact List.forall_mem_cons.mpr ⟨isPlain_of_kind noSeparator noBracket, ih⟩

/-- A literal may stop anywhere outside of braces, with brackets left open. -/
theorem literal_stops (attributes groups : Nat) (tokens : List Token) :
    Reads (IsLiteral attributes groups 0) tokens tokens := by
  rcases Nat.eq_zero_or_pos (attributes + groups) with none' | isOpen
  · obtain ⟨rfl, rfl⟩ := Nat.add_eq_zero_iff.mp none'
    exact .stop [] .ends tokens
  · exact .stop [.unclosed attributes groups] (.unclosed isOpen) tokens

/-- At the end of the tokens all brackets of a literal are missing. -/
theorem literal_missing (attributes groups depth : Nat) :
    Reads (IsLiteral attributes groups depth) [] [] := by
  have closers : ∃ missing : List Enclosure,
      IsLiteral attributes groups depth [] (missing.map closer) := by
    induction depth with
    | succ depth ih =>
      obtain ⟨missing, isLiteral⟩ := ih
      exact ⟨.expression :: missing, .closesBrace rfl isLiteral⟩
    | zero =>
      induction attributes with
      | succ attributes ih =>
        obtain ⟨missing, isLiteral⟩ := ih
        exact ⟨.attributes :: missing, .closesAttributes rfl isLiteral⟩
      | zero =>
        induction groups with
        | succ groups ih =>
          obtain ⟨missing, isLiteral⟩ := ih
          exact ⟨.group :: missing, .closesGroup rfl isLiteral⟩
        | zero => exact ⟨[], .ends⟩
  obtain ⟨missing, isLiteral⟩ := closers
  exact .missing [] isLiteral

/-- A literal with brackets pairs them, or leaves some of them open. -/
theorem readLiteral_reads (attributes groups depth : Nat) (tokens : List Token) :
    Reads (IsLiteral attributes groups depth) tokens
      (readLiteral true attributes groups depth tokens).2 := by
  have isBracket {token : Token} {isOpen : Bool} {enclosure : Enclosure}
      (kind : token.kind = .bracket isOpen enclosure) : token.isBracket enclosure isOpen :=
    beq_iff_eq.mpr kind
  -- Each case is a rule of the grammar: inside of braces all but braces is text, and outside of
  -- them the counts of open brackets say which closing ones belong to the literal.
  fun_induction readLiteral true attributes groups depth tokens with
  | case1 attributes groups depth => exact literal_missing attributes groups depth
  | case2 attributes groups depth token rest _ _ isOpening ih =>
    exact (ih _ _ _).cons (.opensBrace isOpening)
  | case3 attributes groups depth token rest _ positive _ isClosing ih =>
    obtain ⟨depth, rfl⟩ := Nat.exists_eq_succ_of_ne_zero (Nat.pos_iff_ne_zero.mp positive)
    exact (ih _ _ _).cons (.closesBrace isClosing)
  | case4 attributes groups depth token rest _ positive notOpening notClosing ih =>
    obtain ⟨depth, rfl⟩ := Nat.exists_eq_succ_of_ne_zero (Nat.pos_iff_ne_zero.mp positive)
    exact (ih _ _ _).cons
      (.inBraces (Bool.eq_false_iff.mpr notClosing) (Bool.eq_false_iff.mpr notOpening))
  | case5 attributes groups depth token rest outside =>
    obtain rfl : depth = 0 := Nat.eq_zero_of_not_pos outside
    exact literal_stops attributes groups (token :: rest)
  | case6 attributes groups depth token rest _ _ _ _ _ noBrackets => cases noBrackets
  | case7 attributes groups depth token rest _ outside _ _ kind ih =>
    obtain rfl : depth = 0 := Nat.eq_zero_of_not_pos outside
    exact (ih _ _ _).cons (.opensAttributes (isBracket kind))
  | case8 attributes groups depth token rest _ outside _ _ kind ih =>
    obtain rfl : depth = 0 := Nat.eq_zero_of_not_pos outside
    exact (ih _ _ _).cons (.opensGroup (isBracket kind))
  | case9 attributes groups depth token rest _ _ _ _ kind ih =>
    exact (ih _ _ _).cons (.opensBrace (isBracket kind))
  | case10 groups depth token rest _ outside _ isOpen _ notOpen attributes kind ih =>
    obtain rfl : depth = 0 := Nat.eq_zero_of_not_pos outside
    rw [Bool.eq_false_iff.mpr notOpen] at kind
    exact (ih _ _ _).cons (.closesAttributes (isBracket kind))
  | case11 attributes depth token rest _ outside _ isOpen _ notOpen groups kind ih =>
    obtain rfl : depth = 0 := Nat.eq_zero_of_not_pos outside
    rw [Bool.eq_false_iff.mpr notOpen] at kind
    exact (ih _ _ _).cons (.closesGroup (isBracket kind))
  | case12 attributes groups depth token rest outside =>
    obtain rfl : depth = 0 := Nat.eq_zero_of_not_pos outside
    exact literal_stops attributes groups (token :: rest)
  | case13 attributes groups depth token rest _ outside noSeparator noBracket ih =>
    obtain rfl : depth = 0 := Nat.eq_zero_of_not_pos outside
    exact (ih _ _ _).cons (.plain (isPlain_of_kind noSeparator noBracket))

/-! ### Attributes -/

/-- A value is a quoted one, a literal or nothing. -/
theorem readValue_reads {tokens left : List Token} {value : Option (List Token)}
    (read : readValue tokens = .ok (value, left)) : Reads IsValue tokens left := by
  obtain quoted | literal := readValue_finds read
  · exact (readQuoted_reads quoted).mono fun _ _ isQuoted => ⟨[], .quoted isQuoted⟩
  · have reads := readLiteral_reads 0 0 0 tokens
    rw [literal] at reads
    exact reads.mono fun slips _ isLiteral => ⟨slips, .literal isLiteral⟩

/-- An attribute of a list is read as the grammar has it. -/
theorem readAttribute_reads {tokens left : List Token} {written : AttributeTokens}
    (read : readAttribute tokens = .ok (some (written, left))) : Reads IsAttribute tokens left := by
  obtain ⟨value, -, quoted⟩ | ⟨name, value, behind, filled, -, literal, found⟩ :=
    readAttribute_finds read
  · exact (readQuoted_reads quoted).mono fun _ _ isQuoted => ⟨[], .quoted isQuoted⟩
  · have whole : name ++ behind = tokens := by
      simpa only [literal] using readLiteral_append true 0 0 0 tokens
    have shorter : behind.length < tokens.length := by
      have positive := List.length_pos_iff.mpr filled
      rw [← whole, List.length_append]
      omega
    have reads := readLiteral_reads 0 0 0 tokens
    rw [literal] at reads
    have named := reads.filled shorter
    obtain ⟨-, rfl⟩ | ⟨next, rest, isEqual, rfl, valued⟩ := found
    · exact named.mono fun slips _ isName => ⟨slips, .named isName.1 isName.2⟩
    · have assigned : Reads (fun slips piece => ∃ value, piece = next :: value ∧
          IsValue slips value) (next :: rest) left :=
        (readValue_reads valued).cons fun isValue => ⟨_, rfl, isValue⟩
      refine named.comp assigned ?_
      rintro slips more name _ ⟨isFilled, isName⟩ ⟨value, rfl, isValue⟩
      exact .assigned isFilled isName isEqual isValue

/-- The tokens of a list follow its grammar, whose closing bracket may be missing at the end. -/
theorem readAttributeList_reads {tokens left : List Token} {found : List AttributeTokens}
    (read : readAttributeList tokens = .ok (found, left)) : Reads IsList tokens left := by
  fun_induction readAttributeList tokens generalizing found left with
  | case1 =>
    cases read
    have closes : IsList [] ([Enclosure.attributes].map closer) := .closing rfl
    exact .missing [] closes
  | case2 | case3 | case7 => cases read
  | case4 token rest first between readFirst others left' readRest ih =>
    cases read
    exact (readAttribute_reads readFirst).comp (ih readRest) .attribute
  | case5 token rest none' isClosing =>
    cases read
    exact .single [] (.closing isClosing) _
  | case6 token rest none' notClosing isBlank ih => exact (ih read).cons (.blank isBlank)

/-- A class or an id is a part of an element. -/
theorem readShortAttribute_reads {jsx : Bool} {operator : Operator} {name : String}
    {tokens left : List Token} {written : AttributeTokens}
    (isShort : operator = .identifier ∨ operator = .className)
    (read : readShortAttribute jsx operator name tokens = some (written, left)) :
    Reads (IsPart jsx) tokens left := by
  obtain ⟨-, marks, rest, filled, areMarks, rfl, valued⟩ := readShortAttribute_finds read
  have value : Reads (fun _ => IsShortValue jsx) rest left := by
    obtain ⟨isJsx, text⟩ | literal := valued
    · exact (readText_reads text).mono fun _ _ isText => ⟨[], .text isJsx isText⟩
    · have whole := readLiteral_append false 0 0 0 rest
      have plain := plain_readLiteral rest
      rw [literal] at whole plain
      rw [← whole]
      have isValue : IsShortValue jsx (written.value.getD []) := .literal plain
      exact .piece [] isValue left
  exact .free (value.front marks (.short isShort filled areMarks))

/-- Classes, ids and attribute lists are parts of an element. -/
theorem readAttributes_reads {jsx : Bool} {tokens left : List Token}
    {found : List AttributeTokens} (read : readAttributes jsx tokens = .ok (some (found, left))) :
    Reads (IsPart jsx) tokens left := by
  obtain ⟨operator, name, written, isShort, -, short⟩ | ⟨opening, rest, isOpening, rfl, listed⟩ :=
    readAttributes_finds read
  · simp only [List.mem_cons, Prod.mk.injEq, List.not_mem_nil, or_false] at isShort
    exact readShortAttribute_reads (isShort.imp And.left And.left) short
  · exact (readAttributeList_reads listed).cons (.list isOpening)

/-! ### Elements -/

/-- A repeater is one token. -/
theorem readRepeat_reads {tokens left : List Token} {repetition : Option Repeat}
    (read : readRepeat tokens = (repetition, left)) : Reads (fun _ => IsRepeat) tokens left := by
  obtain ⟨-, rfl⟩ | ⟨token, found, isRepeat, -, rfl⟩ := readRepeat_finds read
  · exact .stop [] .nothing _
  · exact .single [] (.repeater (Option.isSome_iff_exists.mpr ⟨_, isRepeat⟩)) _

/-- A text is a part of an element. -/
theorem part_of_readText {jsx : Bool} {tokens text left : List Token}
    (read : readText tokens = some (text, left)) : Reads (IsPart jsx) tokens left :=
  (readText_reads read).mono fun _ _ isText => ⟨[], .text isText⟩

/-- What extends an element are parts and repeaters, and a closing mark at the end. -/
theorem rest_of_extension {jsx : Bool} {head extended : Head} {tokens left : List Token}
    (extension : Extension jsx head tokens extended left) : Reads (IsRest jsx) tokens left := by
  induction extension with
  | ends => exact .stop [] .ends _
  | @closes head close rest left _ isClose repetition behind =>
    have isRepeat : Reads (fun _ => IsRepeat) rest left := by
      obtain rfl | found := behind
      · exact .stop [] .nothing left
      · exact readRepeat_reads found
    exact .free (isRepeat.cons (.closes isClose))
  | repeated _ isRepeat _ ih =>
    exact ih.cons (.repeated (Option.isSome_iff_exists.mpr ⟨_, isRepeat⟩))
  | text _ isText _ ih => exact (part_of_readText isText).comp ih .part
  | attributes areAttributes _ ih => exact (readAttributes_reads areAttributes).comp ih .part

/-- Dotted names are pairs of a dot and a capitalized token. -/
theorem isDotted_readDottedNames (tokens : List Token) : IsDotted (readDottedNames tokens).1 := by
  fun_induction readDottedNames tokens with
  | case1 dot name rest isPair taken left read ih =>
    rw [read] at ih
    obtain ⟨isDot, isCapitalized⟩ := Bool.and_eq_true_iff.mp isPair
    exact .dotted isDot isCapitalized ih
  | case2 => exact .nothing
  | case3 => exact .nothing

/-- The tokens of a name are a name, unless there are none. -/
theorem isName_of_readName {jsx : Bool} {tokens name rest : List Token}
    (read : readName jsx tokens = (name, rest)) (filled : name ≠ []) : IsName jsx name := by
  obtain ⟨component, behind, found, ⟨rfl, rfl⟩ | ⟨isJsx, first, rest, isCapitalized, -, rfl, -⟩⟩ :=
    readName_finds jsx tokens
  · cases read.symm.trans found
    exact .plain filled fun token member => List.mem_takeWhile_imp member
  · cases read.symm.trans found
    exact .component isJsx isCapitalized (isDotted_readDottedNames rest) fun token member =>
      List.mem_takeWhile_imp member

/-- An element without a name begins with a part. -/
theorem unnamed_of_extension {jsx : Bool} {head extended : Head} {tokens left : List Token}
    (empty : head.isEmpty) (filled : extended.isEmpty = false)
    (extension : Extension jsx head tokens extended left) : Reads (IsElement jsx) tokens left := by
  cases extension with
  | ends => exact absurd empty (Bool.eq_false_iff.mp filled)
  | closes carries | repeated carries => exact absurd empty (Bool.eq_false_iff.mp carries)
  | text _ isText others =>
    exact (part_of_readText isText).comp (rest_of_extension others) .unnamed
  | attributes areAttributes others =>
    exact (readAttributes_reads areAttributes).comp (rest_of_extension others) .unnamed

/-- An element is read as the grammar has it, with the brackets missing that the input left out. -/
theorem readHead_reads {jsx : Bool} {tokens left : List Token} {head : Head}
    (read : readHead jsx tokens = .ok (some (head, left))) : Reads (IsElement jsx) tokens left := by
  obtain ⟨filled, name, rest, named, extension⟩ := readHead_finds read
  have whole : name ++ rest = tokens := by simpa only [named] using readName_append jsx tokens
  rw [← whole]
  cases name with
  | nil => exact unnamed_of_extension rfl filled extension
  | cons first others =>
    exact (rest_of_extension extension).front (first :: others)
      (.named (isName_of_readName named (List.cons_ne_nil first others)))

/-! ### Statements -/

/-- What is written inside of so many groups, up to the end of the statements outside of them. -/
inductive WrittenInside (jsx : Bool) : Form → Nat → List Slip → List Token → Prop where
  | outside {form : Form} {slips : List Slip} {tokens : List Token}
      (written : Written jsx form slips tokens) : WrittenInside jsx form 0 slips tokens
  | inside {form : Form} {depth : Nat} {inside slips others : List Slip}
      {inner ending rest : List Token} (members : Written jsx form inside inner)
      (isEnd : IsGroupEnd slips ending) (more : WrittenInside jsx .more depth others rest) :
      WrittenInside jsx form (depth + 1) (inside ++ slips ++ others) (inner ++ ending ++ rest)

namespace WrittenInside

variable {jsx : Bool} {form other : Form} {depth : Nat} {slips others : List Slip}
  {first rest : List Token}

/-- What may stand in front of what is written outside of groups may stand there inside of them. -/
theorem front (written : WrittenInside jsx form depth others rest)
    (wrap : ∀ {others rest}, Written jsx form others rest →
      Written jsx other (slips ++ others) (first ++ rest)) :
    WrittenInside jsx other depth (slips ++ others) (first ++ rest) := by
  cases written with
  | outside written => exact .outside (wrap written)
  | inside members isEnd more =>
    simp only [← List.append_assoc]
    exact .inside (wrap members) isEnd more

/-- A group stands where its members, its end and what follows were written inside of it. -/
theorem group {opening : Token} (isOpening : opening.isBracket .group true)
    (written : WrittenInside jsx .statements (depth + 1) slips rest) :
    WrittenInside jsx .statements depth slips (opening :: rest) := by
  cases written with
  | inside members isEnd more => exact more.front (.group isOpening members isEnd)

/-- Statements may follow a statement, as the next ones in line or as ones that are not joined. -/
theorem unjoined (written : WrittenInside jsx .statements depth slips rest) :
    ∃ slips, WrittenInside jsx .more depth slips rest := by
  have follows {slips : List Slip} {tokens : List Token}
      (written : Written jsx .statements slips tokens) :
      ∃ slips, Written jsx .more slips tokens := by
    cases tokens with
    | nil => exact ⟨[], .last⟩
    | cons token rest => exact ⟨_, .unjoined written⟩
  cases written with
  | outside written =>
    obtain ⟨slips, isMore⟩ := follows written
    exact ⟨slips, .outside isMore⟩
  | inside members isEnd others =>
    obtain ⟨slips, isMore⟩ := follows members
    exact ⟨_, .inside isMore isEnd others⟩

end WrittenInside

/-- Behind a statement comes a joint, or nothing that joins. -/
theorem put_reads {jsx : Bool} {depth : Nat} (place : Place) (statement : Statement)
    {tokens left : List Token}
    (reads : Reads (WrittenInside jsx .statements depth) (place.put statement tokens).2 left) :
    Reads (WrittenInside jsx .more depth) tokens left := by
  have joined {joint rest : List Token} (isJoint : IsJoint joint)
      (reads : Reads (WrittenInside jsx .statements depth) rest left) :
      Reads (WrittenInside jsx .more depth) (joint ++ rest) left :=
    reads.front joint fun {slips piece} written =>
      show WrittenInside jsx .more depth ([] ++ slips) (joint ++ piece) from
        written.front (.joined isJoint)
  have unjoined {rest : List Token}
      (reads : Reads (WrittenInside jsx .statements depth) rest left) :
      Reads (WrittenInside jsx .more depth) rest left :=
    reads.mono fun _ _ written => written.unjoined
  cases tokens with
  | nil => exact unjoined reads
  | cons token rest =>
    rw [Place.put] at reads
    split at reads
    case isTrue isChild => exact joined (.child isChild) reads
    case isFalse =>
      split at reads
      case isTrue isSibling => exact joined (.sibling isSibling) reads
      case isFalse =>
        have whole : (token :: rest).takeWhile (Token.isOperator .climb) ++
            (token :: rest).dropWhile (Token.isOperator .climb) = token :: rest :=
          List.takeWhile_append_dropWhile
        by_cases climbs : (token :: rest).takeWhile (Token.isOperator .climb) = []
        · rw [climbs, List.nil_append] at whole
          dsimp only at reads
          rw [whole] at reads
          exact unjoined reads
        · rw [← whole]
          exact joined (.climb climbs fun token member => List.mem_takeWhile_imp member) reads

/-- The end of a group may be any token that begins no statement, or the end of the input. -/
theorem readGroupEnd_reads {token : Token} {rest left : List Token} {repetition : Option Repeat}
    (notOpening : ¬ token.isBracket .group true) (beginsNone : token.beginsElement = false)
    (read : readGroupEnd token rest = (repetition, left)) :
    Reads IsGroupEnd (token :: rest) left := by
  rw [readGroupEnd] at read
  split at read
  case isTrue isClosing => exact .free ((readRepeat_reads read).cons (.closing isClosing))
  case isFalse notClosing =>
    cases read
    exact .single [.strayEnd token]
      (.stray (Bool.eq_false_iff.mpr notClosing) (Bool.eq_false_iff.mpr notOpening) beginsNone) _

/-- Statements inside of open groups are written up to the end of those outside of them. -/
theorem readStatements_reads {jsx : Bool} {place : Place} {outer : List Place}
    {tokens left : List Token} {found : List Statement}
    (read : readStatements jsx place outer tokens = .ok (found, left)) :
    Reads (WrittenInside jsx .statements outer.length) tokens left := by
  fun_induction readStatements jsx place outer tokens with
  | case1 place =>
    cases read
    exact .stop [] (.outside .nothing) _
  | case2 place around outer ih =>
    -- the end of the tokens closes the group
    have closes : IsGroupEnd [] ([Enclosure.group].map closer) := .closing rfl .nothing
    have isEnd : Reads IsGroupEnd [] [] := .missing [] closes
    exact isEnd.comp ((ih read).mono fun _ _ written => written.unjoined) (.inside .nothing)
  | case3 => cases read
  | case4 place outer token rest head behind readFirst ih =>
    exact (readHead_reads readFirst).comp (put_reads place _ (ih read))
      fun isElement more => more.front (.element isElement)
  | case5 place outer token rest none' opens ih => exact (ih read).cons (.group opens)
  | case6 place token rest none' notOpening =>
    cases read
    exact .stop [] (.outside .nothing) _
  | case7 place token rest none' notOpening around outer statement ih =>
    have isEnd := readGroupEnd_reads notOpening (not_beginsElement_of_readHead none')
      (rfl : readGroupEnd token rest = _)
    exact isEnd.comp (put_reads around statement (ih read)) (.inside .nothing)

/-! ### Square brackets without slips -/

/-- Whether a token opens something that may hold a closing square bracket. -/
def holdsBrackets (token : Token) : Bool :=
  token.isBracket .attributes true || token.isBracket .expression true ||
    (token.kind matches .quote _)

/-- A closing square bracket stands only among tokens that open something for it. -/
def Guarded (tokens : List Token) : Prop :=
  (∃ token ∈ tokens, holdsBrackets token) ∨
    ∀ token ∈ tokens, token.isBracket .attributes false = false

namespace Guarded

/-- Pieces that guard their square brackets guard them together. -/
theorem append {first rest : List Token} (guarded : Guarded first) (others : Guarded rest) :
    Guarded (first ++ rest) := by
  rcases guarded with ⟨token, member, holds⟩ | without
  · exact .inl ⟨token, List.mem_append_left rest member, holds⟩
  · rcases others with ⟨token, member, holds⟩ | withoutMore
    · exact .inl ⟨token, List.mem_append_right first member, holds⟩
    · exact .inr (List.forall_mem_append.mpr ⟨without, withoutMore⟩)

/-- A token that closes no square bracket leaves the others guarded. -/
theorem cons {token : Token} {rest : List Token} (apart : token.isBracket .attributes false = false)
    (others : Guarded rest) : Guarded (token :: rest) := by
  have first : Guarded [token] := .inr (List.forall_mem_singleton.mpr apart)
  exact first.append others

end Guarded

section

variable {jsx : Bool} {token : Token} {slips : List Slip} {tokens : List Token}

/-- An operator closes no square bracket. -/
theorem apart_of_isOperator {operator : Operator} (isOperator : token.isOperator operator) :
    token.isBracket .attributes false = false := by
  rw [Token.isBracket, Token.kind_of_isOperator isOperator]
  rfl

/-- A bracket of another kind closes no square bracket. -/
theorem apart_of_isBracket {enclosure : Enclosure} {isOpen : Bool}
    (isBracket : token.isBracket enclosure isOpen) (other : enclosure ≠ .attributes) :
    token.isBracket .attributes false = false := by
  rw [Token.isBracket, Token.kind_of_isBracket isBracket]
  simp [other]

/-- A token of a name closes no square bracket. -/
theorem apart_of_isNamePart (isNamePart : token.isNamePart) :
    token.isBracket .attributes false = false := by
  rw [Token.isBracket]
  cases kind : token.kind <;> simp_all [Token.isNamePart]

/-- A capitalized token closes no square bracket. -/
theorem apart_of_isCapitalized (isCapitalized : token.isCapitalized) :
    token.isBracket .attributes false = false := by
  rw [Token.isBracket]
  cases kind : token.kind <;> simp_all [Token.isCapitalized]

/-- A repeater closes no square bracket. -/
theorem apart_of_repeat? (isRepeat : token.repeat?.isSome) :
    token.isBracket .attributes false = false := by
  obtain ⟨repetition, found⟩ := Option.isSome_iff_exists.mp isRepeat
  rw [Token.isBracket, Token.kind_of_repeat? found]
  rfl

/-- A token that stands in every literal closes no square bracket. -/
theorem apart_of_isPlain (plain : isPlain token) : token.isBracket .attributes false = false := by
  rw [Token.isBracket]
  cases kind : token.kind <;> simp_all [isPlain]

/-- A text opens with a brace. -/
theorem IsText.guarded (isText : IsText tokens) : Guarded tokens := by
  cases isText with
  | braced isOpening => exact .inl ⟨_, List.mem_cons_self, by simp [holdsBrackets, isOpening]⟩

/-- A repeater holds no bracket. -/
theorem IsRepeat.guarded (isRepeat : IsRepeat tokens) : Guarded tokens := by
  cases isRepeat with
  | nothing => exact .inr (List.forall_mem_nil _)
  | repeater found => exact .inr (List.forall_mem_singleton.mpr (apart_of_repeat? found))

/-- Dotted names hold no bracket. -/
theorem IsDotted.guarded (isDotted : IsDotted tokens) : Guarded tokens := by
  induction isDotted with
  | nothing => exact .inr (List.forall_mem_nil _)
  | dotted isDot isCapitalized _ ih =>
    exact (ih.cons (apart_of_isCapitalized isCapitalized)).cons (apart_of_isOperator isDot)

/-- A name holds no bracket. -/
theorem IsName.guarded (isName : IsName jsx tokens) : Guarded tokens := by
  cases isName with
  | plain _ parts => exact .inr fun token member => apart_of_isNamePart (parts token member)
  | component _ isCapitalized isDotted areParts =>
    exact (isDotted.guarded.cons (apart_of_isCapitalized isCapitalized)).append
      (.inr fun token member => apart_of_isNamePart (areParts token member))

/-- What closes a square bracket within a part of an element was opened there. -/
theorem IsPart.guarded (isPart : IsPart jsx slips tokens) : Guarded tokens := by
  cases isPart with
  | text isText => exact isText.guarded
  | list isOpening => exact .inl ⟨_, List.mem_cons_self, by simp [holdsBrackets, isOpening]⟩
  | short _ _ areMarks isValue =>
    refine .append (.inr fun mark member => apart_of_isOperator (areMarks mark member)) ?_
    cases isValue with
    | text _ isText => exact isText.guarded
    | literal plain => exact .inr fun token member => apart_of_isPlain (plain token member)

/-- The same for what follows in an element. -/
theorem IsRest.guarded (isRest : IsRest jsx slips tokens) : Guarded tokens := by
  induction isRest with
  | ends => exact .inr (List.forall_mem_nil _)
  | closes isClose isRepeat => exact isRepeat.guarded.cons (apart_of_isOperator isClose)
  | repeated isRepeat _ ih => exact ih.cons (apart_of_repeat? isRepeat)
  | part isPart _ ih => exact isPart.guarded.append ih

/-- The same for an element as a whole. -/
theorem IsElement.guarded (isElement : IsElement jsx slips tokens) : Guarded tokens := by
  cases isElement with
  | named isName others => exact isName.guarded.append others.guarded
  | unnamed isPart others => exact isPart.guarded.append others.guarded

/-- The operators between statements hold no bracket. -/
theorem IsJoint.guarded (isJoint : IsJoint tokens) : Guarded tokens := by
  cases isJoint with
  | child isChild => exact .inr (List.forall_mem_singleton.mpr (apart_of_isOperator isChild))
  | sibling isSibling => exact .inr (List.forall_mem_singleton.mpr (apart_of_isOperator isSibling))
  | climb _ areClimbs => exact .inr fun token member => apart_of_isOperator (areClimbs token member)

/-- Only a slip ends a group with a square bracket. -/
theorem IsGroupEnd.guarded (isEnd : IsGroupEnd [] tokens) : Guarded tokens := by
  cases isEnd with
  | closing isClosing isRepeat =>
    exact isRepeat.guarded.cons (apart_of_isBracket isClosing (by decide))

/-- Without slips every closing square bracket stands behind what may hold it. -/
theorem Written.guarded {form : Form} (written : Written jsx form slips tokens)
    (noSlips : slips = []) : Guarded tokens := by
  induction written with
  | nothing | last => exact .inr (List.forall_mem_nil _)
  | element isElement _ ih =>
    exact isElement.guarded.append (ih (List.append_eq_nil_iff.mp noSlips).2)
  | group isOpening _ isEnd _ members more =>
    obtain ⟨both, noOthers⟩ := List.append_eq_nil_iff.mp noSlips
    obtain ⟨noInside, noEnd⟩ := List.append_eq_nil_iff.mp both
    rw [noEnd] at isEnd
    exact (((members noInside).append isEnd.guarded).cons
      (apart_of_isBracket isOpening (by decide))).append (more noOthers)
  | joined isJoint _ ih => exact isJoint.guarded.append (ih noSlips)
  | unjoined => cases noSlips

end

/-- What is accepted is written by the grammar, but for the slips that are listed with it. Closing
brackets may be missing at the end. -/
theorem written_of_statements {jsx : Bool} {source : String} {found : List Statement}
    (read : statements jsx source = .ok found) :
    ∃ (written : List Token) (missing : List Enclosure) (slips : List Slip),
      tokens source = .ok written ∧
        Written jsx .statements slips (written ++ missing.map closer) := by
  obtain ⟨written, readTokens, readAll⟩ := statements_finds read
  obtain ⟨piece, missing, slips, whole, -, inside⟩ := readStatements_reads readAll
  rw [List.append_nil] at whole
  subst whole
  cases inside with
  | outside isWritten => exact ⟨written, missing, slips, readTokens, isWritten⟩

/-- A group that ends with a square bracket is accepted, and cannot be written without slips. -/
theorem written_of_statements_strayEnd :
    let source := "(a]"
    ∃ found written, statements false source = .ok found ∧ tokens source = .ok written ∧
      (∃ (missing : List Enclosure) (slips : List Slip),
        Written false .statements slips (written ++ missing.map closer)) ∧
      ∀ missing : List Enclosure,
        ¬ Written false .statements [] (written ++ missing.map closer) := by
  intro source
  have isAccepted : (statements false source).isOk := by decide +kernel
  have readTokens : tokens source = .ok [⟨.bracket true .group, ⟨0, 1⟩⟩, ⟨.literal "a", ⟨1, 2⟩⟩,
      ⟨.bracket false .attributes, ⟨2, 3⟩⟩] := by decide +kernel
  cases read : statements false source with
  | error fault =>
    rw [read] at isAccepted
    cases isAccepted
  | ok found =>
    obtain ⟨written, missing, slips, readWritten, isWritten⟩ := written_of_statements read
    refine ⟨found, written, rfl, readWritten, ⟨missing, slips, isWritten⟩,
      fun missing isWritten => ?_⟩
    obtain rfl := Except.ok.inj (readWritten.symm.trans readTokens)
    rcases isWritten.guarded rfl with ⟨token, member, holds⟩ | apart
    · have noCloser (enclosure : Enclosure) : holdsBrackets (closer enclosure) = false := by
        cases enclosure <;> rfl
      simp only [List.mem_append, List.mem_map, List.mem_cons, List.not_mem_nil, or_false] at member
      rcases member with (rfl | rfl | rfl) | ⟨enclosure, -, rfl⟩
      · cases holds
      · cases holds
      · cases holds
      · rw [noCloser enclosure] at holds
        cases holds
    · exact absurd (apart ⟨.bracket false .attributes, ⟨2, 3⟩⟩ (by simp)) (by decide)

end Shorthand.Markup.Grammar
