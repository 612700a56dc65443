import Shorthand.Proofs.Markup.Chain
import Shorthand.Proofs.Markup.Likeness
import Shorthand.Proofs.Markup.Outline.RoundTrip
import Shorthand.Proofs.Markup.Statement.Contents
import Shorthand.Proofs.Markup.Wrapping

/-!
# Operators place elements by depth

Statements have places as nodes have, so that one list is compared from the place where a
statement is put to the nodes it is unrolled to. A place under construction is seen through the
statements it closes to: whatever a link leads to, the places seen before stay in front, and only
the rises of the open statements above change.
-/

namespace Shorthand.Markup

/-! ### Places of nodes -/

mutual

/-- The depths and names of the elements of a tree, in preorder. -/
def Node.places (depth : Nat) : Node → List (Nat × Option String)
  | .node element children => (depth, element.name) :: Node.placesAll (depth + 1) children

/-- The depths and names of the elements of some trees that stand at a depth. -/
def Node.placesAll (depth : Nat) : List Node → List (Nat × Option String)
  | [] => []
  | first :: rest => first.places depth ++ Node.placesAll depth rest

end

/-- The places of nodes in a row are those of each of them. -/
theorem Node.placesAll_append (depth : Nat) (front rest : List Node) :
    Node.placesAll depth (front ++ rest) =
      Node.placesAll depth front ++ Node.placesAll depth rest := by
  induction front with
  | nil => rfl
  | cons first front ih => simp [Node.placesAll, ih]

/-- Trees of one shape and with the same names have the same places. -/
theorem Node.Alike.placesAll {below top : Element → Element → Prop} {left right : List Node}
    (alike : Node.Alike below top left right)
    (belows : ∀ left right, below left right → left.name = right.name)
    (tops : ∀ left right, top left right → left.name = right.name) (depth : Nat) :
    Node.placesAll depth left = Node.placesAll depth right := by
  induction alike generalizing depth with
  | nil => rfl
  | cons roots _ _ children_ih rest_ih =>
    simp only [Node.placesAll, Node.places, tops _ _ roots, rest_ih tops, children_ih belows]

/-! ### Places of statements -/

/-- The name of an element that has nothing but a name. -/
def Head.onlyName? : Head → Option String
  | ⟨some [⟨.literal name, _⟩], none, none, none, false⟩ => some name
  | _ => none

/-- An element with only a name has nothing else. -/
theorem Head.onlyName?_eq_some {head : Head} {name : String} (only : head.onlyName? = some name) :
    ∃ span, head = ⟨some [⟨.literal name, span⟩], none, none, none, false⟩ := by
  unfold onlyName? at only
  split at only
  · cases only
    exact ⟨_, rfl⟩
  · cases only

namespace Statement

/-- What a statement is itself, at a depth: an element, or nothing for a group. What is repeated or
more than a name has no name here. -/
def ownPlaces (depth : Nat) : Statement → List (Nat × Option String)
  | element head _ => [(depth, head.onlyName?)]
  | group _ none => []
  | group _ (some _) => [(depth, none)]

/-- How much deeper than a statement stands what is inside of it. -/
def rise : Statement → Nat
  | element _ _ => 1
  | group _ _ => 0

mutual

/-- The depths and names of the elements of a statement that stands at a depth. -/
def places (depth : Nat) : Statement → List (Nat × Option String)
  | .element head children =>
    (element head children).ownPlaces depth ++ placesAll (depth + 1) children
  | .group members repetition =>
    (group members repetition).ownPlaces depth ++ placesAll depth members

/-- The depths and names of the elements of some statements that stand at a depth. -/
def placesAll (depth : Nat) : List Statement → List (Nat × Option String)
  | [] => []
  | first :: rest => first.places depth ++ placesAll depth rest

end

/-- A statement has its own places and those below it, as much deeper as it rises. -/
theorem places_eq (statement : Statement) (depth : Nat) :
    statement.places depth =
      statement.ownPlaces depth ++ placesAll (depth + statement.rise) statement.inner := by
  cases statement <;> rfl

/-- Statements put below another one change only what is below it. -/
theorem places_withInner (statement : Statement) (inner : List Statement) (depth : Nat) :
    (statement.withInner inner).places depth =
      statement.ownPlaces depth ++ placesAll (depth + statement.rise) inner := by
  rcases statement with _ | ⟨_, _ | _⟩ <;> rfl

/-- The places of statements in a row are those of each of them. -/
theorem placesAll_append (depth : Nat) (front rest : List Statement) :
    placesAll depth (front ++ rest) = placesAll depth front ++ placesAll depth rest := by
  induction front with
  | nil => rfl
  | cons first front ih => simp [placesAll, ih]

/-- One statement has its own places. -/
theorem placesAll_singleton (depth : Nat) (statement : Statement) :
    placesAll depth [statement] = statement.places depth :=
  List.append_nil _

end Statement

/-! ### Unrolling keeps places -/

mutual

/-- A statement in which every element is only a name is unrolled to nodes in its places. -/
theorem unroll_named (options : ReadOptions) (enclosing : List Iteration) (statement : Statement)
    (depth : Nat) (named : ∀ place ∈ statement.places depth, place.2.isSome)
    (progress : Progress) :
    Node.placesAll depth (unroll options enclosing statement progress).1 =
        statement.places depth ∧
      (unroll options enclosing statement progress).2 = progress := by
  cases statement with
  | element head children =>
    simp only [Statement.places, Statement.ownPlaces, List.cons_append, List.nil_append,
      List.forall_mem_cons] at named
    obtain ⟨name, only⟩ := Option.isSome_iff_exists.mp named.1
    obtain ⟨span, rfl⟩ := Head.onlyName?_eq_some only
    obtain ⟨below, stays⟩ := unrollAll_named options enclosing children _ named.2 progress
    simp [unroll, copies, elementCopy, tokensText, tokenText, tokensValue, attributesOfTokens,
      Element.isBare, Statement.places, Statement.ownPlaces, Node.placesAll, Node.places,
      Head.onlyName?, below, stays]
  | group members repetition =>
    cases repetition with
    | none =>
      obtain ⟨inside, stays⟩ := unrollAll_named options enclosing members depth named progress
      simp only [unroll, copies, markIteration_none]
      exact ⟨inside, stays⟩
    | some repetition => exact absurd (named (depth, none) List.mem_cons_self) Bool.false_ne_true

/-- Statements in which every element is only a name are unrolled to nodes in their places. -/
theorem unrollAll_named (options : ReadOptions) (enclosing : List Iteration)
    (statements : List Statement) (depth : Nat)
    (named : ∀ place ∈ Statement.placesAll depth statements, place.2.isSome)
    (progress : Progress) :
    Node.placesAll depth (unrollAll options enclosing statements progress).1 =
        Statement.placesAll depth statements ∧
      (unrollAll options enclosing statements progress).2 = progress := by
  cases statements with
  | nil => exact ⟨rfl, rfl⟩
  | cons first rest =>
    rw [Statement.placesAll, List.forall_mem_append] at named
    obtain ⟨front, stays⟩ := unroll_named options enclosing first depth named.1 progress
    obtain ⟨behind, staysBehind⟩ := unrollAll_named options enclosing rest depth named.2 progress
    simp only [unrollAll, stays, behind, staysBehind, Node.placesAll_append, front,
      Statement.placesAll, and_self]

end

/-- The nodes of statements in which every element is only a name stand in their places, also if a
text is wrapped. -/
theorem placesAll_nodesOfStatements (options : ReadOptions) {statements : List Statement}
    (named : ∀ place ∈ Statement.placesAll 0 statements, place.2.isSome) :
    Node.placesAll 0 (nodesOfStatements options statements) =
      Statement.placesAll 0 statements := by
  obtain ⟨same, -⟩ := unrollAll_named options [] statements 0 named (.start options.maxRepeat)
  have names (left right : Element) (related : left.SameBesidesText right) :
      left.name = right.name := related.1
  rw [← (nodesOfStatements_alike options statements).placesAll names names, same]

/-! ### Places under construction -/

/-- A level is closed with its parent behind what was before, and what is inside of it below. -/
theorem Place.placesAll_close (level : Level) (inner : List Statement) (depth : Nat) :
    Statement.placesAll depth (Place.Level.close level inner) =
      Statement.placesAll depth level.before ++ level.parent.ownPlaces depth ++
        Statement.placesAll (depth + level.parent.rise) inner := by
  simp [Place.Level.close, Statement.placesAll_append, Statement.placesAll_singleton,
    Statement.places_withInner]

namespace Place

/-- The rises of the statements above, innermost first. -/
def rises (place : Place) : List Nat := place.levels.map fun level => level.parent.rise

/-- What stands in the levels comes before the statements inside of them, whose depth is known
from the rises. -/
theorem placesAll_foldl_close (levels : List Level) (base : Nat) : ∃ above, ∀ statements,
    Statement.placesAll base
        (levels.foldl (fun inner level => Level.close level inner) statements) =
      above ++ Statement.placesAll (base + (levels.map fun level => level.parent.rise).sum)
        statements := by
  induction levels with
  | nil => exact ⟨[], fun _ => rfl⟩
  | cons level levels ih =>
    obtain ⟨above, same⟩ := ih
    let depth := base + (levels.map fun level => level.parent.rise).sum
    refine ⟨above ++ (Statement.placesAll depth level.before ++ level.parent.ownPlaces depth),
      fun statements => ?_⟩
    rw [List.foldl_cons, same, placesAll_close, List.append_assoc above, List.map_cons,
      List.sum_cons, Nat.add_comm level.parent.rise, Nat.add_assoc]

/-- Where a link leads from a statement that is put at a place. -/
def follow (place : Place) (statement : Statement) : Link → Place
  | .child => place.descend statement
  | .sibling => place.add statement
  | .climb further => (place.add statement).climbs (further + 1)

/-- A statement added to a place stands below all parents of the place. -/
theorem placesAll_add (place : Place) (statement : Statement) (base : Nat) :
    Statement.placesAll base (place.add statement).close =
      Statement.placesAll base place.close ++ statement.places (base + place.rises.sum) := by
  obtain ⟨above, same⟩ := placesAll_foldl_close place.levels base
  rw [close, close, add, same, same, Statement.placesAll_append, Statement.placesAll_singleton,
    List.append_assoc, rises]

/-- Wherever the link behind a statement leads, the places of the statement come last. -/
theorem placesAll_follow (place : Place) (statement : Statement) (between : Link) (base : Nat) :
    Statement.placesAll base (place.follow statement between).close =
      Statement.placesAll base place.close ++ statement.places (base + place.rises.sum) := by
  cases between with
  | child =>
    obtain ⟨above, same⟩ := placesAll_foldl_close place.levels base
    rw [follow, close, close, descend, List.foldl_cons, same, same, placesAll_close,
      Statement.places_eq, rises, List.append_assoc, List.append_assoc]
  | sibling => exact placesAll_add place statement base
  | climb further => rw [follow, close_climbs, placesAll_add]

/-- Climbing leaves the levels that are further out. -/
theorem levels_climbs (count : Nat) (place : Place) :
    (place.climbs count).levels = place.levels.drop count := by
  induction count generalizing place with
  | zero => rfl
  | succ count ih =>
    obtain ⟨statements, levels⟩ := place
    cases levels with
    | nil => exact (ih ⟨statements, []⟩).trans List.drop_nil
    | cons level levels => exact ih _

/-- A link leads to the rises that it means. -/
theorem rises_follow (place : Place) (statement : Statement) (between : Link) :
    (place.follow statement between).rises = between.lead statement.rise place.rises := by
  cases between with
  | child => rfl
  | sibling => rfl
  | climb further => simp [follow, rises, levels_climbs, Link.lead, add]

end Place

/-! ### Tokens -/

/-- The letters of a name are plain characters. -/
theorem LetterName.plain (name : LetterName) : ∀ c ∈ name.text.toList, isPlainNameChar c := by
  intro c member
  simp [isPlainNameChar, CharClass.wordOrDigit, CharClass.wordLetter, name.letters c member]

/-- The tokens of a link. -/
def Link.kinds : Link → List Token.Kind
  | child => [.operator .child]
  | sibling => [.operator .sibling]
  | climb further => List.replicate (further + 1) (.operator .climb)

mutual

/-- The tokens of an item. -/
def ChainItem.kinds : ChainItem → List Token.Kind
  | .element name => [.literal name.text]
  | .group inside => .bracket true .group :: (inside.kinds ++ [.bracket false .group])

/-- The tokens of a chain. -/
def Chain.kinds : Chain → List Token.Kind
  | .last item => item.kinds
  | .link item between rest => item.kinds ++ (between.kinds ++ rest.kinds)

end

/-- A link ends a literal outside of texts and quotes. -/
theorem Link.closesLiteral (between : Link) (depth : Int) (rest : List Char) :
    EndsLiteral (inGroups depth) (between.print ++ rest) := by
  cases between <;> exact endsLiteral_cons _ (by decide) (by decide) (.inl rfl)

/-- A link is read as its tokens. -/
theorem Link.lexes (between : Link) (depth : Int) (rest : List Char) :
    Lexes (inGroups depth) between.print rest between.kinds (inGroups depth) := by
  have mark {c : Char} {operator : Operator} (unmarked : isUnmarked c) (notEscape : c ≠ '\\')
      (notSlash : c ≠ '/') (isOperator : Operator.ofChar? c = some operator)
      (admitted : endsLiteral (inGroups depth) c = true) (rest : List Char) :
      Lexes (inGroups depth) [c] rest [.operator operator] (inGroups depth) :=
    Lexes.mark unmarked (endsLiteral_cons rest notEscape notSlash (.inl admitted))
      (by simp [scanMark, isOperator])
  have caret := mark (c := '^') rfl (by decide) (by decide) rfl rfl
  have carets (count : Nat) : Lexes (inGroups depth) (List.replicate count '^') rest
      (List.replicate count (.operator .climb)) (inGroups depth) := by
    induction count with
    | zero => exact Lexes.nil _ _
    | succ count ih => exact (caret _).append ih rfl
  cases between with
  | child => exact mark rfl (by decide) (by decide) rfl rfl rest
  | sibling => exact mark rfl (by decide) (by decide) rfl rfl rest
  | climb further => exact carets (further + 1)

mutual

/-- An item is read as its tokens, at any depth of groups. -/
theorem ChainItem.lexes (item : ChainItem) (depth : Int) {rest : List Char}
    (ends : EndsLiteral (inGroups depth) rest) :
    Lexes (inGroups depth) item.print rest item.kinds (inGroups depth) := by
  cases item with
  | element name => exact lexes_plain rfl rfl name.named name.plain ends
  | group inside =>
    have closes : EndsLiteral (inGroups (depth + 1)) (')' :: rest) :=
      endsLiteral_cons rest (by decide) (by decide) (.inr (.inr ⟨rfl, rfl⟩))
    exact (inside.lexes (depth + 1) closes).enclosed

/-- A chain is read as its tokens, at any depth of groups. -/
theorem Chain.lexes (chain : Chain) (depth : Int) {rest : List Char}
    (ends : EndsLiteral (inGroups depth) rest) :
    Lexes (inGroups depth) chain.print rest chain.kinds (inGroups depth) := by
  cases chain with
  | last item => exact item.lexes depth ends
  | link item between behind =>
    have front := item.lexes depth (between.closesLiteral depth (behind.print ++ rest))
    have whole := (between.lexes depth (behind.print ++ rest)).append (behind.lexes depth ends) rfl
    exact front.append whole

end

/-! ### Reading -/

/-- An element that is only a name ends where a link or a closing bracket follows. -/
theorem readHead_named {jsx : Bool} {name : Token} {text : String} {rest : List Token}
    (isName : name.kind = .literal text) (ends : Ends rest) :
    readHead jsx (name :: rest) = .ok (some ({ Head.empty with name := some [name] }, rest)) := by
  have part : name.isNamePart = true := by simp [Token.isNamePart, isName]
  have apart : rest.takeWhile Token.isNamePart = [] ∧ rest.dropWhile Token.isNamePart = rest := by
    cases rest with
    | nil => exact ⟨rfl, rfl⟩
    | cons token rest => simp [ends.apart token rfl]
  have undotted : readDottedNames rest = ([], rest) := by
    refine readDottedNames_none fun token first => ?_
    rcases ends token first with kind | kind | kind | kind <;> simp [Token.isOperator, kind]
  have read : readName jsx (name :: rest) = ([name], rest) := by
    cases component : jsx && name.isCapitalized <;>
      simp [readName, component, undotted, part, apart]
  simp [readHead, read, extendHead_ends ends, Head.isEmpty]

/-- No chain begins with a caret. -/
theorem ChainItem.kinds_head (item : ChainItem) :
    ∃ kind others, item.kinds = kind :: others ∧ kind ≠ .operator .climb := by
  cases item <;> exact ⟨_, _, rfl, Token.Kind.noConfusion⟩

/-- A chain begins with a token that does not climb. -/
theorem Chain.kinds_head (chain : Chain) :
    ∃ kind others, chain.kinds = kind :: others ∧ kind ≠ .operator .climb := by
  cases chain with
  | last item => exact item.kinds_head
  | link item between rest =>
    obtain ⟨kind, others, same, notClimb⟩ := item.kinds_head
    exact ⟨kind, others ++ (between.kinds ++ rest.kinds), by rw [kinds, same, List.cons_append],
      notClimb⟩

/-- A link ends an element. -/
theorem Link.ends (between : Link) {marks : List Token}
    (same : marks.map Token.kind = between.kinds) (rest : List Token) : Ends (marks ++ rest) := by
  intro token first
  cases between with
  | child | sibling =>
    simp only [kinds, List.map_eq_cons_iff] at same
    obtain ⟨mark, _, rfl, kind, -⟩ := same
    simp_all
  | climb further =>
    simp only [kinds, List.replicate_succ, List.map_eq_cons_iff] at same
    obtain ⟨mark, _, rfl, kind, -⟩ := same
    simp_all

/-- Behind a statement its link is followed. -/
theorem put_link (place : Place) (statement : Statement) (between : Link) {marks rest : List Token}
    (same : marks.map Token.kind = between.kinds)
    (notClimb : ∀ token ∈ rest.head?, token.isOperator .climb = false) :
    place.put statement (marks ++ rest) = (place.follow statement between, rest) := by
  cases between with
  | child =>
    obtain ⟨mark, rfl, isChild⟩ := List.map_eq_singleton_iff.mp same
    exact put_child rest place statement isChild
  | sibling =>
    obtain ⟨mark, rfl, isSibling⟩ := List.map_eq_singleton_iff.mp same
    exact put_sibling rest place statement isSibling
  | climb further =>
    have climbing : ∀ mark ∈ marks, mark.isOperator .climb := by
      intro mark member
      have kind : mark.kind ∈ Link.kinds (.climb further) := same ▸ List.mem_map_of_mem member
      simp [Token.isOperator, List.eq_of_mem_replicate kind]
    have count : marks.length = further + 1 := by
      simpa [Link.kinds] using congrArg List.length same
    have taken : (marks ++ rest).takeWhile (Token.isOperator .climb) = marks ∧
        (marks ++ rest).dropWhile (Token.isOperator .climb) = rest := by
      rw [List.takeWhile_append_of_pos climbing, List.dropWhile_append_of_pos climbing]
      cases rest with
      | nil => simp
      | cons token rest => simp [notClimb token rfl]
    cases marks with
    | nil => cases count
    | cons mark marks =>
      have kind := climbing mark List.mem_cons_self
      have kind' : mark.kind = .operator .climb := by simpa [Token.isOperator] using kind
      rw [List.cons_append] at taken ⊢
      simp [Place.put, Place.follow, taken, count, Token.isOperator, kind']

section Reads

variable (jsx : Bool)

mutual

/-- An item is read as one statement in its places. -/
theorem ChainItem.reads (item : ChainItem) {tokens : List Token}
    (same : tokens.map Token.kind = item.kinds) :
    ∃ statement : Statement, (∀ depth, statement.places depth = item.places depth) ∧
      statement.rise = item.rise ∧
      ∀ (place : Place) (outer : List Place) (rest : List Token), Ends rest →
        readStatements jsx place outer (tokens ++ rest) =
          readStatements jsx (place.put statement rest).1 outer (place.put statement rest).2 := by
  cases item with
  | element name =>
    obtain ⟨⟨kind, span⟩, rfl, isName⟩ := List.map_eq_singleton_iff.mp same
    cases isName
    exact ⟨.element { Head.empty with name := some [⟨.literal name.text, span⟩] } [],
      fun _ => rfl, rfl,
      fun place outer rest ends => readStatements_head place outer (readHead_named rfl ends)⟩
  | group inside =>
    simp only [ChainItem.kinds, List.map_eq_cons_iff, List.map_eq_append_iff,
      List.map_eq_nil_iff] at same
    obtain ⟨opening, _, rfl, opens, inner, _, rfl, sameInner, closing, _, rfl, closes, rfl⟩ := same
    obtain ⟨after, places, read⟩ := inside.reads sameInner
    refine ⟨.group (after .top).close none, fun depth => places .top depth, rfl,
      fun place outer rest ends => ?_⟩
    simp only [List.cons_append, List.append_assoc, List.nil_append]
    rw [readStatements_opening _ _ _ opens, read _ _ _ (closes_cons rest closes),
      readStatements_closing _ _ _ _ closes]
    simp only [readRepeat_ends ends]

/-- A chain that is read at a place adds its places there. -/
theorem Chain.reads (chain : Chain) {tokens : List Token}
    (same : tokens.map Token.kind = chain.kinds) :
    ∃ after : Place → Place,
      (∀ place base, Statement.placesAll base (after place).close =
        Statement.placesAll base place.close ++ chain.places base place.rises) ∧
      ∀ (place : Place) (outer : List Place) (rest : List Token), Closes rest →
        readStatements jsx place outer (tokens ++ rest) =
          readStatements jsx (after place) outer rest := by
  cases chain with
  | last item =>
    obtain ⟨statement, places, -, read⟩ := item.reads same
    refine ⟨fun place => place.add statement, fun place base => ?_,
      fun place outer rest closes => ?_⟩
    · rw [Place.placesAll_add, places, Chain.places]
    · rw [read _ _ _ closes.ends, put_closes closes]
  | link item between behind =>
    simp only [Chain.kinds, List.map_eq_append_iff] at same
    obtain ⟨own, _, rfl, sameOwn, marks, further, rfl, sameMarks, sameBehind⟩ := same
    obtain ⟨statement, places, rises, read⟩ := item.reads sameOwn
    obtain ⟨after, placesBehind, readBehind⟩ := behind.reads sameBehind
    have notClimb (rest : List Token) :
        ∀ token ∈ (further ++ rest).head?, token.isOperator .climb = false := by
      obtain ⟨kind, others, isHead, notClimb⟩ := behind.kinds_head
      rw [isHead, List.map_eq_cons_iff] at sameBehind
      obtain ⟨first, _, rfl, rfl, -⟩ := sameBehind
      simpa [Token.isOperator] using notClimb
    refine ⟨fun place => after (place.follow statement between), fun place base => ?_,
      fun place outer rest closes => ?_⟩
    · rw [placesBehind, Place.placesAll_follow, Place.rises_follow, places, rises, Chain.places,
        List.append_assoc]
    · rw [List.append_assoc, List.append_assoc, read _ _ _ (between.ends sameMarks _),
        put_link _ _ between sameMarks (notClimb rest), readBehind _ _ _ closes]

end

end Reads

/-- A written chain is read as statements in its places. -/
theorem statements_chain (jsx : Bool) (chain : Chain) :
    ∃ found, statements jsx chain.written = .ok found ∧
      Statement.placesAll 0 found = chain.places 0 [] := by
  obtain ⟨written, same, lexed⟩ := (chain.lexes 0 (fun _ => rfl)).tokens
  obtain ⟨after, places, read⟩ := chain.reads jsx same
  have readAll := read .top [] [] (by intro token first; cases first)
  have ended : readStatements jsx (after .top) [] [] = .ok ((after .top).close, []) := by
    rw [readStatements]
  rw [List.append_nil, ended] at readAll
  refine ⟨(after .top).close, ?_, places .top 0⟩
  rw [Chain.written, statements_eq lexed, mapError_within_eq_ok_iff]
  simp [statementsOfTokens, readAll]

/-! ### The places of written chains -/

mutual

/-- Every place of an item has a name. -/
theorem ChainItem.places_named (item : ChainItem) (depth : Nat) :
    ∀ place ∈ item.places depth, place.2.isSome := by
  cases item with
  | element name => exact List.forall_mem_singleton.mpr rfl
  | group inside => exact inside.places_named depth []

/-- Every place of a chain has a name. -/
theorem Chain.places_named (chain : Chain) (base : Nat) (above : List Nat) :
    ∀ place ∈ chain.places base above, place.2.isSome := by
  cases chain with
  | last item => exact item.places_named _
  | link item between rest =>
    exact List.forall_mem_append.mpr ⟨item.places_named _, rest.places_named _ _⟩

end

/-- Operators place elements by depth. A run of elements is read to nodes that stand in preorder
one level deeper behind `>`, at the same level behind `+` and as many levels higher as there are
carets, but never above the outermost level. Any chain is read to nodes in its places, and those
of a run in a group are the same, counted from the depth of the group. -/
theorem nodes_chain (options : ReadOptions) :
    (∀ first rest, ∃ found, nodes options (Chain.run first rest).written = .ok found ∧
      Node.placesAll 0 found = runPlaces 0 0 first rest) ∧
    (∀ chain : Chain, ∃ found, nodes options chain.written = .ok found ∧
      Node.placesAll 0 found = chain.places 0 []) ∧
    ∀ depth first rest,
      (ChainItem.group (Chain.run first rest)).places depth = runPlaces depth 0 first rest := by
  have whole (chain : Chain) : ∃ found, nodes options chain.written = .ok found ∧
      Node.placesAll 0 found = chain.places 0 [] := by
    obtain ⟨found, read, places⟩ := statements_chain options.jsx chain
    refine ⟨nodesOfStatements options found, by simp [nodes, read, bind, Except.bind, pure,
      Except.pure], ?_⟩
    rw [← places]
    exact placesAll_nodesOfStatements options (places ▸ chain.places_named 0 [])
  refine ⟨fun first rest => ?_, whole, fun depth first rest => ?_⟩
  · rw [← Chain.places_run 0 0 first rest]
    exact whole (Chain.run first rest)
  · rw [← Chain.places_run depth 0 first rest]
    rfl

/-- In `a>(b>c^^d)^e` the carets inside the group lead no further than to its first level. -/
example (a b c d e : LetterName) :
    (Chain.link (.element a) .child
      (.link (.group (.run b [(.child, c), (.climb 1, d)])) (.climb 0)
        (.last (.element e)))).places 0 [] =
      [(0, some a.text), (1, some b.text), (2, some c.text), (1, some d.text),
        (0, some e.text)] :=
  rfl

/-- The chain `ul>(li>a^^b)^p` and the places of its elements. -/
example :
    let name (text : String) (named : text.toList ≠ [])
        (letters : text.toList.all CharClass.letter) : ChainItem :=
      .element ⟨text, named, List.all_eq_true.mp letters⟩
    let chain := Chain.link (name "ul" (by decide) (by decide)) .child
      (.link (.group (.link (name "li" (by decide) (by decide)) .child
          (.link (name "a" (by decide) (by decide)) (.climb 1)
            (.last (name "b" (by decide) (by decide)))))) (.climb 0)
        (.last (name "p" (by decide) (by decide))))
    let places := [(0, some "ul"), (1, some "li"), (2, some "a"), (1, some "b"), (0, some "p")]
    chain.written = "ul>(li>a^^b)^p" ∧ chain.places 0 [] = places ∧
      (nodes ⟨false, true, none, .empty, none⟩ "ul>(li>a^^b)^p").map (Node.placesAll 0) =
        .ok places := by
  decide +kernel

end Shorthand.Markup
