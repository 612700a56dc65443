import Shorthand.Proofs.Stylesheet.Plain.Atoms

/-!
# The tokens of written declarations

`Lexes` says that the reader of tokens, standing at some depth before a stretch of the
abbreviation, finds tokens of given kinds there and goes on behind the stretch. The name of a
call at the top swallows the literals and numbers in front of it, so the reader also notes
whether one of them was read last. `Lexes.append` puts stretches together; `lexes_joined`
follows the written form of declarations piece by piece.
-/

namespace Shorthand.Stylesheet

/-- Where the reader stands: inside of so many brackets, and, if `isFresh` is set, not behind a
part of a call name. -/
structure Stand where
  depth : Nat
  isFresh : Bool

/-- The last token is no part of a call name. -/
def Fresh (read : List Token) : Prop := ∀ token ∈ read.head?, token.isCallNamePart = false

/-- From the stand `before`, the characters `text` in front of `rest` are tokens of the given
kinds, and reading goes on in `rest` from the stand `after`. -/
def Lexes (before : Stand) (text rest : List Char) (kinds : List Token.Kind) (after : Stand) :
    Prop :=
  ∀ source offset read, Remains source offset (text ++ rest) → (before.isFresh → Fresh read) →
    ∃ found : List Token, found.map Token.kind = kinds ∧
      (after.isFresh → Fresh (found.reverse ++ read)) ∧
      tokensFrom false source before.depth offset read (text ++ rest) =
        tokensFrom false source after.depth (offset + text.length) (found.reverse ++ read) rest

/-! ### One token -/

/-- An operator that is no dash is read as one token. -/
theorem tokensFrom_operator {operator : Operator} (notDash : operator ≠ .dash)
    (source : List Char) (depth offset : Nat) (read : List Token) (rest : List Char) :
    tokensFrom false source depth offset read (operator.char :: rest) =
      tokensFrom false source depth (offset + 1)
        (⟨.operator operator, ⟨offset, offset + 1⟩⟩ :: read) rest := by
  rw [tokensFrom, scanToken_operator notDash]
  simp [Token.separatesOperator]

/-- One token that is no bracket. If an operator behind it is taken along, that is the token
which would have been read next. -/
theorem tokensFrom_token {first : Char} {text rest : List Char} {kind : Token.Kind}
    (scanned : ∀ isShort isFirst, scanToken isShort isFirst (first :: text ++ rest) =
      .ok (some ⟨kind, (first :: text).length⟩))
    (notOpen : kind ≠ .bracket true) (notClosed : kind ≠ .bracket false)
    (separates : (⟨kind, ⟨0, 0⟩⟩ : Token).separatesOperator → Ends rest)
    (source : List Char) (depth offset : Nat) (read : List Token) :
    tokensFrom false source depth offset read (first :: text ++ rest) =
      tokensFrom false source depth (offset + (first :: text).length)
        (⟨kind, ⟨offset, offset + (first :: text).length⟩⟩ :: read) rest := by
  simp only [List.cons_append, List.length_cons] at scanned ⊢
  rw [tokensFrom, scanned]
  simp only [List.drop_left]
  split
  case h_2 => rfl
  case h_1 separator found =>
    split at found
    case isFalse => cases found
    case isTrue separating =>
      obtain ⟨operator, left, rfl, rfl⟩ := scanOperator_some found
      have notDash : operator ≠ .dash := by
        rintro rfl
        exact absurd (separates separating '-' rfl) (by decide)
      simp only [tokensFrom_operator notDash, List.drop_length_add_append, List.drop_succ_cons,
        List.drop_zero]

/-- An atom is read as one token. -/
theorem tokensFrom_atom (atom : PlainAtom) {rest : List Char} (ends : Ends rest)
    (source : List Char) (depth offset : Nat) (read : List Token) :
    tokensFrom false source depth offset read (atom.print ++ rest) =
      tokensFrom false source depth (offset + atom.print.length)
        (⟨atom.kind, ⟨offset, offset + atom.print.length⟩⟩ :: read) rest := by
  obtain ⟨first, text, same, _⟩ := atom.print_cons
  have scanned := scanToken_atom atom ends
  rw [same] at scanned ⊢
  exact tokensFrom_token scanned (by cases atom <;> nofun) (by cases atom <;> nofun)
    (fun _ => ends) source depth offset read

/-- A single literal is the name of a call already. -/
theorem mergeCallName_single {source : List Char} {read : List Token} {name : List Char}
    {span : Span} (fresh : Fresh read) (covers : span.piece source = name) :
    mergeCallName source (⟨.literal (String.ofList name), span⟩ :: read) =
      ⟨.literal (String.ofList name), span⟩ :: read := by
  have stops : ∀ token ∈ read.head?, token.isCallNamePart = false := fresh
  have isPart : ∀ token ∈ [(⟨.literal (String.ofList name), span⟩ : Token)],
      token.isCallNamePart := List.forall_mem_singleton.mpr rfl
  have parts := takeWhile_run isPart stops
  have others := dropWhile_run isPart stops
  rw [List.singleton_append] at parts others
  simp only [mergeCallName, parts, others, List.head?_cons, List.getLast?_singleton]
  rw [← covers]
  rfl

namespace Lexes

/-- Nothing is read as no token. -/
theorem nil (stand : Stand) (rest : List Char) : Lexes stand [] rest [] stand :=
  fun _ _ _ _ fresh => ⟨[], rfl, fresh, rfl⟩

/-- What stands in front may be forgotten. -/
theorem forget {before after : Stand} {text rest : List Char} {kinds : List Token.Kind}
    (reads : Lexes before text rest kinds after) :
    Lexes before text rest kinds ⟨after.depth, false⟩ := by
  intro source offset read remains fresh
  obtain ⟨found, sameKinds, _, reading⟩ := reads source offset read remains fresh
  exact ⟨found, sameKinds, nofun, reading⟩

/-- Two stretches that meet are read one after the other. -/
theorem append {before between after : Stand} {first behind second rest : List Char}
    {kinds moreKinds : List Token.Kind} (reads : Lexes before first behind kinds between)
    (readsMore : Lexes between second rest moreKinds after)
    (meets : behind = second ++ rest) :
    Lexes before (first ++ second) rest (kinds ++ moreKinds) after := by
  subst meets
  intro source offset read remains fresh
  rw [List.append_assoc] at remains ⊢
  obtain ⟨found, sameKinds, freshBetween, reading⟩ := reads source offset read remains fresh
  obtain ⟨more, sameMore, freshAfter, readingMore⟩ :=
    readsMore source (offset + first.length) (found.reverse ++ read) remains.behind.1 freshBetween
  refine ⟨found ++ more, by rw [List.map_append, sameKinds, sameMore], ?_, ?_⟩
  · simpa only [List.reverse_append, List.append_assoc] using freshAfter
  · rw [reading, readingMore, List.reverse_append, List.append_assoc, List.length_append,
      Nat.add_assoc]

/-- One token in front of which nothing matters. -/
theorem token {depth : Nat} {isFresh : Bool} {c : Char} {rest : List Char} {kind : Token.Kind}
    (scanned : ∀ isShort isFirst, scanToken isShort isFirst (c :: rest) = .ok (some ⟨kind, 1⟩))
    (separator : kind = .whiteSpace ∨ ∃ operator, kind = .operator operator) :
    Lexes ⟨depth, isFresh⟩ [c] rest [kind] ⟨depth, true⟩ := by
  intro source offset read remains fresh
  refine ⟨[⟨kind, ⟨offset, offset + 1⟩⟩], rfl, ?_, ?_⟩
  · rintro - token front
    cases front
    obtain rfl | ⟨operator, rfl⟩ := separator <;> rfl
  · have single : ∀ isShort isFirst, scanToken isShort isFirst ([c] ++ rest) =
        .ok (some ⟨kind, [c].length⟩) := scanned
    obtain rfl | ⟨operator, rfl⟩ := separator <;>
      exact tokensFrom_token single nofun nofun nofun source depth offset read

/-- An operator other than the dash is read as itself. -/
theorem operator {operator : Operator} (notDash : operator ≠ .dash) (depth : Nat)
    (isFresh : Bool) (rest : List Char) :
    Lexes ⟨depth, isFresh⟩ [operator.char] rest [.operator operator] ⟨depth, true⟩ :=
  token (fun isShort isFirst => scanToken_operator notDash isShort isFirst rest)
    (.inr ⟨operator, rfl⟩)

/-- A blank is read as white space. -/
theorem blank (depth : Nat) (isFresh : Bool) {rest : List Char}
    (ends : ∀ c ∈ rest.head?, CharClass.space c = false) :
    Lexes ⟨depth, isFresh⟩ [' '] rest [.whiteSpace] ⟨depth, true⟩ :=
  token (fun isShort isFirst => scanToken_blank isShort isFirst ends) (.inl rfl)

/-- An atom is read as its token. -/
theorem atom (written : PlainAtom) (depth : Nat) (isFresh : Bool) {rest : List Char}
    (ends : Ends rest) :
    Lexes ⟨depth, isFresh⟩ written.print rest [written.kind] ⟨depth, false⟩ :=
  fun source offset read _ _ =>
    ⟨[⟨written.kind, ⟨offset, offset + written.print.length⟩⟩], rfl, nofun,
      tokensFrom_atom written ends source depth offset read⟩

/-- The name of a call with its opening bracket. Nothing in front of the name belongs to it. -/
theorem opening (name : Run CharClass.letter) (depth : Nat) (rest : List Char) :
    Lexes ⟨depth, true⟩ (name.text ++ ['(']) rest
      [.literal (String.ofList name.text), .bracket true] ⟨depth + 1, true⟩ := by
  intro source offset read remains fresh
  rw [List.append_assoc, List.singleton_append] at remains ⊢
  let stop := offset + name.text.length
  refine ⟨[⟨.literal (String.ofList name.text), ⟨offset, stop⟩⟩, ⟨.bracket true, ⟨stop, stop + 1⟩⟩],
    rfl, ?_, ?_⟩
  · rintro - token front
    cases front
    rfl
  · have ends : Ends ('(' :: rest) := ends_cons rest rfl
    have reading := tokensFrom_atom (.keyword name) ends source depth offset read
    have scanned := scanToken_bracket true
    have merged := mergeCallName_single (fresh rfl) remains.behind.2
    simp only [PlainAtom.print, PlainAtom.kind] at reading
    simp only [if_true] at scanned
    rw [reading, tokensFrom, scanned]
    cases depth with
    | zero => simp [merged, stop, Nat.add_assoc]
    | succ outer => simp [stop, Nat.add_assoc]

/-- The closing bracket of a call. -/
theorem closing (depth : Nat) (isFresh : Bool) (rest : List Char) :
    Lexes ⟨depth + 1, isFresh⟩ [')'] rest [.bracket false] ⟨depth, false⟩ := by
  intro source offset read remains fresh
  refine ⟨[⟨.bracket false, ⟨offset, offset + 1⟩⟩], rfl, nofun, ?_⟩
  have scanned := scanToken_bracket false
  simp only [Bool.false_eq_true, if_false] at scanned
  rw [List.singleton_append, tokensFrom, scanned]
  simp

end Lexes

/-! ### Tokens of the written form -/

/-- The token between the tokens of a fragment. -/
def separatorKind (isTop : Bool) : Token.Kind :=
  if isTop then .operator .colon else .whiteSpace

mutual

/-- The tokens that a value token is written as. -/
def PlainToken.kinds : PlainToken → List Token.Kind
  | .atom atom => [atom.kind]
  | .call name arguments =>
    [.literal (String.ofList name.text), .bracket true] ++
      (fragmentsKinds false [] arguments ++ [.bracket false])

/-- The tokens of a fragment. -/
def PlainFragment.kinds (isTop : Bool) : PlainFragment → List Token.Kind
  | .mk first others => first.kinds ++ othersKinds isTop others

/-- The tokens of further value tokens, each behind a separator. -/
def othersKinds (isTop : Bool) : List PlainToken → List Token.Kind
  | [] => []
  | token :: rest => [separatorKind isTop] ++ (token.kinds ++ othersKinds isTop rest)

/-- The tokens of fragments, with `lead` in front of the first one. -/
def fragmentsKinds (isTop : Bool) (lead : List Token.Kind) : List PlainFragment → List Token.Kind
  | [] => []
  | first :: rest =>
    lead ++ (first.kinds isTop ++ fragmentsKinds isTop [.operator .comma] rest)

end

/-- The mark of an important declaration. -/
def importantKinds (isImportant : Bool) : List Token.Kind :=
  if isImportant then [.operator .important] else []

/-- The tokens of a declaration. -/
def PlainDeclaration.kinds (declaration : PlainDeclaration) : List Token.Kind :=
  [.literal (String.ofList declaration.name.text)] ++
    (fragmentsKinds true [.operator .colon] declaration.fragments ++
      importantKinds declaration.isImportant)

/-- The tokens of declarations, with `lead` in front of the first one. -/
def kindsJoined (lead : List Token.Kind) : List PlainDeclaration → List Token.Kind
  | [] => []
  | first :: rest => lead ++ (first.kinds ++ kindsJoined [.operator .sibling] rest)

/-! ### What stands behind a piece -/

/-- Behind an atom other ones end it. -/
theorem ends_others (isTop : Bool) (others : List PlainToken) {rest : List Char}
    (ends : Ends rest) : Ends (printOthers isTop others ++ rest) := by
  cases others with
  | nil => exact ends
  | cons token others => cases isTop <;> exact ends_cons _ rfl

/-- Behind an atom further fragments end it. -/
theorem ends_fragments (isTop : Bool) {lead : Char} (separates : isSeparator lead)
    (fragments : List PlainFragment) {rest : List Char} (ends : Ends rest) :
    Ends (printFragments isTop [lead] fragments ++ rest) := by
  cases fragments with
  | nil => exact ends
  | cons first others => exact ends_cons _ separates

/-- Behind an atom the mark of importance ends it. -/
theorem ends_important (isImportant : Bool) {rest : List Char} (ends : Ends rest) :
    Ends (printImportant isImportant ++ rest) := by
  cases isImportant with
  | false => exact ends
  | true => exact ends_cons _ rfl

/-- Behind an atom further declarations end it. -/
theorem ends_joined (declarations : List PlainDeclaration) :
    Ends (printJoined ['+'] declarations) := by
  cases declarations with
  | nil => exact ends_nil
  | cons first others => exact ends_cons _ rfl

/-- What a token is written as does not begin with a blank. -/
theorem PlainToken.print_head (token : PlainToken) (rest : List Char) :
    ∀ c ∈ (token.print ++ rest).head?, CharClass.space c = false := by
  intro c front
  cases token with
  | atom atom =>
    obtain ⟨first, text, same, notBlank⟩ := atom.print_cons
    rw [PlainToken.print, same] at front
    cases front
    exact notBlank
  | call name arguments =>
    obtain ⟨first, text, same, notBlank⟩ := PlainAtom.print_cons (.keyword name)
    rw [PlainAtom.print] at same
    rw [PlainToken.print, same] at front
    cases front
    exact notBlank

/-! ### The pieces in turn -/

/-- The separator between values is read as itself. -/
theorem Lexes.separator (isTop : Bool) (depth : Nat) (token : PlainToken) (rest : List Char) :
    Lexes ⟨depth, false⟩ [separatorChar isTop] (token.print ++ rest) [separatorKind isTop]
      ⟨depth, true⟩ := by
  cases isTop with
  | false => exact Lexes.blank depth false (token.print_head rest)
  | true => exact Lexes.operator (by decide : Operator.colon ≠ .dash) depth false _

mutual

/-- A value token is read as its tokens, at any depth of brackets. -/
theorem PlainToken.lexes (token : PlainToken) (depth : Nat) {rest : List Char}
    (ends : Ends rest) : Lexes ⟨depth, true⟩ token.print rest token.kinds ⟨depth, false⟩ := by
  cases token with
  | atom written => exact Lexes.atom written depth true ends
  | call name arguments =>
    have inside := lexes_fragments false arguments (depth + 1) (Lexes.nil ⟨depth + 1, true⟩)
      (ends_cons (c := ')') rest rfl)
    have whole := (Lexes.opening name depth _).append
      (inside.append (Lexes.closing depth false rest) rfl) rfl
    simpa only [PlainToken.print, PlainToken.kinds, List.append_assoc, List.singleton_append]
      using whole

/-- A fragment is read as its tokens. -/
theorem PlainFragment.lexes (isTop : Bool) (fragment : PlainFragment) (depth : Nat)
    {rest : List Char} (ends : Ends rest) :
    Lexes ⟨depth, true⟩ (fragment.print isTop) rest (fragment.kinds isTop) ⟨depth, false⟩ := by
  cases fragment with
  | mk first others =>
    have front := first.lexes depth (ends_others isTop others ends)
    exact front.append (lexes_others isTop others depth ends) rfl

/-- Further tokens of a fragment are read behind their separators. -/
theorem lexes_others (isTop : Bool) (others : List PlainToken) (depth : Nat) {rest : List Char}
    (ends : Ends rest) :
    Lexes ⟨depth, false⟩ (printOthers isTop others) rest (othersKinds isTop others)
      ⟨depth, false⟩ := by
  cases others with
  | nil => exact Lexes.nil _ rest
  | cons token others =>
    have front := token.lexes depth (ends_others isTop others ends)
    have behind := front.append (lexes_others isTop others depth ends) rfl
    exact (Lexes.separator isTop depth token _).append behind
      (List.append_assoc _ _ _).symm

/-- Fragments are read one after the other, given how what leads them is read. -/
theorem lexes_fragments (isTop : Bool) (fragments : List PlainFragment) (depth : Nat)
    {isFresh : Bool} {lead rest : List Char} {leadKinds : List Token.Kind}
    (leads : ∀ behind, Lexes ⟨depth, isFresh⟩ lead behind leadKinds ⟨depth, true⟩)
    (ends : Ends rest) :
    Lexes ⟨depth, isFresh⟩ (printFragments isTop lead fragments) rest
      (fragmentsKinds isTop leadKinds fragments) ⟨depth, false⟩ := by
  cases fragments with
  | nil => exact (Lexes.nil ⟨depth, isFresh⟩ rest).forget
  | cons first others =>
    have endsFirst := ends_fragments isTop (by decide : isSeparator ',') others ends
    have front := first.lexes isTop depth endsFirst
    have behind := lexes_fragments isTop others depth
      (fun _ => Lexes.operator (by decide : Operator.comma ≠ .dash) depth false _) ends
    exact (leads _).append (front.append behind rfl) rfl

end

/-- The mark of an important declaration is one token. -/
theorem lexes_important (isImportant : Bool) (rest : List Char) :
    Lexes ⟨0, false⟩ (printImportant isImportant) rest (importantKinds isImportant)
      ⟨0, false⟩ := by
  cases isImportant with
  | false => exact Lexes.nil _ rest
  | true => exact (Lexes.operator (by decide : Operator.important ≠ .dash) 0 false rest).forget

/-- A declaration is read as its tokens. -/
theorem PlainDeclaration.lexes (declaration : PlainDeclaration) (isFresh : Bool)
    {rest : List Char} (ends : Ends rest) :
    Lexes ⟨0, isFresh⟩ declaration.print rest declaration.kinds ⟨0, false⟩ := by
  have endsMark := ends_important declaration.isImportant ends
  have endsName := ends_fragments true (by decide : isSeparator ':') declaration.fragments endsMark
  have name := Lexes.atom (.keyword declaration.name) 0 isFresh endsName
  have fragments := lexes_fragments true declaration.fragments 0
    (fun _ => Lexes.operator (by decide : Operator.colon ≠ .dash) 0 false _) endsMark
  have mark := lexes_important declaration.isImportant rest
  exact name.append (fragments.append mark rfl) (List.append_assoc _ _ _).symm

/-- Joined declarations are read as their tokens, given how what leads them is read. -/
theorem lexes_joined (declarations : List PlainDeclaration) {isFresh : Bool} {lead : List Char}
    {leadKinds : List Token.Kind}
    (leads : ∀ behind, Lexes ⟨0, isFresh⟩ lead behind leadKinds ⟨0, true⟩) :
    Lexes ⟨0, isFresh⟩ (printJoined lead declarations) [] (kindsJoined leadKinds declarations)
      ⟨0, false⟩ := by
  induction declarations generalizing isFresh lead leadKinds with
  | nil => exact (Lexes.nil ⟨0, isFresh⟩ []).forget
  | cons first others ih =>
    have front := first.lexes true (ends_joined others)
    have behind := ih fun _ => Lexes.operator (by decide : Operator.sibling ≠ .dash) 0 false _
    exact (leads _).append (front.append behind (List.append_nil _).symm)
      (List.append_nil _).symm

/-- The tokens of written declarations, which lie side by side. -/
theorem tokens_printDeclarations (declarations : List PlainDeclaration) :
    ∃ found stop, found.map Token.kind = kindsJoined [] declarations ∧
      Tile 0 (found.map Token.span) stop ∧
      tokens false (printDeclarations declarations) = .ok found := by
  have lexes := lexes_joined declarations fun behind => Lexes.nil ⟨0, true⟩ behind
  have remains := Remains.start (printJoined [] declarations)
  have noneRead : Fresh [] := nofun
  rw [← List.append_nil (printJoined [] declarations)] at remains
  obtain ⟨found, sameKinds, _, reading⟩ := lexes _ 0 [] remains fun _ => noneRead
  have read : tokens false (printDeclarations declarations) = .ok found := by
    simpa [tokens, mapError_within_eq_ok_iff, printDeclarations, tokensFrom] using reading
  obtain ⟨depth, reads⟩ :=
    tokensFrom_reads (mapError_within_eq_ok_iff.mp read) (.nil _) (.start _)
  have tiles := reads.tiles
  rw [List.reverse_reverse] at tiles
  exact ⟨found, _, sameKinds, tiles, read⟩

end Shorthand.Stylesheet
