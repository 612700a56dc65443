import Shorthand.Proofs.Stylesheet.Plain.Fragments

/-!
# Written declarations are read back

Behind the name of a declaration the reader takes fragments and marks in turn, up to the plus
sign of the next declaration. `declarations_printDeclarations` puts the stages together:
reading an abbreviation that declarations are written as gives the declarations that are
meant.
-/

namespace Shorthand.Stylesheet

variable {size : Nat} {declaration : Declaration} {tokens rest : List Token} {span : Span}
  {start stop : Nat}

/-- Nothing but a mark stands in front. -/
def Marked (rest : List Token) : Prop := ∀ token ∈ rest.head?, IsMark token

/-- A mark opens no call. -/
theorem Marked.closed (marked : Marked rest) : Closed rest := by
  intro token front
  obtain ⟨kind, span⟩ := token
  obtain rfl | rfl | rfl : kind = _ ∨ kind = _ ∨ kind = _ := marked _ front <;> rfl

/-- Tokens that begin with a mark are marked. -/
theorem marked_cons {kind : Token.Kind} (marks : IsMark ⟨kind, span⟩) (rest : List Token) :
    Marked (⟨kind, span⟩ :: rest) := by
  rintro _ ⟨⟩
  exact marks

/-- A mark that leads a list makes no difference to a reader that passes over it. -/
theorem passes_lead {α : Type} {read : List Token → α} {kind : Token.Kind}
    (passes : ∀ span rest, read (⟨kind, span⟩ :: rest) = read rest) {leadKinds : List Token.Kind}
    (leads : leadKinds = [] ∨ leadKinds = [kind]) {lead : List Token}
    (same : lead.map Token.kind = leadKinds) (rest : List Token) :
    read (lead ++ rest) = read rest := by
  obtain rfl | rfl := leads
  · rw [List.map_eq_nil_iff.mp same, List.nil_append]
  · obtain ⟨⟨_, mark⟩, _, rfl, rfl, none⟩ := List.map_eq_cons_iff.mp same
    rw [List.map_eq_nil_iff.mp none]
    exact passes mark rest

/-! ### Fragments and marks of a declaration -/

/-- The mark of importance is read. -/
theorem readFragments_important :
    readFragments false size declaration (⟨.operator .important, span⟩ :: rest) =
      readFragments false size { declaration with isImportant := true } rest := by
  rw [readFragments]
  exact if_pos rfl

/-- A comma between fragments is passed over. -/
theorem readFragments_comma :
    readFragments false size declaration (⟨.operator .comma, span⟩ :: rest) =
      readFragments false size declaration rest := by
  have found : readFragment false size [] .empty (⟨.operator .comma, span⟩ :: rest) =
      .ok ([], ⟨.operator .comma, span⟩ :: rest) := readFragment_ends (marked_cons (.inl rfl) rest)
  rw [readFragments.eq_def]
  refine (if_neg nofun).trans ?_
  split <;> simp_all [Token.isOperator]

/-- A declaration ends in front of the plus sign of the next one. -/
theorem readFragments_sibling :
    readFragments false size declaration (⟨.operator .sibling, span⟩ :: rest) =
      .ok (declaration, ⟨.operator .sibling, span⟩ :: rest) := by
  have found : readFragment false size [] .empty (⟨.operator .sibling, span⟩ :: rest) =
      .ok ([], ⟨.operator .sibling, span⟩ :: rest) :=
    readFragment_ends (marked_cons (.inr (.inr rfl)) rest)
  rw [readFragments.eq_def]
  refine (if_neg nofun).trans ?_
  split <;> simp_all [Token.isOperator]

/-- A fragment that is found becomes the last one of the declaration. -/
theorem readFragments_found {token : Token} {others left : List Token} {value : ValueToken}
    {values : Fragment} (unmarked : token.isOperator .important = false)
    (found : readFragment false size [] .empty (token :: others) = .ok (value :: values, left)) :
    readFragments false size declaration (token :: others) =
      readFragments false size
        { declaration with fragments := declaration.fragments ++ [value :: values] } left := by
  rw [readFragments.eq_def]
  refine (if_neg (Bool.eq_false_iff.mp unmarked)).trans ?_
  split <;> simp_all

/-- The first token of a fragment is no operator. -/
theorem PlainFragment.kinds_cons (isTop : Bool) (written : PlainFragment) :
    ∃ kind kinds, written.kinds isTop = kind :: kinds ∧
      ∀ operator span, (⟨kind, span⟩ : Token).isOperator operator = false := by
  obtain ⟨first, others⟩ := written
  cases first with
  | atom atom =>
    exact ⟨atom.kind, _, rfl, fun operator span => by cases atom <;> rfl⟩
  | call name arguments => exact ⟨_, _, rfl, fun operator span => rfl⟩

/-- A fragment means at least one value. -/
theorem PlainFragment.meant_cons (written : PlainFragment) :
    ∃ value values, written.meant = value :: values := by
  obtain ⟨first, others⟩ := written
  exact ⟨_, _, rfl⟩

/-- A written fragment becomes the last one of the declaration. -/
theorem readFragments_fragment (written : PlainFragment)
    (same : tokens.map Token.kind = written.kinds true)
    (tiles : Tile start (tokens.map Token.span) stop) (marked : Marked rest) :
    readFragments false size declaration (tokens ++ rest) =
      readFragments false size
        { declaration with fragments := declaration.fragments ++ [written.meant] } rest := by
  obtain ⟨isSpaced, reads⟩ := written.reads true [] rest nofun same tiles marked.closed
  have found : readFragment false size [] .empty (tokens ++ rest) = .ok (written.meant, rest) :=
    reads.trans (readFragment_ends marked)
  obtain ⟨kind, kinds, sameKinds, noOperator⟩ := written.kinds_cons true
  obtain ⟨value, values, sameMeant⟩ := written.meant_cons
  rw [sameKinds] at same
  obtain ⟨⟨_, span⟩, others, rfl, rfl, -⟩ := List.map_eq_cons_iff.mp same
  rw [sameMeant] at found ⊢
  exact readFragments_found (noOperator .important span) found

/-- Behind a fragment stands a comma or what stands behind all fragments. -/
theorem marked_fragments {others : List PlainFragment}
    (same : tokens.map Token.kind = fragmentsKinds true [.operator .comma] others)
    (marked : Marked rest) : Marked (tokens ++ rest) := by
  cases others with
  | nil =>
    rw [fragmentsKinds, List.map_eq_nil_iff] at same
    exact same ▸ marked
  | cons first others =>
    obtain ⟨⟨_, span⟩, behind, rfl, rfl, -⟩ := List.map_eq_cons_iff.mp same
    exact marked_cons (.inl rfl) _

/-- Written fragments are read one after the other. -/
theorem readFragments_fragments (fragments : List PlainFragment) (declaration : Declaration)
    {tokens : List Token} {start : Nat} {leadKinds : List Token.Kind}
    (leads : leadKinds = [] ∨ leadKinds = [.operator .comma])
    (same : tokens.map Token.kind = fragmentsKinds true leadKinds fragments)
    (tiles : Tile start (tokens.map Token.span) stop) (marked : Marked rest) :
    readFragments false size declaration (tokens ++ rest) =
      readFragments false size
        { declaration with fragments := declaration.fragments ++ meantFragments fragments }
        rest := by
  induction fragments generalizing declaration tokens start leadKinds with
  | nil =>
    rw [fragmentsKinds, List.map_eq_nil_iff] at same
    rw [same, meantFragments, List.append_nil, List.nil_append]
  | cons first others ih =>
    rw [fragmentsKinds] at same
    obtain ⟨lead, _, _, rfl, sameLead, -, sameBoth, tilesBoth⟩ := exists_cut same tiles
    obtain ⟨front, behind, between, rfl, sameFirst, tilesFirst, sameOthers, tilesOthers⟩ :=
      exists_cut sameBoth tilesBoth
    have passes : readFragments false size declaration (lead ++ (front ++ (behind ++ rest))) =
        readFragments false size declaration (front ++ (behind ++ rest)) :=
      passes_lead (fun _ _ => readFragments_comma) leads sameLead _
    rw [List.append_assoc, List.append_assoc, passes,
      readFragments_fragment first sameFirst tilesFirst (marked_fragments sameOthers marked),
      ih _ (.inr rfl) sameOthers tilesOthers]
    simp only [meantFragments, List.append_assoc, List.singleton_append]

/-! ### Declarations -/

/-- Nothing but the plus sign of the next declaration stands in front. -/
def EndsDeclaration (rest : List Token) : Prop :=
  ∀ token ∈ rest.head?, token.kind = .operator .sibling

/-- The end of a declaration is marked. -/
theorem EndsDeclaration.marked (ends : EndsDeclaration rest) : Marked rest :=
  fun token front => .inr (.inr (ends token front))

/-- At the end of a declaration nothing more is read. -/
theorem readFragments_ends (ends : EndsDeclaration rest) :
    readFragments false size declaration rest = .ok (declaration, rest) := by
  cases rest with
  | nil => rw [readFragments]
  | cons token rest =>
    obtain ⟨kind, span⟩ := token
    obtain rfl : kind = .operator .sibling := ends _ rfl
    exact readFragments_sibling

/-- The name of a declaration is read with the colon in front of its fragments. -/
theorem readDeclarationName_letters (name : String) (fragments : List PlainFragment)
    (same : tokens.map Token.kind = fragmentsKinds true [.operator .colon] fragments)
    (tiles : Tile start (tokens.map Token.span) stop) (marked : Marked rest) :
    ∃ front between, front.map Token.kind = fragmentsKinds true [] fragments ∧
      Tile between (front.map Token.span) stop ∧
      readDeclarationName false (⟨.literal name, span⟩ :: (tokens ++ rest)) =
        (some name, front ++ rest) := by
  cases fragments with
  | nil =>
    rw [fragmentsKinds, List.map_eq_nil_iff] at same
    subst same
    refine ⟨[], start, rfl, tiles, ?_⟩
    cases rest with
    | nil => rfl
    | cons token rest =>
      obtain ⟨kind, span⟩ := token
      obtain rfl | rfl | rfl : kind = _ ∨ kind = _ ∨ kind = _ := marked _ rfl <;> rfl
  | cons first others =>
    obtain ⟨⟨_, colon⟩, front, rfl, rfl, sameFront⟩ := List.map_eq_cons_iff.mp same
    cases tiles with
    | cons filled tilesFront => exact ⟨front, _, sameFront, tilesFront, rfl⟩

/-- The mark of importance in front of the end is marked. -/
theorem marked_important {isImportant : Bool}
    (same : tokens.map Token.kind = importantKinds isImportant) (ends : EndsDeclaration rest) :
    Marked (tokens ++ rest) := by
  cases isImportant with
  | false =>
    rw [List.map_eq_nil_iff.mp same]
    exact ends.marked
  | true =>
    obtain ⟨⟨_, span⟩, others, rfl, rfl, -⟩ := List.map_eq_cons_iff.mp same
    exact marked_cons (.inr (.inl rfl)) _

/-- The mark of an important declaration is its last token. -/
theorem readFragments_marks {isImportant : Bool} (name : Option String)
    (fragments : List Fragment) (same : tokens.map Token.kind = importantKinds isImportant)
    (ends : EndsDeclaration rest) :
    readFragments false size ⟨name, fragments, false⟩ (tokens ++ rest) =
      .ok (⟨name, fragments, isImportant⟩, rest) := by
  cases isImportant with
  | false =>
    rw [List.map_eq_nil_iff.mp same]
    exact readFragments_ends ends
  | true =>
    obtain ⟨⟨_, span⟩, _, rfl, rfl, none⟩ := List.map_eq_cons_iff.mp same
    rw [List.map_eq_nil_iff.mp none]
    exact readFragments_important.trans (readFragments_ends ends)

/-- The tokens of a written declaration are read as it. -/
theorem readDeclaration_written (written : PlainDeclaration)
    (same : tokens.map Token.kind = written.kinds)
    (tiles : Tile start (tokens.map Token.span) stop) (ends : EndsDeclaration rest) :
    readDeclaration false size (tokens ++ rest) = .ok (written.meant, rest) := by
  rw [PlainDeclaration.kinds, List.singleton_append] at same
  obtain ⟨⟨_, span⟩, _, rfl, rfl, sameBoth⟩ := List.map_eq_cons_iff.mp same
  cases tiles with
  | cons _ tilesBoth =>
    obtain ⟨values, marks, _, rfl, sameValues, tilesValues, sameMarks, -⟩ :=
      exists_cut sameBoth tilesBoth
    have marked := marked_important sameMarks ends
    obtain ⟨front, _, sameFront, tilesFront, named⟩ :=
      readDeclarationName_letters _ written.fragments sameValues tilesValues marked
    rw [List.cons_append, List.append_assoc, readDeclaration, named,
      readFragments_fragments written.fragments _ (.inl rfl) sameFront tilesFront marked,
      readFragments_marks _ _ sameMarks ends]
    rfl

/-- A plus sign leads to the next declaration. -/
theorem readDeclarations_sibling :
    readDeclarations false size (⟨.operator .sibling, span⟩ :: rest) =
      readDeclarations false size rest := by
  have nothing : readDeclaration false size (⟨.operator .sibling, span⟩ :: rest) =
      .ok (⟨none, [], false⟩, ⟨.operator .sibling, span⟩ :: rest) := readFragments_sibling
  have unfilled : Declaration.isFilled ⟨none, [], false⟩ = false := rfl
  rw [readDeclarations.eq_def]
  simp only
  split
  · simp_all
  · next same =>
    cases nothing.symm.trans same
    rw [dif_neg (Bool.eq_false_iff.mp unfilled)]
    exact if_pos rfl

/-- A filled declaration that is found stands in front of the others. -/
theorem readDeclarations_found {token : Token} {others left : List Token} {found : Declaration}
    (read : readDeclaration false size (token :: others) = .ok (found, left))
    (filled : found.isFilled) :
    readDeclarations false size (token :: others) =
      (readDeclarations false size left).map (found :: ·) := by
  rw [readDeclarations.eq_def]
  simp only
  split
  · simp_all
  · next same =>
    cases read.symm.trans same
    rw [dif_pos filled]
    cases readDeclarations false size left <;> rfl

/-- The next declaration begins with a mark. -/
theorem endsDeclaration_joined {written : List PlainDeclaration}
    (same : tokens.map Token.kind = kindsJoined [.operator .sibling] written) :
    EndsDeclaration tokens := by
  cases written with
  | nil =>
    rw [kindsJoined, List.map_eq_nil_iff] at same
    exact same ▸ nofun
  | cons first others =>
    obtain ⟨⟨_, span⟩, behind, rfl, rfl, -⟩ := List.map_eq_cons_iff.mp same
    rintro _ ⟨⟩
    rfl

/-- Written declarations are read one after the other. -/
theorem readDeclarations_written (written : List PlainDeclaration) {tokens : List Token}
    {start : Nat} {leadKinds : List Token.Kind}
    (leads : leadKinds = [] ∨ leadKinds = [.operator .sibling])
    (same : tokens.map Token.kind = kindsJoined leadKinds written)
    (tiles : Tile start (tokens.map Token.span) stop) :
    readDeclarations false size tokens = .ok (written.map PlainDeclaration.meant) := by
  induction written generalizing tokens start leadKinds with
  | nil =>
    rw [kindsJoined, List.map_eq_nil_iff] at same
    rw [same, readDeclarations]
    rfl
  | cons first others ih =>
    rw [kindsJoined] at same
    obtain ⟨lead, _, _, rfl, sameLead, -, sameBoth, tilesBoth⟩ := exists_cut same tiles
    obtain ⟨front, behind, between, rfl, sameFirst, tilesFirst, sameOthers, tilesOthers⟩ :=
      exists_cut sameBoth tilesBoth
    have passes : readDeclarations false size (lead ++ (front ++ behind)) =
        readDeclarations false size (front ++ behind) :=
      passes_lead (fun _ _ => readDeclarations_sibling) leads sameLead _
    have ends : EndsDeclaration behind := endsDeclaration_joined sameOthers
    have read : readDeclaration false size (front ++ behind) = .ok (first.meant, behind) :=
      readDeclaration_written first sameFirst tilesFirst ends
    obtain ⟨token, rest, rfl, -, -⟩ := List.map_eq_cons_iff.mp sameFirst
    rw [List.cons_append] at read passes
    rw [List.cons_append, passes, readDeclarations_found read rfl,
      ih (.inr rfl) sameOthers tilesOthers]
    rfl

/-- Reading what declarations are written as gives the declarations that are meant. -/
theorem declarations_printDeclarations (written : List PlainDeclaration) :
    declarations false (printDeclarations written) =
      .ok (written.map PlainDeclaration.meant) := by
  obtain ⟨found, stop, sameKinds, tiles, read⟩ := tokens_printDeclarations written
  simp only [declarations, read, bind, Except.bind, mapError_within_eq_ok_iff]
  exact readDeclarations_written written (.inl rfl) sameKinds tiles

/-- The written form of two declarations. -/
example :
    let run (test : Char → Bool) (c : Char) (inside : test c) : Run test :=
      ⟨[c], nofun, List.forall_mem_singleton.mpr inside⟩
    let one := run CharClass.digit '1' rfl
    let keyword : PlainToken := .atom (.keyword (run CharClass.letter 'a' rfl))
    let number : PlainToken := .atom (.number ⟨true, one, some one, .percent⟩)
    let color : PlainToken := .atom (.color ⟨run CharClass.hexDigit 'f' rfl, some one⟩)
    let field : PlainToken := .atom (.field ⟨2, ['x'], by decide, by decide⟩)
    let call : PlainToken :=
      .call (run CharClass.letter 'g' rfl) [.mk keyword [number], .mk color []]
    let name := run CharClass.letter 'm' rfl
    printDeclarations [⟨name, [.mk call [field], .mk number []], true⟩, ⟨name, [], false⟩] =
      "m:g(a -1.1%,#f.1):$\x7b2:x\x7d,-1.1%!+m" := by
  decide +kernel

end Shorthand.Stylesheet
