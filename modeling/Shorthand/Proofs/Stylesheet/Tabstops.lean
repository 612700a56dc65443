import Shorthand.Expansion
import Shorthand.Proofs.Output.Tabstop
import Shorthand.Proofs.Text.Words

/-!
# Tabstops of declarations

The fields of every declaration are a group, so declarations share no number of a field. But
numbers also stand in texts and placeholders: in quoted texts, and where a call with fields
becomes the placeholder of a field. Those are written as they are, and two declarations share a
tabstop only where one of them holds it in this way.
-/

namespace Shorthand

/-- The same configuration with another hook for fields. -/
def Config.withField (config : Config) (hook : Nat → String → String) : Config :=
  { config with
    options := { config.options with output := { config.options.output with field := hook } } }

namespace Stylesheet

open Writer (Appends Completes groupOf reach)

/-! ### Pieces of a declaration -/

/-- A step of writing adds the same pieces whatever the hook for fields is. The pieces depend on
the base and on the level of indentation. -/
def Writes (base : Nat) (level : Int) (change : (Nat → String → String) → Writer → Writer) : Prop :=
  ∃ pieces, ∀ hook writer, writer.base = base → writer.stream.level = level →
    Appends hook pieces writer (change hook writer)

section

variable {base : Nat} {level : Int} {change next : (Nat → String → String) → Writer → Writer}

/-- A step that does nothing adds no pieces. -/
theorem Writes.nothing (base : Nat) (level : Int) : Writes base level fun _ => id :=
  ⟨[], fun hook writer _ _ => .refl hook writer⟩

/-- Steps one after the other add their pieces one behind the other. -/
theorem Writes.comp (second : Writes base level next) (first : Writes base level change) :
    Writes base level fun hook => next hook ∘ change hook := by
  obtain ⟨pieces, appends⟩ := first
  obtain ⟨more, continues⟩ := second
  refine ⟨pieces ++ more, fun hook writer isBase isLevel => ?_⟩
  have written := appends hook writer isBase isLevel
  exact written.trans
    (continues hook _ (written.base.trans isBase) (written.level.trans isLevel))

/-- A choice adds the pieces of the step that is made. -/
theorem Writes.ite (yes : Writes base level change) (condition : Prop) [Decidable condition]
    (no : Writes base level next) :
    Writes base level fun hook writer =>
      if condition then change hook writer else next hook writer := by
  by_cases holds : condition
  · simpa only [if_pos holds] using yes
  · simpa only [if_neg holds] using no

/-- A step for every item adds the pieces of all of them. -/
theorem Writes.foldl {α : Type} {step : (Nat → String → String) → Writer → α → Writer}
    (items : List α) (each : ∀ item, Writes base level fun hook writer => step hook writer item) :
    Writes base level fun hook writer => items.foldl (step hook) writer := by
  induction items with
  | nil => exact .nothing base level
  | cons item rest ih => exact ih.comp (each item)

end

section

variable (config : Config) (base : Nat) (level : Int)

/-- A text is one piece. -/
theorem push_writes (text : String) :
    Writes base level fun hook => push (config.withField hook) text :=
  ⟨[.text (config.options.output.text text).toList], fun hook writer _ _ => Appends.text_added
    (Stream.toList_push (config.withField hook).options.output text writer.stream) rfl⟩

/-- The lines of a text begin in the same way whatever the hook for fields is. -/
theorem pushText_writes (text : String) :
    Writes base level fun hook =>
      Writer.onStream (Stream.pushText (config.withField hook).options.output text) := by
  obtain ⟨first, rest, lines, -⟩ :=
    Stream.toList_pushText config.options.output text (.empty level)
  refine ⟨[.text ((config.options.output.text first).toList ++
    Stream.linesText config.options.output level rest)], ?_⟩
  rintro hook writer - rfl
  obtain ⟨head, tail, split, added⟩ :=
    Stream.toList_pushText (config.withField hook).options.output text writer.stream
  obtain ⟨rfl, rfl⟩ := List.cons.inj (lines.symm.trans split)
  exact Appends.text_added added (Stream.level_pushText _ text writer.stream)

/-- A field is one piece. -/
theorem pushField_writes (index : Nat) (name : String) :
    Writes base level fun hook =>
      Writer.pushField (config.withField hook).options.output index name := by
  refine ⟨[.field ⟨index, (base + index) % Digits.wordLimit⟩ name], ?_⟩
  rintro hook writer rfl -
  exact Writer.pushField_appends (config.withField hook).options.output index name writer

mutual

/-- The pieces of a value token do not depend on the hook. -/
theorem pushToken_writes (token : ValueToken) :
    Writes base level fun hook writer => pushToken (config.withField hook) token writer := by
  cases token with
  | color color =>
    simp only [pushToken]
    exact push_writes config base level (color.text config.options.stylesheet.shortHex)
  | literal value =>
    simp only [pushToken]
    exact pushText_writes config base level value
  | customProperty value =>
    simp only [pushToken]
    exact pushText_writes config base level value
  | number value raw unit =>
    simp only [pushToken]
    exact push_writes config base level _
  | quoted value isSingle =>
    simp only [pushToken]
    exact push_writes config base level _
  | field index name isGlued =>
    simp only [pushToken]
    exact pushField_writes config base level _ name
  | call name arguments =>
    simp only [pushToken]
    exact (push_writes config base level ")").comp <|
      (pushArguments_writes true arguments).comp (push_writes config base level (name ++ "("))

/-- The pieces of a fragment do not depend on the hook. -/
theorem pushFragment_writes (isFirst : Bool) (tokens : List ValueToken) :
    Writes base level fun hook writer =>
      pushFragment (config.withField hook) isFirst tokens writer := by
  cases tokens with
  | nil =>
    simp only [pushFragment]
    exact .nothing base level
  | cons token rest =>
    simp only [pushFragment]
    have separated := (Writes.nothing base level).ite (isFirst || token.isGlued)
      (push_writes config base level " ")
    exact (pushFragment_writes false rest).comp ((pushToken_writes token).comp separated)

/-- The pieces of the arguments of a call do not depend on the hook. -/
theorem pushArguments_writes (isFirst : Bool) (fragments : List (List ValueToken)) :
    Writes base level fun hook writer =>
      pushArguments (config.withField hook) isFirst fragments writer := by
  cases fragments with
  | nil =>
    simp only [pushArguments]
    exact .nothing base level
  | cons fragment rest =>
    simp only [pushArguments]
    have separated := (Writes.nothing base level).ite isFirst (push_writes config base level ", ")
    exact (pushArguments_writes false rest).comp
      ((pushFragment_writes true fragment).comp separated)

end

/-! ### Declarations -/

/-- The pieces of fragments do not depend on the hook. -/
theorem pushFragments_writes (fragments : List Fragment) :
    Writes base level fun hook => pushFragments (config.withField hook) fragments :=
  pushArguments_writes config base level true fragments

/-- The mark of importance is a text. -/
theorem pushImportant_writes (isImportant isSeparated : Bool) :
    Writes base level fun hook =>
      pushImportant (config.withField hook) isImportant isSeparated := by
  have separated := (push_writes config base level " ").ite isSeparated (.nothing base level)
  exact ((push_writes config base level "!important").comp separated).ite isImportant
    (.nothing base level)

/-- The pieces of the value of a member do not depend on the hook. -/
theorem pushMember_writes (fragments : List Fragment) :
    Writes base level fun hook => pushMember (config.withField hook) fragments := by
  unfold pushMember
  cases plainNumber? fragments with
  | some value => exact push_writes config base level (numberText value)
  | none =>
    have quoted (mark : String) := (push_writes config base level mark).comp <|
      (pushFragments_writes config base level fragments).comp (push_writes config base level mark)
    exact quoted (if config.options.stylesheet.jsonDoubleQuotes then "\"" else "'")

/-- The pieces of the value of a declaration do not depend on the hook. -/
theorem pushValue_writes (fragments : List Fragment) :
    Writes base level fun hook => pushValue (config.withField hook) fragments := by
  have valued := (pushMember_writes config base level fragments).ite config.options.stylesheet.json
    (pushFragments_writes config base level fragments)
  exact (pushField_writes config base level 0 "").ite fragments.isEmpty valued

/-- A declaration is written with the same pieces whatever the hook for fields is. -/
theorem pushDeclaration_writes (resolved : Resolved) :
    Writes base level fun hook => pushDeclaration (config.withField hook) resolved := by
  obtain ⟨⟨name, fragments, isImportant⟩, isRaw, isMatched⟩ := resolved
  cases name with
  | none =>
    have raw := Writes.foldl fragments.flatten (pushToken_writes config base level)
    have valued := raw.ite isRaw (pushFragments_writes config base level fragments)
    exact (pushImportant_writes config base level isImportant (!fragments.isEmpty)).comp valued
  | some name =>
    let shown :=
      if config.options.stylesheet.json then String.ofList (camelCase false name.toList) else name
    have valued := (pushValue_writes config base level fragments).comp
      (push_writes config base level (shown ++ config.options.stylesheet.between))
    have ended := (push_writes config base level config.options.stylesheet.after).comp
      ((pushImportant_writes config base level isImportant true).comp valued)
    exact ((push_writes config base level ",").comp valued).ite config.options.stylesheet.json ended

end

/-! ### Declarations one after the other -/

section

variable (config : Config)

/-- The texts of declarations, of which the first one is numbered from `base`. -/
def declarationTexts (base : Nat) : List Resolved → List String
  | [] => []
  | resolved :: rest =>
    let written := pushDeclaration config resolved (.empty base)
    written.stream.value :: declarationTexts written.closeGroup.base rest

/-- What stands between declarations. -/
def separator : String :=
  if config.options.output.format then
    config.options.output.newline ++ config.options.output.baseIndent
  else
    ""

/-- The own numbers of the fields among pieces, as the group that they make. -/
def groupOfPieces (pieces : List WrittenPiece) : List (List Nat) :=
  groupOf ((pieces.filterMap WrittenPiece.field?).map WrittenField.own)

/-- Pieces that a declaration is written with from a base, whatever the hook for fields is. -/
structure WrittenWith (config : Config) (resolved : Resolved) (base : Nat)
    (pieces : List WrittenPiece) : Prop where
  text : ∀ hook, (pushDeclaration (config.withField hook) resolved (.empty base)).stream.value =
    String.ofList (pieces.flatMap (WrittenPiece.shown hook))
  behind : ∀ hook,
    (pushDeclaration (config.withField hook) resolved (.empty base)).closeGroup.base =
      (groupOfPieces pieces).foldl Writer.baseBehind base
  completes : ∀ writer, writer.base = base → writer.stream.level = 0 → writer.current = [] →
    Completes config.options.output.field pieces (groupOfPieces pieces) writer
      (pushDeclaration config resolved writer).closeGroup
  level : ∀ writer, writer.base = base → writer.stream.level = 0 →
    (pushDeclaration config resolved writer).closeGroup.stream.level = 0

/-- Every declaration is written with some pieces. -/
theorem writtenWith (resolved : Resolved) (base : Nat) :
    ∃ pieces, WrittenWith config resolved base pieces := by
  obtain ⟨pieces, appends⟩ := pushDeclaration_writes config base 0 resolved
  have begun (hook : Nat → String → String) := appends hook (.empty base) rfl rfl
  refine ⟨pieces, ?_⟩
  constructor
  case text =>
    intro hook
    rw [← String.toList_inj, (begun hook).text, String.toList_ofList]
    rfl
  case behind => exact fun hook => ((begun hook).closeGroup rfl).base
  case completes =>
    intro writer isBase isLevel outside
    exact (appends config.options.output.field writer isBase isLevel).closeGroup outside
  case level =>
    intro writer isBase isLevel
    rw [Writer.closeGroup_stream]
    exact (appends config.options.output.field writer isBase isLevel).level.trans isLevel

/-- The fields of pieces that complete a group are that group, if there are any. -/
theorem numberedAll_groupOfPieces {hook : Nat → String → String} {pieces : List WrittenPiece}
    {before after : Writer}
    (completes : Completes hook pieces (groupOfPieces pieces) before after) :
    Writer.numberedAll before.base (groupOfPieces pieces) =
      [pieces.filterMap WrittenPiece.field?].filter (!·.isEmpty) := by
  have fields := completes.fields
  by_cases empty : pieces.filterMap WrittenPiece.field? = []
  · simp [groupOfPieces, groupOf, empty, Writer.numberedAll]
  · have filled : groupOfPieces pieces =
        [(pieces.filterMap WrittenPiece.field?).map WrittenField.own] := by
      simp [groupOfPieces, groupOf, empty]
    rw [filled, Writer.numberedAll, Writer.numberedAll, List.flatten_cons, List.flatten_nil,
      List.append_nil] at fields
    rw [filled, Writer.numberedAll, Writer.numberedAll, ← fields]
    simp [empty]

/-- Where a declaration begins. -/
def place (isFirst : Bool) (writer : Writer) : Writer :=
  if config.options.output.format && !isFirst then
    writer.onStream (Stream.pushLine config.options.output)
  else
    writer

/-- A new line changes the text alone. -/
structure Placed (text : String) (before after : Writer) : Prop where
  value : after.stream.value = before.stream.value ++ text
  level : after.stream.level = before.stream.level
  base : after.base = before.base
  current : after.current = before.current
  groups : after.groups = before.groups

/-- Nothing is put in front of the first declaration. -/
theorem place_first (writer : Writer) : place config true writer = writer := by
  simp [place]

/-- Behind the first one a line break is put in front of a declaration. -/
theorem place_placed (isFirst : Bool) (writer : Writer) (isLevel : writer.stream.level = 0) :
    Placed (if isFirst then "" else separator config) writer (place config isFirst writer) := by
  have isStart : Stream.lineStart config.options.output 0 =
      (config.options.output.newline ++ config.options.output.baseIndent).toList := by
    simp [Stream.lineStart, Text.repeated]
  cases isFirst with
  | true =>
    rw [place_first]
    exact ⟨String.append_empty.symm, rfl, rfl, rfl, rfl⟩
  | false =>
    by_cases isLaidOut : config.options.output.format
    · have placed : place config false writer =
          writer.onStream (Stream.pushLine config.options.output) := by simp [place, isLaidOut]
      have added : (Stream.pushLine config.options.output writer.stream).value =
          writer.stream.value ++ separator config := by
        rw [← String.toList_inj, Stream.toList_pushLine, isLevel, isStart, ← String.toList_append,
          separator, if_pos isLaidOut]
      rw [placed]
      exact ⟨added, rfl, rfl, rfl, rfl⟩
    · have placed : place config false writer = writer := by simp [place, isLaidOut]
      have nothing : separator config = "" := if_neg isLaidOut
      rw [placed, if_neg Bool.false_ne_true, nothing]
      exact ⟨String.append_empty.symm, rfl, rfl, rfl, rfl⟩

/-- Declarations are written one after the other, each as a group of its own. -/
theorem pushDeclarations_cons (isFirst : Bool) (resolved : Resolved) (rest : List Resolved)
    (writer : Writer) :
    pushDeclarations config isFirst (resolved :: rest) writer =
      pushDeclarations config false rest
        (pushDeclaration config resolved (place config isFirst writer)).closeGroup := rfl

/-- The text of declarations, each of which but the first has the separator in front. -/
theorem pushDeclarations_text (declarations : List Resolved) (writer : Writer)
    (isLevel : writer.stream.level = 0) (outside : writer.current = []) :
    (pushDeclarations config false declarations writer).stream.value =
      writer.stream.value ++
        String.join ((declarationTexts config writer.base declarations).map (separator config ++ ·))
          := by
  induction declarations generalizing writer with
  | nil => simp [pushDeclarations, declarationTexts]
  | cons resolved rest ih =>
    obtain ⟨first, isWritten⟩ := writtenWith config resolved writer.base
    have placed := place_placed config false writer isLevel
    have completes := isWritten.completes _ placed.base (placed.level.trans isLevel)
      (placed.current.trans outside)
    have text : (pushDeclaration config resolved (.empty writer.base)).stream.value = _ :=
      isWritten.text config.options.output.field
    have behind : (pushDeclaration config resolved (.empty writer.base)).closeGroup.base = _ :=
      isWritten.behind config.options.output.field
    have written :
        (pushDeclaration config resolved (place config false writer)).closeGroup.stream.value =
          writer.stream.value ++ (separator config ++
            (pushDeclaration config resolved (.empty writer.base)).stream.value) := by
      rw [← String.toList_inj, completes.text, placed.value, text]
      simp
    rw [pushDeclarations_cons, ih _ (isWritten.level _ placed.base (placed.level.trans isLevel))
      completes.current, written, completes.base, placed.base, declarationTexts, behind,
      List.map_cons, String.join_cons, String.append_assoc]

/-- The output is the texts of the declarations with separators between them. -/
theorem render_eq_join (declarations : List Resolved) :
    render config declarations =
      Text.join (separator config)
        (declarationTexts config 0 (shownDeclarations config declarations)) := by
  rw [render, write]
  cases shownDeclarations config declarations with
  | nil => rfl
  | cons resolved rest =>
    obtain ⟨first, isWritten⟩ := writtenWith config resolved 0
    have completes := isWritten.completes (.empty 0) rfl rfl rfl
    rw [pushDeclarations_cons, place_first, pushDeclarations_text config rest _
      (isWritten.level _ rfl rfl) completes.current, Writer.closeGroup_stream, declarationTexts,
      Text.join_cons]

/-- The texts of declarations are made of pieces, and the fields of each are a group. -/
theorem declarations_pieces (declarations : List Resolved) (isFirst : Bool) (writer : Writer)
    (isLevel : writer.stream.level = 0) (outside : writer.current = []) :
    ∃ (pieces : List (List WrittenPiece)) (groups : List (List Nat)),
      (∀ hook, declarationTexts (config.withField hook) writer.base declarations =
        pieces.map fun one => String.ofList (one.flatMap (WrittenPiece.shown hook))) ∧
      (pieces.map (·.filterMap WrittenPiece.field?)).filter (!·.isEmpty) =
        Writer.numberedAll writer.base groups ∧
      (pushDeclarations config isFirst declarations writer).groups =
        (Writer.numberedAll writer.base groups).reverse ++ writer.groups := by
  induction declarations generalizing isFirst writer with
  | nil => exact ⟨[], [], fun hook => rfl, rfl, rfl⟩
  | cons resolved rest ih =>
    obtain ⟨first, isWritten⟩ := writtenWith config resolved writer.base
    have placed := place_placed config isFirst writer isLevel
    have begins := placed.level.trans isLevel
    have completes := isWritten.completes _ placed.base begins (placed.current.trans outside)
    obtain ⟨others, groups, texts, numbered, closed⟩ :=
      ih false _ (isWritten.level _ placed.base begins) completes.current
    have fields := numberedAll_groupOfPieces completes
    rw [completes.base, placed.base] at texts numbered closed
    rw [placed.base] at fields
    refine ⟨first :: others, groupOfPieces first ++ groups, ?_, ?_, ?_⟩
    · intro hook
      rw [declarationTexts, isWritten.text, isWritten.behind, texts hook, List.map_cons]
    · rw [Writer.numberedAll_append, fields, ← numbered, ← List.filter_append]
      rfl
    · rw [pushDeclarations_cons, closed, completes.groups, placed.base, placed.groups,
        Writer.numberedAll_append, List.reverse_append, List.append_assoc]

/-- The tabstops of a text that an editor gets. -/
def tabstopsOf (text : String) : List Nat := tabstops text.toList

/-- Declarations without fields do not matter where the fields of the others increase. -/
theorem pairwise_of_filled {relation : WrittenField → WrittenField → Prop}
    {pieces : List (List WrittenPiece)}
    (apart : ((pieces.map (·.filterMap WrittenPiece.field?)).filter (!·.isEmpty)).Pairwise
      fun earlier later => ∀ first ∈ earlier, ∀ second ∈ later, relation first second) :
    pieces.Pairwise fun earlier later =>
      ∀ first ∈ earlier.filterMap WrittenPiece.field?,
        ∀ second ∈ later.filterMap WrittenPiece.field?, relation first second := by
  rw [List.pairwise_filter, List.pairwise_map] at apart
  refine apart.imp ?_
  intro earlier later related first isFirst second isSecond
  have filled {fields : List WrittenField} {field : WrittenField} (member : field ∈ fields) :
      (!fields.isEmpty) = true := by
    simpa using List.ne_nil_of_mem member
  exact related (filled isFirst) (filled isSecond) first isFirst second isSecond

/-- Two declarations share a tabstop exactly if one of them holds it outside of the numbers of its
fields: in a text, or in the placeholder of a field. -/
theorem shared_tabstops_iff (database : Database) {source : String}
    {declarations : List Declaration} (isDefault : config.options.output.field = defaultField)
    (reads : Expansion.readStylesheet config source = .ok declarations)
    (fits : ((write config (declarations.map (resolve config database))).groups.map fun group =>
      Writer.reach (group.map WrittenField.own)).sum < Digits.wordLimit) :
    let shown := shownDeclarations config (declarations.map (resolve config database))
    let texts := declarationTexts config 0 shown
    let verbatim := declarationTexts (config.withField bareField) 0 shown
    Expansion.expandStylesheet config database source = .ok (Text.join (separator config) texts) ∧
      texts.length = verbatim.length ∧
      (texts.zip verbatim).Pairwise fun first second => ∀ number,
        number ∈ tabstopsOf first.1 ∧ number ∈ tabstopsOf second.1 ↔
          number ∈ tabstopsOf first.2 ∧ number ∈ tabstopsOf second.1 ∨
            number ∈ tabstopsOf first.1 ∧ number ∈ tabstopsOf second.2 := by
  intro shown texts verbatim
  obtain ⟨pieces, groups, written, numbered, closed⟩ :=
    declarations_pieces config shown true (.empty 0) rfl rfl
  have isTexts : texts = pieces.map fun one =>
      String.ofList (one.flatMap (WrittenPiece.shown defaultField)) :=
    isDefault ▸ written config.options.output.field
  have isVerbatim : verbatim = pieces.map fun one =>
      String.ofList (one.flatMap (WrittenPiece.shown bareField)) := written bareField
  have small : 0 + (groups.map Writer.reach).sum < Digits.wordLimit := by
    have closed : (write config (declarations.map (resolve config database))).groups =
        (Writer.numberedAll 0 groups).reverse := closed.trans (List.append_nil _)
    have own := congrArg (List.map Writer.reach) (Writer.own_numberedAll 0 groups)
    rw [List.map_map] at own
    rwa [Nat.zero_add, ← own, ← List.sum_reverse, ← List.map_reverse, ← closed]
  -- The numbers of the groups increase from one to the next, so that a number shared by two
  -- declarations is not one of both of their fields.
  have apart := Writer.numberedAll_increasing small
  rw [show Writer.numberedAll 0 groups = _ from numbered.symm] at apart
  refine ⟨?_, by rw [isTexts, isVerbatim, List.length_map, List.length_map], ?_⟩
  · rw [Expansion.expandStylesheet, reads, ← render_eq_join]
    rfl
  · rw [isTexts, isVerbatim, List.zip_map', List.pairwise_map]
    refine (pairwise_of_filled apart).imp ?_
    intro first second increasing number
    have found (one : List WrittenPiece) := mem_tabstops_pieces number one []
    simp only [List.nil_append] at found
    have separate : ¬(number ∈ (first.filterMap WrittenPiece.field?).map WrittenField.written ∧
        number ∈ (second.filterMap WrittenPiece.field?).map WrittenField.written) := by
      rintro ⟨isFirst, isSecond⟩
      obtain ⟨one, member, rfl⟩ := List.mem_map.mp isFirst
      obtain ⟨other, inside, same⟩ := List.mem_map.mp isSecond
      exact absurd same (Nat.ne_of_gt (increasing one member other inside))
    simp only [tabstopsOf, String.toList_ofList, found]
    tauto

/-- A text in quotes holds the mark of a field that the next declaration has. -/
theorem shared_tabstops_quoted :
    let config := Config.ofSettings { Settings.blank with language := some .stylesheet }
    let database : Database := ⟨[]⟩
    let source := "a\"${1}\"+b${0}${1:c}"
    let declarations : List Declaration :=
      [⟨some "a", [[.quoted "${1}" false]], false⟩,
        ⟨some "b", [[.field (some 0) "" false, .field (some 1) "c" true]], false⟩]
    let first := "a: \"${1}\";"
    let second := "b: ${0}${1:c};"
    Expansion.readStylesheet config source = .ok declarations ∧
      ((write config (declarations.map (resolve config database))).groups.map fun group =>
        Writer.reach (group.map WrittenField.own)).sum < Digits.wordLimit ∧
      Expansion.expandStylesheet config database source = .ok (first ++ "\n" ++ second) ∧
      1 ∈ tabstopsOf first ∧ 1 ∈ tabstopsOf second := by
  have reads : Stylesheet.declarations false "a\"${1}\"+b${0}${1:c}" =
      .ok [⟨some "a", [[.quoted "${1}" false]], false⟩,
        ⟨some "b", [[.field (some 0) "" false, .field (some 1) "c" true]], false⟩] := by
    with_unfolding_all rfl
  intro config database source declarations first second
  have fits : ((write config (declarations.map (resolve config database))).groups.map fun group =>
      Writer.reach (group.map WrittenField.own)).sum < Digits.wordLimit := by decide +kernel
  let shown := shownDeclarations config (declarations.map (resolve config database))
  have texts : declarationTexts config 0 shown = [first, second] := by decide +kernel
  have verbatim : declarationTexts (config.withField bareField) 0 shown =
      [first, "b: $\x7d$:c\x7d;"] := by decide +kernel
  obtain ⟨output, -, shared⟩ := shared_tabstops_iff config database rfl reads fits
  rw [texts, verbatim] at shared
  rw [texts] at output
  refine ⟨reads, fits, output, ?_⟩
  exact (List.rel_of_pairwise_cons shared (List.mem_singleton_self _) 1).mpr
    (.inl ⟨by decide +kernel, by decide +kernel⟩)

end

end Stylesheet

end Shorthand
