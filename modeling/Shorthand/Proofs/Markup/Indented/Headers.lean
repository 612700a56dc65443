import Shorthand.Expansion
import Shorthand.Proofs.Markup.Indented.Leads
import Shorthand.Proofs.Markup.Resolution.OwnElements

/-!
# The headers of elements that are written by indentation

Every named element but the first begins a line, and its header is written behind the
indentation. Two things can make it unrecognizable. The name of a `div` is left out where it has
selectors, even if none of them has a value and nothing stands for the name. And text that is no
one's own stands right behind what is written in front of it, which is a name if the element has
no text. Both are decided by the first characters of what the writer adds.
-/

namespace Shorthand.Markup.Indented

open Text (IsUnbroken)

/-! ### Recognizable headers -/

section

variable (config : Config) (delimiters : Delimiters)

/-- The writer where the element behind some others is to stand. -/
def reached (before : List Entry) : Writer :=
  pushEntries config delimiters true before (.empty 1)

/-- The writer in front of the header of an element. -/
def placed (before : List Entry) (entry : Entry) : Writer :=
  place config before.isEmpty entry ((reached config delimiters before).shift entry.depth)

/-- The writer behind the header of an element. -/
def headed (before : List Entry) (entry : Entry) : Writer :=
  pushHeader config delimiters entry.element (placed config delimiters before entry)

/-- In the text of nodes, an element stands behind the elements before it: with what its place
begins, with its header, and with all that is behind the header. -/
structure StandsIn (nodes : List Node) (before : List Entry) (entry : Entry)
    (start header behind : List Char) : Prop where
  start : (placed config delimiters before entry).stream.value.toList =
    (reached config delimiters before).stream.value.toList ++ start
  header : (headed config delimiters before entry).stream.value.toList =
    (placed config delimiters before entry).stream.value.toList ++ header
  behind : (render config delimiters nodes).toList =
    (headed config delimiters before entry).stream.value.toList ++ behind

/-- A header shows an element of a name: by the whole name, or, if it is a `div`, by a selector. -/
def IsRecognizable (name : String) (header : List Char) : Prop :=
  header ≠ [] ∧ ((delimiters.beforeName ++ name).toList <+: header ∨
    name = "div" ∧ (header.head? = some '.' ∨ header.head? = some '#'))

/-- What stands behind the header of an element does not run together with it. -/
def IsApart (entry : Entry) (behind : List Char) : Prop :=
  behind = [] ∨ behind.head? = some ' ' ∨ behind.head? = some '\n' ∨
    entry.closesItself ∧ ∃ mark ∈ delimiters.closingMark.toList, behind.head? = some mark

/-- Something is written for the name of an element: a selector with a value, or the name, unless
it is a `div` with selectors that lack values. An empty name needs something that shows it. -/
def IsShown (name : String) (element : Element) : Prop :=
  (∃ written ∈ element.attributes, isSelector written ∧ written.value.isSome) ∨
    (name ≠ "div" ∨ element.attributes.filter isSelector = []) ∧
      (delimiters.beforeName ++ name ≠ "" ∨ enclosed element ≠ [])

/-- An element has nothing behind its header, and the next one that anything is written for is a
text in the same line, which does not begin with a blank. -/
def RunsOn (entry : Entry) (after : List Entry) : Prop :=
  ownLead delimiters entry = none ∧
    ∃ c, after.findSome? (lead delimiters) = some c ∧ c ≠ ' ' ∧ c ≠ '\n'

end

/-- No selector is written if no class or id has a value. -/
theorem selectorsLead_eq_none {element : Element} :
    selectorsLead element = none ↔
      ¬ ∃ written ∈ element.attributes, isSelector written ∧ written.value.isSome := by
  simp [selectorsLead, selectorLead, List.findSome?_eq_none_iff]

/-- Selectors begin with a dot or a hash. -/
theorem mark_of_selectorsLead {element : Element} {c : Char}
    (begins : selectorsLead element = some c) : c = '.' ∨ c = '#' := by
  obtain ⟨written, -, isLead⟩ := List.exists_of_findSome?_eq_some begins
  obtain ⟨-, -, rfl⟩ := Option.map_eq_some_iff.mp isLead
  split <;> simp

/-- What the dialects put in front of names and of attributes. -/
theorem marks_of_mem_dialects {config : Config} {delimiters : Delimiters}
    (dialect : delimiters ∈ Delimiters.dialects config) :
    (delimiters.beforeName = "%" ∨ delimiters.beforeName = "") ∧
      ∃ mark, (mark = '(' ∨ mark = ' ') ∧ delimiters.beforeAttributes.toList.head? = some mark := by
  simp only [Delimiters.dialects, List.mem_cons, List.not_mem_nil, or_false] at dialect
  rcases dialect with rfl | rfl | rfl
  · exact ⟨.inl rfl, '(', .inl rfl, rfl⟩
  · exact ⟨.inr rfl, ' ', .inr rfl, rfl⟩
  · exact ⟨.inr rfl, '(', .inl rfl, by simp [Delimiters.pug]⟩

/-- The name of a `div` is no beginning of the attributes between delimiters. -/
theorem not_div_prefix {config : Config} {delimiters : Delimiters}
    (dialect : delimiters ∈ Delimiters.dialects config) {mark : Char} {header : List Char}
    (isMark : mark = '(' ∨ mark = ' ') (begins : header.head? = some mark) :
    ¬ (delimiters.beforeName ++ "div").toList <+: header := by
  rintro ⟨more, rfl⟩
  obtain ⟨isEmpty | isEmpty, -⟩ := marks_of_mem_dialects dialect <;>
    simp [isEmpty] at begins <;> subst begins <;> simp at isMark

/-- A header is recognizable exactly if something is written for the name. -/
theorem isRecognizable_iff {config : Config} {delimiters : Delimiters}
    (dialect : delimiters ∈ Delimiters.dialects config) {element : Element} {name : String}
    (named : element.name = some name) {header : List Char}
    (isHeader : IsHeader delimiters element header) :
    IsRecognizable delimiters name header ↔ IsShown delimiters name element := by
  obtain ⟨more, rfl, begins⟩ := isHeader
  obtain ⟨-, mark, isMark, opening⟩ := marks_of_mem_dialects dialect
  have isStart : headerStart delimiters element =
      if name ≠ "div" ∨ element.attributes.filter isSelector = [] then
        (delimiters.beforeName ++ name).toList
      else [] := by
    simp [headerStart, named]
  rw [isStart]
  by_cases valued : ∃ written ∈ element.attributes, isSelector written ∧ written.value.isSome
  case pos =>
    -- a selector with a value stands for the name where that is left out
    obtain ⟨c, isLead⟩ :=
      Option.ne_none_iff_exists'.mp (selectorsLead_eq_none.not.mpr (not_not.mpr valued))
    rw [isLead, Option.some_or] at begins
    refine iff_of_true ⟨?_, ?_⟩ (.inl valued)
    · rintro nothing
      rw [(List.append_eq_nil_iff.mp nothing).2] at begins
      cases begins
    · split
      case isTrue => exact .inl (List.prefix_append _ _)
      case isFalse unwritten =>
        rw [not_or, not_not] at unwritten
        refine .inr ⟨unwritten.1, ?_⟩
        rw [List.nil_append, begins]
        exact (mark_of_selectorsLead isLead).imp (congrArg some) (congrArg some)
  case neg =>
    rw [selectorsLead_eq_none.mpr valued, Option.none_or, enclosedLead, opening] at begins
    have moreEmpty : more = [] ↔ enclosed element = [] := by
      rw [← List.head?_eq_none_iff, begins]
      simp
    have onlyWritten : IsShown delimiters name element ↔
        (name ≠ "div" ∨ element.attributes.filter isSelector = []) ∧
          (delimiters.beforeName ++ name ≠ "" ∨ enclosed element ≠ []) :=
      or_iff_right valued
    rw [onlyWritten]
    split
    case isTrue written =>
      have nonempty : (delimiters.beforeName ++ name).toList ++ more ≠ [] ↔
          delimiters.beforeName ++ name ≠ "" ∨ enclosed element ≠ [] := by
        rw [Ne, List.append_eq_nil_iff, moreEmpty, String.toList_eq_nil_iff, not_and_or]
      rw [IsRecognizable, nonempty, and_iff_right written]
      exact and_iff_left (.inl (List.prefix_append _ _))
    case isFalse unwritten =>
      refine iff_of_false ?_ fun shown => unwritten shown.1
      rw [not_or, not_not] at unwritten
      rw [List.nil_append, unwritten.1]
      rintro ⟨filled, shows⟩
      have isLead : more.head? = some mark := by
        rw [begins, if_neg (by simpa using moreEmpty.not.mp filled)]
      rcases shows with whole | ⟨-, isPoint | isNumber⟩
      · exact not_div_prefix dialect isMark isLead whole
      · rw [isLead] at isPoint
        rcases isMark with rfl | rfl <;> cases isPoint
      · rw [isLead] at isNumber
        rcases isMark with rfl | rfl <;> cases isNumber

/-- The first character that a named element has behind its header is the mark of closing itself,
a blank or a line break. -/
theorem ownLead_of_named {delimiters : Delimiters} {entry : Entry}
    (named : entry.element.name.isSome) {c : Char} (own : ownLead delimiters entry = some c) :
    c = ' ' ∨ c = '\n' ∨ entry.closesItself ∧ c ∈ delimiters.closingMark.toList := by
  rw [ownLead] at own
  split at own
  case isTrue closes => exact .inr (.inr ⟨closes, List.mem_of_head? own⟩)
  case isFalse =>
    split at own
    case isTrue => cases own
    case isFalse =>
      simp only [textLead, isBare_of_named named, Bool.false_eq_true, if_false] at own
      generalize (if entry.element.value.isEmpty then caret else entry.element.value) = value at own
      split at own
      · exact .inr (.inl (Option.some.inj own).symm)
      · exact .inl (Option.some.inj own).symm

/-- What stands behind the header of a named element runs together with it exactly if the element
has nothing there itself and the text of another one follows in the line. -/
theorem isApart_iff {delimiters : Delimiters} {entry : Entry} (named : entry.element.name.isSome)
    {after : List Entry} {behind : List Char}
    (begins : behind.head? =
      (ownLead delimiters entry).or (after.findSome? (lead delimiters))) :
    IsApart delimiters entry behind ↔ ¬ RunsOn delimiters entry after := by
  cases own : ownLead delimiters entry with
  | some c =>
    rw [own, Option.some_or] at begins
    refine iff_of_true ?_ fun runsOn => Option.some_ne_none c (own.symm.trans runsOn.1)
    rcases ownLead_of_named named own with rfl | rfl | ⟨closes, isMark⟩
    · exact .inr (.inl begins)
    · exact .inr (.inr (.inl begins))
    · exact .inr (.inr (.inr ⟨closes, c, isMark, begins⟩))
  | none =>
    rw [own, Option.none_or] at begins
    have unmarked : ¬ (entry.closesItself ∧
        ∃ mark ∈ delimiters.closingMark.toList, behind.head? = some mark) := by
      rintro ⟨closes, mark, isMark, -⟩
      rw [ownLead, if_pos closes, List.head?_eq_none_iff] at own
      simp [own] at isMark
    rw [IsApart, or_iff_left unmarked, RunsOn, and_iff_right own, ← List.head?_eq_none_iff, begins]
    cases after.findSome? (lead delimiters) with
    | none => simp
    | some c =>
      simp only [Option.some.injEq, reduceCtorEq, false_or, exists_eq_left']
      tauto

/-- A named element is written at its place, behind a line break and its indentation if anything
is written before it. -/
theorem exists_standsIn {config : Config} (writes : WritesLines config) {delimiters : Delimiters}
    {mark : Char} (opening : delimiters.beforeAttributes.toList.head? = some mark)
    {nodes : List Node} {before after : List Entry} {entry : Entry}
    (split : entries 0 nodes = before ++ entry :: after) :
    ∃ start header behind, StandsIn config delimiters nodes before entry start header behind ∧
      (start = if !before.isEmpty && !entry.element.isBare then
        '\n' :: indentation config entry.depth else []) ∧
      IsHeader delimiters entry.element header ∧
      behind.head? = (ownLead delimiters entry).or (after.findSome? (lead delimiters)) := by
  obtain ⟨margin, -⟩ := grows_pushEntries writes opening true before (.empty 1) rfl
  have shifted : ((reached config delimiters before).shift entry.depth).stream.level =
      entry.depth := by
    rw [level_shift, reached, margin, Int.zero_add]
  obtain ⟨level, start, isStart, same⟩ :=
    adds_place writes before.isEmpty entry ((reached config delimiters before).shift entry.depth)
      shifted
  obtain ⟨level, header, written, isHeader⟩ :=
    adds_header writes delimiters opening entry.element (placed config delimiters before entry)
      level
  obtain ⟨level, own, isOwn, ownBegins⟩ :=
    leads_pushOwn writes delimiters entry (headed config delimiters before entry) level
  have back : (pushEntry config delimiters before.isEmpty entry
      (reached config delimiters before)).stream.level = 0 :=
    (congrArg (· + -(entry.depth : Int)) level).trans (Int.add_right_neg _)
  obtain ⟨-, others, isOthers, othersBegin⟩ := leads_pushEntries writes opening after _ back
  have whole : write config delimiters nodes = pushEntries config delimiters false after
      (pushEntry config delimiters before.isEmpty entry (reached config delimiters before)) := by
    rw [write_eq, split, pushEntries_append, Bool.true_and]
    rfl
  refine ⟨start, header, own ++ others, ⟨isStart, written, ?_⟩, same, isHeader, ?_⟩
  · rw [render, whole, isOthers, ← List.append_assoc, ← isOwn]
    rfl
  · rw [List.head?_append, ownBegins, othersBegin]

/-- Every named element has a header behind its indentation, which begins a line if it is not the
first of all. The header is recognizable exactly if something is written for the name, and it is
apart from what follows exactly if it does not run on into the text of another element. -/
theorem headers_render {config : Config} (writes : WritesLines config) {delimiters : Delimiters}
    (dialect : delimiters ∈ Delimiters.dialects config) {nodes : List Node}
    {before after : List Entry} {entry : Entry}
    (split : entries 0 nodes = before ++ entry :: after) {name : String}
    (named : entry.element.name = some name) :
    ∃ start header behind, StandsIn config delimiters nodes before entry start header behind ∧
      (start = if before.isEmpty then [] else '\n' :: indentation config entry.depth) ∧
      (IsRecognizable delimiters name header ↔ IsShown delimiters name entry.element) ∧
      (IsApart delimiters entry behind ↔ ¬ RunsOn delimiters entry after) := by
  obtain ⟨-, mark, -, opening⟩ := marks_of_mem_dialects dialect
  obtain ⟨start, header, behind, stands, isStart, isHeader, follows⟩ :=
    exists_standsIn writes opening split
  have hasName : entry.element.name.isSome := by rw [named, Option.isSome_some]
  refine ⟨start, header, behind, stands, ?_, isRecognizable_iff dialect named isHeader,
    isApart_iff hasName follows⟩
  rw [isStart, isBare_of_named hasName]
  cases before <;> rfl

/-! ### Expanded abbreviations -/

/-- The configuration of a dialect where nothing else is asked for. -/
def defaultsOf (dialect : Dialect) : Config :=
  .ofSettings { Settings.blank with dialect := some dialect.name }

/-- The default settings of a dialect have its own snippets. -/
theorem snippets_defaultsOf (dialect : Dialect) :
    (defaultsOf dialect).snippets = Config.builtinSnippets (defaultsOf dialect).dialect := rfl

/-- The default configurations of the three dialects. -/
theorem writesLines_defaultsOf {dialect : Dialect} (indents : dialect ∈ [.haml, .slim, .pug]) :
    (defaultsOf dialect).dialect = dialect ∧ WritesLines (defaultsOf dialect) ∧
      ∃ delimiters ∈ Delimiters.dialects (defaultsOf dialect),
        Delimiters.ofConfig? (defaultsOf dialect) = some delimiters := by
  simp only [List.mem_cons, List.not_mem_nil, or_false] at indents
  have tab : IsUnbroken "\t".toList := by decide
  rcases indents with rfl | rfl | rfl
  · exact ⟨rfl, ⟨rfl, rfl, rfl, rfl, tab⟩, Delimiters.haml, by simp [Delimiters.dialects], rfl⟩
  · exact ⟨rfl, ⟨rfl, rfl, rfl, rfl, tab⟩, Delimiters.slim, by simp [Delimiters.dialects], rfl⟩
  · exact ⟨rfl, ⟨rfl, rfl, rfl, rfl, tab⟩, _, by simp [Delimiters.dialects], rfl⟩

/-- What an abbreviation is expanded to with the defaults of a dialect is the text of its
transformed nodes, and every named element of them has a header behind its indentation, which
begins a line if it is not the first of all. The header is recognizable exactly if something is
written for the name, and it is apart from what follows exactly if it does not run on into the
text of another element. -/
theorem headers_expand {State : Type} (draws : Draws State) {dialect : Dialect}
    (indents : dialect ∈ [.haml, .slim, .pug]) {source : String} {nodes : List Node}
    (read : parse (defaultsOf dialect).readOptions source = .ok nodes) (state : State) :
    let config := defaultsOf dialect
    let transformed := (transform draws config (resolveSnippets config nodes) state).1
    ∃ delimiters, Delimiters.ofConfig? config = some delimiters ∧
      (Expansion.expand draws config source state).map Prod.fst =
        .ok (render config delimiters transformed) ∧
      (entries 0 transformed).map Entry.element = Node.elementsAll transformed ∧
      ∀ before entry after name, entries 0 transformed = before ++ entry :: after →
        entry.element.name = some name →
        ∃ start header behind,
          StandsIn config delimiters transformed before entry start header behind ∧
          (start = if before.isEmpty then [] else '\n' :: indentation config entry.depth) ∧
          (IsRecognizable delimiters name header ↔ IsShown delimiters name entry.element) ∧
          (IsApart delimiters entry behind ↔ ¬ RunsOn delimiters entry after) := by
  intro config transformed
  obtain ⟨isDialect, writes, delimiters, among, isDelimiters⟩ := writesLines_defaultsOf indents
  refine ⟨delimiters, isDelimiters, ?_, map_element_entries 0 transformed,
    fun before entry after name split named => headers_render writes among split named⟩
  have isMarkup : (defaultsOf dialect).dialect.language = .markup := by
    rw [isDialect]
    simp only [List.mem_cons, List.not_mem_nil, or_false] at indents
    rcases indents with rfl | rfl | rfl <;> rfl
  simp only [Expansion.expand, isMarkup, Expansion.expandMarkup, read, config]
  simp [Expansion.renderMarkup, isDelimiters, transformed, config, bind, Except.bind, pure,
    Except.pure, Except.map]

/-- A name that no built-in snippet has is the name of an element. -/
theorem isOwn_pug {name : String} (unlisted : ∀ entry ∈ BuiltinSnippets.common, name ∉ entry.1) :
    isOwn (defaultsOf .pug) (.named name) := by
  have isDialect : (defaultsOf .pug).dialect = .pug := rfl
  have isTable : Config.builtinSnippets .pug = BuiltinSnippets.commonTable := rfl
  have unknown : BuiltinSnippets.commonTable.get? name = none := by
    rw [Table.get?_eq_none_iff, BuiltinSnippets.commonTable, Table.mem_keys_insertAliases]
    rintro (nothing | ⟨entry, member, isKey⟩)
    · cases nothing
    · exact unlisted entry member isKey
  rw [isOwn, Element.named, Option.bind_some, snippets_defaultsOf, isDialect, isTable, unknown,
    Option.isNone_none]

/-- A text inside of an element runs together with its name. -/
theorem headers_expand_text :
    let config := defaultsOf .pug
    let delimiters := Delimiters.pug .html
    let text : Element := { Element.empty with value := [.text "text"] }
    let nodes : List Node := [.node (.named "p") [.node text []]]
    parse config.readOptions "p>\x7btext\x7d" = .ok nodes ∧
      (Expansion.expand .congruential config "p>\x7btext\x7d" 0).map Prod.fst = .ok "ptext" ∧
      ∃ start header behind,
        StandsIn config delimiters nodes [] ⟨0, .named "p", true⟩ start header behind ∧
        IsRecognizable delimiters "p" header ∧
        ¬ IsApart delimiters ⟨0, .named "p", true⟩ behind := by
  intro config delimiters text nodes
  have read : parse config.readOptions "p>\x7btext\x7d" = .ok nodes := by
    have elements : (parse config.readOptions "p>\x7btext\x7d").toOption.map
        (List.map fun outer => (outer.element,
          outer.children.map fun inner => (inner.element, inner.children.isEmpty))) =
        some [(.named "p", [(text, true)])] := by
      decide +kernel
    cases found : parse config.readOptions "p>\x7btext\x7d" with
    | error failure => simp [found, Except.toOption] at elements
    | ok result =>
      simp only [found, Except.toOption, Option.map_some, Option.some.injEq, List.map_eq_cons_iff,
        List.map_eq_nil_iff, Prod.mk.injEq, List.isEmpty_iff] at elements
      obtain ⟨⟨_, _⟩, _, rfl, ⟨rfl, ⟨_, _⟩, _, rfl, ⟨rfl, rfl⟩, rfl⟩, rfl⟩ := elements
      rfl
  have resolved : resolveSnippets config nodes = nodes := by
    have own : isOwn config (.named "p") := isOwn_pug (by decide +kernel)
    rw [resolveSnippets, resolveNodes_stays (snippet?_own own []),
      resolveNodes_stays (snippet?_own rfl []), resolveNodes]
  have transformed : (transform .congruential config nodes 0).1 = nodes := rfl
  obtain ⟨own, isOwn, written, -, headers⟩ :=
    headers_expand .congruential (by decide) read 0
  obtain rfl : delimiters = own := Option.some.inj isOwn
  rw [resolved, transformed] at written headers
  obtain ⟨start, header, behind, stands, -, shown, apart⟩ := headers [] _ _ "p" rfl rfl
  refine ⟨read, written.trans (congrArg _ (by decide +kernel)), start, header, behind, stands,
    shown.mpr (.inr ⟨.inl (by decide), .inl (by decide)⟩), fun isApart => apart.mp isApart ?_⟩
  exact ⟨by decide, 't', by decide +kernel, by decide, by decide⟩

end Shorthand.Markup.Indented
