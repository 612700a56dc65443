import Shorthand.Proofs.Markup.Indented.Entries
import Shorthand.Proofs.Markup.Indented.Lines

/-!
# The first characters of what is written by indentation

Whether texts run together is decided by their first characters. A step of writing adds a text
that begins with a known character, or no text at all, and then the step behind it decides. So the
first character behind any place is that of the first step that writes something.
-/

namespace Shorthand.Markup.Indented

open Output

/-! ### First characters -/

/-- The first character that a part is written with. -/
def partLead : Part → Option Char
  | .text text => text.toList.head?
  | .field _ _ => some '$'

/-- The first character that a value is written with. -/
def valueLead (value : Value) : Option Char := value.findSome? partLead

/-- The first character of a selector; without a value nothing is written. -/
def selectorLead (written : Attribute) : Option Char :=
  written.value.map fun _ => if written.isNamed "class" then '.' else '#'

/-- The first character of the selectors of an element. -/
def selectorsLead (element : Element) : Option Char :=
  (element.attributes.filter isSelector).findSome? selectorLead

/-- The attributes of an element that are written between delimiters. -/
def enclosed (element : Element) : List Attribute :=
  element.attributes.filter fun written =>
    !isSelector written && (!written.isImplied || written.value.isSome)

/-- The first character of the text of an element: several lines stand below a header, and a
single one stands behind it with a blank between them. -/
def textLead (element : Element) : Option Char :=
  let value := if element.value.isEmpty then caret else element.value
  if 2 ≤ (linesOf value).length then some '\n'
  else if element.isBare then valueLead value
  else some ' '

section

variable (delimiters : Delimiters)

/-- The first character of the attributes between delimiters. -/
def enclosedLead (element : Element) : Option Char :=
  if (enclosed element).isEmpty then none else delimiters.beforeAttributes.toList.head?

/-- A header is the name, where it is written, and behind it the selectors and the attributes
between delimiters. -/
def IsHeader (element : Element) (header : List Char) : Prop :=
  ∃ more, header = headerStart delimiters element ++ more ∧
    more.head? = (selectorsLead element).or (enclosedLead delimiters element)

/-- The first character that an element has behind its header. -/
def ownLead (entry : Entry) : Option Char :=
  if entry.closesItself then delimiters.closingMark.toList.head?
  else if entry.element.value.isEmpty && entry.hasChildren then none
  else textLead entry.element

/-- The first character that an element is written with where it is not the first of all. -/
def lead (entry : Entry) : Option Char :=
  if entry.element.isBare then ownLead delimiters entry else some '\n'

end

/-! ### Steps with a first character -/

/-- At a level of indentation, a step of writing only adds text. -/
def Grows (level : Int) (step : Writer → Writer) : Prop := Adds level (fun _ => True) step

/-- At a level of indentation, a step of writing adds a text with the given first character, or
no text. -/
def Leads (level : Int) (first : Option Char) (step : Writer → Writer) : Prop :=
  Adds level (·.head? = first) step

section

variable {level : Int} {first second : Option Char} {step next : Writer → Writer}

/-- A step with a known first character only adds text. -/
theorem Leads.grows (leads : Leads level first step) : Grows level step :=
  leads.mono fun _ _ => trivial

/-- Steps that only add text do so one after the other. -/
theorem Grows.comp (grows : Grows level next) (before : Grows level step) :
    Grows level (next ∘ step) :=
  Adds.comp grows before fun _ _ _ _ => trivial

/-- Where the first step adds nothing, the first character is one of the second step. -/
theorem Leads.comp (leads : Leads level second next) (before : Leads level first step) :
    Leads level (first.or second) (next ∘ step) :=
  Adds.comp leads before fun left right isFirst isSecond => by
    rw [List.head?_append, isFirst, isSecond]

/-- A first character stays the first one. -/
theorem Grows.behind {c : Char} (grows : Grows level next) (before : Leads level (some c) step) :
    Leads level (some c) (next ∘ step) :=
  Adds.comp grows before fun left right isFirst _ => by
    rw [List.head?_append, isFirst, Option.some_or]

/-- A step that does nothing adds no text. -/
theorem Leads.nothing : Leads level none id := Adds.nothing rfl

/-- Of several steps the first one that adds a text gives the first character. -/
theorem Leads.foldl {α : Type} {step : α → Writer → Writer} {items : List α}
    (itemLead : α → Option Char) (each : ∀ item ∈ items, Leads level (itemLead item) (step item)) :
    Leads level (items.findSome? itemLead) fun writer =>
      items.foldl (fun writer item => step item writer) writer :=
  Adds.foldl (fun item text => text.head? = itemLead item)
    (fun items text => text.head? = items.findSome? itemLead) rfl
    (fun item rest left right isItem isRest => by
      rw [List.head?_append, isItem, isRest, List.findSome?_cons]
      cases itemLead item <;> rfl)
    each

end

section

variable {config : Config} (writes : WritesLines config) {level : Int}
include writes

/-! ### Values -/

/-- A text leads with its first character. -/
theorem leads_push (text : String) : Leads level text.toList.head? (push config text) :=
  (adds_push writes text).mono fun _ same => by rw [same]

/-- A field leads with a dollar sign. -/
theorem leads_pushField (index : Nat) (name : String) :
    Leads level (some '$') fun writer => writer.pushField config.options.output index name := by
  intro writer isLevel
  refine ⟨isLevel, _, Stream.toList_pushField config.options.output _ name writer.stream, ?_⟩
  rw [writes.field, defaultField]
  split <;> simp [String.toList_append]

/-- A value leads with its first part that is not empty. -/
theorem leads_pushValue (value : Value) :
    Leads level (valueLead value) (pushValue config value) := by
  have parts : Adds level (·.head? = valueLead value)
      (pushParts config (Stream.push config.options.output) value) := by
    change Leads level (valueLead value) _
    induction value with
    | nil => exact Leads.nothing
    | cons part rest ih =>
      rw [valueLead, List.findSome?_cons]
      cases part with
      | field index name => exact ih.grows.behind (leads_pushField writes index name)
      | text text =>
        have whole : Leads level (text.toList.head?.or (valueLead rest))
            (pushParts config (Stream.push config.options.output) (.text text :: rest)) :=
          ih.comp (leads_push writes text)
        simp only [partLead]
        cases begun : text.toList.head? <;> simpa [begun, valueLead] using whole
  exact adds_closeGroup.comp parts fun _ _ isLead nothing => by simpa [nothing] using isLead

/-! ### Headers -/

/-- A selector leads with its mark. -/
theorem leads_pushSelector (written : Attribute) :
    Leads level (selectorLead written) (pushSelector config written) := by
  obtain ⟨name, value, isBoolean, isImplied, kind, isMultiple⟩ := written
  cases value with
  | none => exact Leads.nothing
  | some value =>
    have point : Leads level (some '.') (push config ".") := leads_push writes "."
    have number : Leads level (some '#') (push config "#") := leads_push writes "#"
    intro writer
    simp only [pushSelector, selectorLead, Option.map_some]
    split
    · exact ((leads_pushValue writes (value.map dotted)).grows.behind point) writer
    · exact ((leads_pushValue writes value).grows.behind number) writer

variable (delimiters : Delimiters)

/-- An attribute only adds text. -/
theorem grows_pushAttribute (written : Attribute) :
    Grows level (pushAttribute config delimiters written) := by
  have named : Grows level (push config (attributeName config (written.name.getD ""))) :=
    (leads_push writes _).grows
  have pushed (text : String) : Grows level (push config text) := (leads_push writes text).grows
  have assigned (value : Value) :=
    (pushed (quotesOf config written).2).comp <|
      (leads_pushValue writes value).grows.comp <|
        (pushed ("=" ++ (quotesOf config written).1)).comp named
  rw [funext (pushAttribute.eq_def config delimiters written)]
  cases written.value with
  | some value => exact assigned value
  | none =>
    exact Adds.ite (fun _ => assigned caret) fun _ =>
      Adds.ite (fun _ => (pushed ("=" ++ delimiters.booleanValue)).comp named) fun _ => named

/-- Attributes with separators only add text. -/
theorem grows_pushSeparated (attributes : List Attribute) :
    Grows level (pushSeparated config delimiters attributes) := by
  match attributes with
  | [] => exact Leads.nothing.grows
  | [last] => exact grows_pushAttribute writes delimiters last
  | first :: second :: rest =>
    exact (grows_pushSeparated (second :: rest)).comp
      ((leads_push writes delimiters.betweenAttributes).grows.comp
        (grows_pushAttribute writes delimiters first))

/-- Attributes lead with the delimiter in front of them. -/
theorem leads_pushAttributes {mark : Char}
    (opening : delimiters.beforeAttributes.toList.head? = some mark) (element : Element) :
    Leads level (enclosedLead delimiters element)
      (pushAttributes config delimiters (enclosed element)) := by
  refine Adds.ite (fun isEmpty => ?_) fun filled => ?_
  · rw [enclosedLead, if_pos isEmpty]
    exact Leads.nothing
  · rw [enclosedLead, if_neg filled, opening]
    have begun : Leads level (some mark) (push config delimiters.beforeAttributes) :=
      opening ▸ leads_push writes delimiters.beforeAttributes
    exact (leads_push writes delimiters.afterAttributes).grows.behind
      ((grows_pushSeparated writes delimiters _).behind begun)

/-- A header adds its name, its selectors and its attributes. -/
theorem adds_header {mark : Char}
    (opening : delimiters.beforeAttributes.toList.head? = some mark) (element : Element) :
    Adds level (IsHeader delimiters element) (pushHeader config delimiters element) := by
  have selectors : Leads level (selectorsLead element) fun writer =>
      (element.attributes.filter isSelector).foldl
        (fun writer written => pushSelector config written writer) writer :=
    .foldl selectorLead fun written _ => leads_pushSelector writes written
  have more := (leads_pushAttributes writes delimiters opening element).comp selectors
  have join (start added : List Char) (isStart : start = headerStart delimiters element)
      (isLead : added.head? = (selectorsLead element).or (enclosedLead delimiters element)) :
      IsHeader delimiters element (start ++ added) :=
    ⟨added, isStart ▸ rfl, isLead⟩
  obtain ⟨name, value, attributes, iteration, isSelfClosing⟩ := element
  cases name with
  | none =>
    have unnamed : Adds level (· = []) id := .nothing rfl
    exact Adds.comp more unnamed join
  | some name =>
    refine Adds.comp more (.ite (fun written => ?_) fun unwritten => ?_) join
    · simp only [headerStart, if_pos written]
      exact adds_push writes (delimiters.beforeName ++ name)
    · simp only [headerStart, if_neg unwritten]
      exact .nothing rfl

/-! ### What stands behind headers -/

/-- A line of several leads with a line break. -/
theorem leads_pushTextLine (depth width : Nat) (line : Value) :
    Leads depth (some '\n') (pushTextLine config delimiters width line) := by
  have begun : Leads depth (some '\n')
      (Writer.onStream (Stream.pushLine config.options.output)) :=
    (adds_pushLine writes depth).mono fun _ same => by rw [same, List.head?_cons]
  have written := (leads_pushValue writes line).grows.behind
    ((leads_push writes delimiters.beforeTextLine).grows.behind begun)
  exact Adds.ite (fun _ => written) fun _ =>
    (leads_push writes delimiters.afterTextLine).grows.behind
      ((leads_push writes _).grows.behind written)

/-- The text of an element begins a line or follows a blank, unless it is no one's own. -/
theorem leads_pushText {depth : Nat} (element : Element) (hasChildren : Bool) :
    Leads depth (if element.value.isEmpty && hasChildren then none else textLead element)
      (pushText config delimiters element hasChildren) := by
  refine Adds.ite (fun isEmpty => ?_) fun filled => ?_
  · rw [if_pos isEmpty]
    exact Leads.nothing
  rw [if_neg filled, textLead]
  generalize (if element.value.isEmpty then caret else element.value) = value
  dsimp only
  have single : Leads depth (if element.isBare then valueLead value else some ' ') fun writer =>
      pushValue config value (if element.isBare then writer else push config " " writer) := by
    intro writer
    split
    · exact leads_pushValue writes value writer
    · exact (leads_pushValue writes value).grows.behind (leads_push writes " ") writer
  match lines : linesOf value with
  | [] => exact single
  | [line] => exact single
  | line :: second :: rest =>
    rw [if_pos (by simp)]
    have below (width : Nat) (other : Value) :
        Leads (depth + 1) (some '\n') (pushTextLine config delimiters width other) :=
      leads_pushTextLine writes delimiters (depth + 1) width other
    have all (width : Nat) : Adds ((depth : Int) + 1) (·.head? = some '\n') fun writer =>
        (line :: second :: rest).foldl
          (fun writer line => pushTextLine config delimiters width line writer) writer :=
      Leads.foldl (fun _ => some '\n') fun other _ => below width other
    exact (all _).shifted

/-- An element leads behind its header with its own text. -/
theorem leads_pushOwn (entry : Entry) :
    Leads entry.depth (ownLead delimiters entry) (pushOwn config delimiters entry) := by
  refine Adds.ite (fun closes => ?_) fun stays => ?_
  · rw [ownLead, if_pos closes]
    exact leads_push writes delimiters.closingMark
  · rw [ownLead, if_neg stays]
    exact leads_pushText writes delimiters entry.element entry.hasChildren

/-! ### Elements -/

/-- Where an element is not the first of all, its line is begun behind a line break. -/
theorem adds_place (isFirst : Bool) (entry : Entry) :
    Adds entry.depth (· = if !isFirst && !entry.element.isBare then
        '\n' :: indentation config entry.depth else []) (place config isFirst entry) := by
  refine Adds.ite (fun begins => ?_) fun stays => ?_
  · rw [if_pos begins]
    exact adds_pushLine writes entry.depth
  · rw [if_neg stays]
    exact .nothing rfl

variable {delimiters} {mark : Char}
  (opening : delimiters.beforeAttributes.toList.head? = some mark)
include opening

omit writes opening in
/-- What an element adds at its depth, it adds to a writer that is back at the left margin. -/
theorem adds_pushEntry {isFirst : Bool} {entry : Entry} {kind : List Char → Prop}
    (inside : Adds entry.depth kind (pushOwn config delimiters entry ∘
      pushHeader config delimiters entry.element ∘ place config isFirst entry)) :
    Adds 0 kind (pushEntry config delimiters isFirst entry) := by
  rw [← Int.zero_add (entry.depth : Int)] at inside
  exact inside.shifted

/-- An element only adds text. -/
theorem grows_pushEntry (isFirst : Bool) (entry : Entry) :
    Grows 0 (pushEntry config delimiters isFirst entry) := by
  have placed : Grows entry.depth (place config isFirst entry) :=
    (adds_place writes isFirst entry).mono fun _ _ => trivial
  have headed : Grows entry.depth (pushHeader config delimiters entry.element) :=
    (adds_header writes delimiters opening entry.element).mono fun _ _ => trivial
  have inside := (leads_pushOwn writes delimiters entry).grows.comp (headed.comp placed)
  exact adds_pushEntry inside

/-- Elements only add text. -/
theorem grows_pushEntries (isFirst : Bool) (before : List Entry) :
    Grows 0 (pushEntries config delimiters isFirst before) := by
  induction before generalizing isFirst with
  | nil => exact Leads.nothing.grows
  | cons entry rest ih => exact (ih false).comp (grows_pushEntry writes opening isFirst entry)

/-- Text that is no one's own is written as it is, and every other element begins a line. -/
theorem leads_pushEntry (entry : Entry) :
    Leads 0 (lead delimiters entry) (pushEntry config delimiters false entry) := by
  have own := leads_pushOwn writes delimiters entry
  have placed := adds_place writes false entry
  have inside : Leads entry.depth (lead delimiters entry)
      (pushOwn config delimiters entry ∘ pushHeader config delimiters entry.element ∘
        place config false entry) := by
    rw [lead]
    split
    case isTrue isBare =>
      obtain ⟨unnamed, plain⟩ := Bool.and_eq_true_iff.mp isBare
      have nothing : Leads entry.depth none (pushHeader config delimiters entry.element) := by
        refine (adds_header writes delimiters opening entry.element).mono ?_
        rintro _ ⟨more, rfl, isLead⟩
        simpa [headerStart, selectorsLead, enclosedLead, enclosed, List.isEmpty_iff.mp plain,
          Option.isNone_iff_eq_none.mp unnamed] using isLead
      have stays : Leads entry.depth none (place config false entry) :=
        placed.mono fun _ same => by rw [same, isBare]; rfl
      exact own.comp (nothing.comp stays)
    case isFalse filled =>
      have begun : Leads entry.depth (some '\n') (place config false entry) :=
        placed.mono fun _ same => by rw [same, Bool.eq_false_iff.mpr filled]; rfl
      have grows : Grows entry.depth (pushHeader config delimiters entry.element) :=
        (adds_header writes delimiters opening entry.element).mono fun _ _ => trivial
      exact own.grows.behind (grows.behind begun)
  exact adds_pushEntry inside

/-- Elements lead with the first one that leads with anything. -/
theorem leads_pushEntries (after : List Entry) :
    Leads 0 (after.findSome? (lead delimiters)) (pushEntries config delimiters false after) := by
  induction after with
  | nil => exact Leads.nothing
  | cons entry rest ih =>
    have whole : Leads 0 ((lead delimiters entry).or (rest.findSome? (lead delimiters)))
        (pushEntries config delimiters false (entry :: rest)) :=
      ih.comp (leads_pushEntry writes opening entry)
    rw [List.findSome?_cons]
    cases isLead : lead delimiters entry <;> simpa [isLead] using whole

end

end Shorthand.Markup.Indented
