import Shorthand.Proofs.Markup.Likeness
import Shorthand.Proofs.Markup.NumberWidths
import Shorthand.Proofs.Markup.RepeatNumbers.Items
import Shorthand.Proofs.Markup.RepeatStack
import Shorthand.Proofs.Markup.Wrapping

/-!
# Numbers of copies

Dollar signs stand for the number of a copy, counted from a base. Behind a dash it is counted
from the last copy, and each caret looks one repeat further up: the numbers then go on from the
earlier copies there. `repeat_numbers` says that the copies of an item are numbered
consecutively, also over all lists that repeat it, as long as a number can have as many digits
as there are dollar signs, and what unrolling does to the stack of repeats meanwhile.
-/

namespace Shorthand.Markup

/-! ### The numbers of copies -/

/-- How far a copy stands from the end that its repeat is counted from. -/
def Iteration.distance (iteration : Iteration) (isReverse : Bool) : Nat :=
  if isReverse then iteration.count - iteration.index - 1 else iteration.index

/-- A copy is less far from either end than there are copies. -/
theorem Iteration.distance_lt {iteration : Iteration} (inRange : iteration.index < iteration.count)
    (isReverse : Bool) : iteration.distance isReverse < iteration.count := by
  unfold distance
  split <;> omega

/-- A sum that fits a word is not cut. -/
theorem addSaturating_eq {left right : Nat} (fits : left + right < Digits.wordLimit) :
    Digits.addSaturating left right = left + right :=
  Nat.min_eq_left (Nat.le_sub_one_of_lt fits)

/-- A product that fits a word is not cut. -/
theorem mulSaturating_eq {left right : Nat} (fits : left * right < Digits.wordLimit) :
    Digits.mulSaturating left right = left * right :=
  Nat.min_eq_left (Nat.le_sub_one_of_lt fits)

/-- Without a caret only the nearest repeat counts. -/
theorem copyNumber_nearest (nearest : Iteration) (outer : List Iteration) (isReverse : Bool)
    {base : Nat} (fits : base + nearest.distance isReverse < Digits.wordLimit) :
    copyNumber (nearest :: outer) isReverse base 0 = base + nearest.distance isReverse := by
  have number := addSaturating_eq fits
  simp only [copyNumber, if_true]
  split <;> exact number

/-- With a caret the copies of the repeat above come first, each with all of its own. -/
theorem copyNumber_above (nearest above : Iteration) (isReverse : Bool) {base : Nat}
    (fits : base + nearest.distance isReverse + nearest.count * above.index < Digits.wordLimit) :
    copyNumber [nearest, above] isReverse base 1 =
      base + nearest.distance isReverse + nearest.count * above.index := by
  have same : copyNumber [nearest, above] isReverse base 1 =
      Digits.addSaturating (Digits.addSaturating base (nearest.distance isReverse))
        (Digits.mulSaturating nearest.count above.index) := rfl
  have near := Nat.lt_of_le_of_lt (Nat.le_add_right _ _) fits
  have scaled := Nat.lt_of_le_of_lt (Nat.le_add_left _ _) fits
  rw [same, addSaturating_eq near, mulSaturating_eq scaled, addSaturating_eq fits]

/-! ### Numbered nodes -/

/-- The text of a numbered class: the number has at least `size` digits. -/
def numberedClass (size number : Nat) : String :=
  String.ofList ('x' :: (Nat.toDigits 10 number).leftpad size '0')

/-- The class of an item is its letter and its number, padded. -/
theorem numberedClass_eq (size number : Nat) :
    "x" ++ padded size number = numberedClass size number := by
  rw [← String.toList_inj]
  simp [padded, numberedClass, List.leftpad]

/-- A class is one text. -/
theorem textValue_numberedClass (size number : Nat) :
    textValue (numberedClass size number) = [.text (numberedClass size number)] :=
  if_neg (by simp [numberedClass])

/-- The class of an item inside of repeats. -/
def NumberMark.label (mark : NumberMark) (enclosing : List Iteration) : String :=
  numberedClass mark.size (copyNumber enclosing mark.isReverse mark.base mark.parent)

/-- An item with a class, as one of its copies. -/
def labelledItem (label : String) (iteration : Iteration) : Element :=
  { Element.named "li" with
    attributes := [Attribute.named "class" (some [.text label])]
    iteration := some iteration }

/-- A numbered item inside of repeats. -/
def NumberMark.item (mark : NumberMark) (nearest : Iteration) (outer : List Iteration) : Node :=
  .node (labelledItem (mark.label (nearest :: outer)) nearest) []

/-- A literal and a number in the place of a class are a numbered class. -/
theorem attributeOfTokens_numbered (options : ReadOptions) (mark : NumberMark)
    (enclosing : List Iteration) {label number : Token} (isLabel : label.kind = .literal "x")
    (isNumber : number.kind = mark.kind) (progress : Progress) :
    attributeOfTokens options enclosing
        ⟨some [impliedLiteral "class"], some [label, number], false, false⟩ progress =
      (Attribute.named "class" (some [.text (mark.label enclosing)]), progress) := by
  have letters : ∀ c ∈ "class".toList, CharClass.letter c := List.all_eq_true.mp (by decide)
  have name : tokensText options enclosing [impliedLiteral "class"] progress =
      ("class", progress) := tokensText_literal options enclosing rfl progress
  have shownLabel : tokenText options enclosing label progress = ("x", progress) := by
    rw [tokenText, isLabel]
  have shownNumber : tokenText options enclosing number progress = (padded mark.size
      (copyNumber enclosing mark.isReverse mark.base mark.parent), progress) := by
    rw [tokenText, isNumber]
    rfl
  have value : tokensValue options enclosing (textValue "") [label, number] progress =
      ([.text (mark.label enclosing)], progress) := by
    rw [tokensValue_text shownLabel (by simp [isLabel]),
      tokensValue_text shownNumber (by simp [isNumber, NumberMark.kind]), tokensValue,
      String.empty_append, numberedClass_eq, textValue_numberedClass, NumberMark.label]
  rw [show textValue "" = [] from rfl] at value
  have unquoted : unquote .raw [label, number] = (.raw, [label, number]) := by
    simp [unquote, isLabel]
  simp [attributeOfTokens, name, splitMarks_letters letters, unquoted, value, Attribute.named]

/-- A copy of the numbered items is an item with its number. -/
theorem IsItem.unrolls (options : ReadOptions) {mark : NumberMark} {count : CopyCount} {head : Head}
    (isItem : IsItem mark count head) (nearest : Iteration) (outer : List Iteration) :
    Unrolls (elementCopy options head (nearest :: outer) (some nearest)
      (unrollAll options (nearest :: outer) [])) [mark.item nearest outer] := by
  intro progress unbounded
  obtain ⟨name, attributes, value, repetition, isSelfClosing⟩ := head
  obtain ⟨isName, ⟨label, number, isLabel, isNumber, rfl⟩, rfl, -, rfl⟩ := isItem
  simp only [Option.map_eq_some_iff] at isName
  obtain ⟨nameTokens, rfl, isName⟩ := isName
  have readName := tokensText_literal options (nearest :: outer) isName progress
  have readClass := attributeOfTokens_numbered options mark (nearest :: outer) isLabel isNumber
    progress
  simp only [elementCopy, readName, Option.getD_none, tokensValue, unrollAll, Option.getD_some,
    attributesOfTokens, readClass, Element.isBare, Option.isNone_some, Bool.false_and,
    Bool.false_eq_true, if_false, unbounded, and_true]
  rfl

/-- The copies of an element that are single nodes follow one another. -/
theorem unrollAll_counted (options : ReadOptions) {head : Head} {children : List Statement}
    {count : CopyCount} (counted : head.repetition = some count.repetition)
    (outer : List Iteration) {node : Iteration → Node}
    (one : ∀ nearest, Unrolls (elementCopy options head (nearest :: outer) (some nearest)
      (unrollAll options (nearest :: outer) children)) [node nearest]) :
    Unrolls (unrollAll options outer [.element head children])
      ((List.range count.value).map fun index => node ⟨count.value, index, false⟩) := by
  have copied : Unrolls (copies options outer (some count.repetition) fun around iteration =>
      elementCopy options head around iteration (unrollAll options around children))
        ((List.range count.value).flatMap fun index => [node ⟨count.value, index, false⟩]) :=
    copies_counted options count outer fun index => one ⟨count.value, index, false⟩
  rw [← counted, ← List.map_eq_flatMap] at copied
  intro progress unbounded
  obtain ⟨nodes, stays⟩ := copied progress unbounded
  exact ⟨(List.append_nil _).trans nodes, stays⟩

/-- The items of a repeat inside of others. -/
def NumberMark.items (mark : NumberMark) (count : CopyCount) (outer : List Iteration) :
    List Node :=
  (List.range count.value).map fun index => mark.item ⟨count.value, index, false⟩ outer

/-- Numbered items are unrolled one after the other. -/
theorem IsItem.unrollAll_items (options : ReadOptions) {mark : NumberMark} {count : CopyCount}
    {head : Head} (isItem : IsItem mark count head) (outer : List Iteration) :
    Unrolls (unrollAll options outer [.element head []]) (mark.items count outer) :=
  unrollAll_counted options isItem.repetition outer fun nearest =>
    isItem.unrolls options nearest outer

/-- A list of numbered items, as one of its copies. -/
def NumberMark.list (mark : NumberMark) (count : CopyCount) (iteration : Iteration) : Node :=
  .node { Element.named "ul" with iteration := some iteration } (mark.items count [iteration])

/-- Lists of numbered items are unrolled one after the other. -/
theorem IsItem.unrollAll_lists (options : ReadOptions) {mark : NumberMark} {count : CopyCount}
    {head : Head} (isItem : IsItem mark count head) (lists : CopyCount) {list : Token}
    (isList : list.kind = .literal "ul") :
    Unrolls (unrollAll options [] [.element ⟨some [list], none, none, some lists.repetition, false⟩
        [.element head []]])
      ((List.range lists.value).map fun index => mark.list count ⟨lists.value, index, false⟩) := by
  refine unrollAll_counted options rfl [] fun iteration progress unbounded => ?_
  obtain ⟨below, stays⟩ := isItem.unrollAll_items options [iteration] progress unbounded
  have single : [list].map Token.kind = [.literal "ul"] := by rw [List.map_singleton, isList]
  have readName := tokensText_literal options [iteration] single progress
  simp only [elementCopy, readName, Option.getD_none, tokensValue, attributesOfTokens, below,
    Element.isBare, Option.isNone_some, Bool.false_and, Bool.false_eq_true, if_false, stays,
    and_true]
  rfl

/-! ### Classes in document order -/

/-- The class of an element as plain text. -/
def Element.className? (element : Element) : Option String :=
  ((element.attribute? "class").bind Attribute.value).map Value.plain

/-- The classes of the items of some trees, in document order. -/
def itemClasses (nodes : List Node) : List (Option String) :=
  ((Node.elementsAll nodes).filter fun element => element.name == some "li").map
    Element.className?

/-- The classes of items are those of each node and of its children. -/
theorem itemClasses_cons (element : Element) (children rest : List Node) :
    itemClasses (.node element children :: rest) =
      (if element.name = some "li" then [element.className?] else []) ++
        (itemClasses children ++ itemClasses rest) := by
  by_cases isItem : element.name = some "li" <;> simp [itemClasses, isItem]

/-- The classes of items are read off names and attributes. -/
theorem itemClasses_alike {top : Element → Element → Prop} {left right : List Node}
    (alike : Node.Alike Element.SameBesidesText top left right)
    (tops : ∀ l r, top l r → l.SameBesidesText r) :
    itemClasses left = itemClasses right := by
  induction alike with
  | nil => rfl
  | @cons _ first second _ _ _ _ roots _ _ children_ih rest_ih =>
    obtain ⟨sameName, sameAttributes⟩ := tops _ _ roots
    rw [itemClasses_cons, itemClasses_cons, children_ih fun _ _ => id, rest_ih tops, sameName]
    by_cases isItem : second.name = some "li"
    · have same := sameAttributes (by simp [sameName, isItem])
      simp [isItem, Element.className?, Element.attribute?, same]
    · simp [isItem]

/-- The classes of the items below each of some trees. -/
def listClasses (nodes : List Node) : List (List (Option String)) :=
  nodes.map fun list => itemClasses list.children

/-- Nodes that differ in their texts alone have the same lists. -/
theorem listClasses_alike {top : Element → Element → Prop} {left right : List Node}
    (alike : Node.Alike Element.SameBesidesText top left right) :
    listClasses left = listClasses right := by
  induction alike with
  | nil => rfl
  | cons _ children _ _ rest_ih =>
    exact List.cons_eq_cons.mpr ⟨itemClasses_alike children fun _ _ => id, rest_ih⟩

/-- The class of a labelled item is its label. -/
theorem className?_labelledItem (label : String) (iteration : Iteration) :
    (labelledItem label iteration).className? = some label := by
  have named : (Attribute.named "class" (some [.text label])).isNamed "class" = true := by
    simp [Attribute.isNamed, Attribute.named, LetterCase.sameIgnoringAsciiCase]
  have first : (labelledItem label iteration).attribute? "class" =
      some (Attribute.named "class" (some [.text label])) := List.find?_cons_of_pos named
  simp [Element.className?, first, Attribute.named, Value.plain, Part.shown, String.join]

/-- A labelled item is one item with its label. -/
theorem itemClasses_labelledItem (label : String) (iteration : Iteration) (rest : List Node) :
    itemClasses (.node (labelledItem label iteration) [] :: rest) =
      some label :: itemClasses rest := by
  have isItem : (labelledItem label iteration).name = some "li" := rfl
  rw [itemClasses_cons, if_pos isItem, className?_labelledItem]
  rfl

/-- The classes of numbered items are those that their numbers give them. -/
theorem itemClasses_items (mark : NumberMark) (count : CopyCount) (outer : List Iteration) :
    itemClasses (mark.items count outer) = (List.range count.value).map fun index =>
      some (mark.label (⟨count.value, index, false⟩ :: outer)) := by
  unfold NumberMark.items
  induction List.range count.value with
  | nil => rfl
  | cons index indices ih =>
    rw [List.map_cons, List.map_cons, NumberMark.item, itemClasses_labelledItem, ih]

/-- The classes of the items below each of some lists of them. -/
theorem listClasses_lists (mark : NumberMark) (count : CopyCount) (lists : Nat) :
    listClasses ((List.range lists).map fun index => mark.list count ⟨lists, index, false⟩) =
      (List.range lists).map fun above => (List.range count.value).map fun index =>
        some (mark.label [⟨count.value, index, false⟩, ⟨lists, above, false⟩]) := by
  rw [listClasses, List.map_map]
  exact List.map_congr_left fun above _ => itemClasses_items mark count [⟨lists, above, false⟩]

/-- Where no item stands at the first level, all of them stand below. -/
theorem itemClasses_eq_flatten {nodes : List Node}
    (others : ∀ node ∈ nodes, node.element.name ≠ some "li") :
    itemClasses nodes = (listClasses nodes).flatten := by
  induction nodes with
  | nil => rfl
  | cons first rest ih =>
    obtain ⟨element, children⟩ := first
    obtain ⟨other, othersBehind⟩ := List.forall_mem_cons.mp others
    have notItem : element.name ≠ some "li" := other
    rw [itemClasses_cons, if_neg notItem, ih othersBehind]
    rfl

/-! ### Consecutive numbers -/

/-- Values in the order of counting up, or in reverse. -/
def inOrder {α : Type} (isReverse : Bool) (values : List α) : List α :=
  if isReverse then values.reverse else values

/-- Counting from the last copy gives the numbers in reverse. -/
theorem map_distance {α : Type} (count : Nat) (isReverse : Bool) (value : Nat → α) :
    ((List.range count).map fun index =>
      value (Iteration.distance ⟨count, index, false⟩ isReverse)) =
        inOrder isReverse ((List.range count).map value) := by
  cases isReverse with
  | false => rfl
  | true =>
    refine List.ext_getElem (by simp [inOrder]) fun index inside _ => ?_
    simp [inOrder, Iteration.distance, List.getElem_reverse, Nat.sub_right_comm]

/-- Numbers that go on from block to block are consecutive. -/
theorem flatten_blocks {α : Type} (blocks size : Nat) (value : Nat → α) :
    ((List.range blocks).map fun block =>
      (List.range size).map fun index => value (block * size + index)).flatten =
        (List.range (blocks * size)).map value := by
  induction blocks with
  | zero => simp
  | succ blocks ih =>
    rw [List.range_succ, List.map_append, List.flatten_append, ih, Nat.succ_mul, List.range_add,
      List.map_append, List.map_map]
    simp

/-- The classes of the items of one repeat. -/
theorem labels_nearest (mark : NumberMark) (noCaret : mark.parent = 0) {count : Nat}
    (fits : mark.base + count ≤ Digits.wordLimit) :
    ((List.range count).map fun index => some (mark.label [⟨count, index, false⟩])) =
      inOrder mark.isReverse
        ((List.range count).map fun index =>
          some (numberedClass mark.size (mark.base + index))) := by
  rw [← map_distance count mark.isReverse]
  refine List.map_congr_left fun index member => ?_
  have inside : Iteration.distance ⟨count, index, false⟩ mark.isReverse < count :=
    Iteration.distance_lt (List.mem_range.mp member) mark.isReverse
  rw [NumberMark.label, noCaret, copyNumber_nearest _ _ _ (by omega)]

/-- The classes of the items of a repeat inside of another one. -/
theorem labels_above (mark : NumberMark) (caret : mark.parent = 1) {lists count above : Nat}
    (inside : above < lists) (fits : mark.base + lists * count ≤ Digits.wordLimit) :
    ((List.range count).map fun index =>
        some (mark.label [⟨count, index, false⟩, ⟨lists, above, false⟩])) =
      inOrder mark.isReverse ((List.range count).map fun index =>
        some (numberedClass mark.size (mark.base + (above * count + index)))) := by
  rw [← map_distance count mark.isReverse]
  refine List.map_congr_left fun index member => ?_
  have near : Iteration.distance ⟨count, index, false⟩ mark.isReverse < count :=
    Iteration.distance_lt (List.mem_range.mp member) mark.isReverse
  have blocks : (above + 1) * count ≤ lists * count := Nat.mul_le_mul_right count inside
  rw [Nat.succ_mul, Nat.mul_comm above] at blocks
  have bounded : mark.base + Iteration.distance ⟨count, index, false⟩ mark.isReverse +
      count * above < Digits.wordLimit := by omega
  rw [NumberMark.label, caret, copyNumber_above _ _ _ bounded, Nat.add_assoc,
    Nat.add_comm (Iteration.distance _ _), Nat.mul_comm count]

/-! ### The numbers that are read -/

/-- The abbreviation of items that are numbered from a base, with marks in front of it. -/
def itemsText (dollars base count : Nat) (marks : String) : String :=
  "li.x" ++ String.ofList (List.replicate dollars '$') ++ marks ++ toString base ++ "*" ++
    toString count

/-- The source of a list is printed as an item with its mark and its count. -/
theorem itemsText_eq (mark : NumberMark) (count : CopyCount) {marks : String}
    (same : marks.toList =
      '@' :: (List.replicate mark.parent '^' ++ if mark.isReverse then ['-'] else [])) :
    itemsText mark.size mark.base count.value marks =
      String.ofList (printItems mark count) := by
  rw [← String.toList_inj]
  simp [itemsText, printItems, NumberMark.print, NumberMark.printBase, printCount, same]

/-! ### Numbers that can be written -/

/-- A source is read, and its nodes have a property, if numbers of some size can be written. If
they cannot, the program stops. -/
structure ReadsNumbered (options : ReadOptions) (size : Nat) (source : String)
    (property : List Node → Prop) : Prop where
  written : size ≤ digitLimit → ∃ result, parse options source = .ok result ∧ property result
  tooWide : digitLimit < size → parse options source = .error .crash

/-- Statements with a number of the size are all that the property has to be looked at for. -/
theorem ReadsNumbered.of_statements {options : ReadOptions} {size : Nat} {source : String}
    {property : List Node → Prop} {found : List Statement}
    (read : statements options.jsx source = .ok found)
    (wide : hasWideNumber found ↔ digitLimit < size)
    (holds : property (nodesOfStatements options found)) :
    ReadsNumbered options size source property where
  written := by
    intro fits
    refine ⟨_, ?_, holds⟩
    rw [parse, read]
    exact if_neg fun isWide => Nat.not_lt.mpr fits (wide.mp isWide)
  tooWide := by
    intro isWide
    rw [parse, read]
    exact if_pos (wide.mpr isWide)

/-- What is read has every property that its nodes imply. -/
theorem ReadsNumbered.imp {options : ReadOptions} {size : Nat} {source : String}
    {property other : List Node → Prop} (reads : ReadsNumbered options size source property)
    (implies : ∀ result, property result → other result) :
    ReadsNumbered options size source other where
  written := by
    intro fits
    obtain ⟨result, read, holds⟩ := reads.written fits
    exact ⟨result, read, implies result holds⟩
  tooWide := reads.tooWide

/-- The only number of an item is that of its class. -/
theorem IsItem.exists_wide_iff {mark : NumberMark} {count : CopyCount} {head : Head}
    (isItem : IsItem mark count head) :
    (∃ token ∈ head.tokens, token.kind.isTooWide) ↔ digitLimit < mark.size := by
  obtain ⟨name, attributes, value, repetition, isSelfClosing⟩ := head
  obtain ⟨isName, ⟨label, number, isLabel, isNumber, rfl⟩, rfl, -, -⟩ := isItem
  simp only [Option.map_eq_some_iff, List.map_eq_singleton_iff] at isName
  obtain ⟨_, rfl, own, rfl, isOwn⟩ := isName
  simp [Head.tokens, AttributeTokens.tokens, impliedLiteral, isOwn, isLabel, isNumber,
    NumberMark.kind, Token.Kind.isTooWide]

section Read

variable (options : ReadOptions) (unbounded : options.maxRepeat = none)
include unbounded

/-- Numbered items are read as items with their numbers. -/
theorem reads_items (mark : NumberMark) (count : CopyCount) :
    ReadsNumbered options mark.size (String.ofList (printItems mark count)) fun result =>
      itemClasses result = (List.range count.value).map fun index =>
        some (mark.label [⟨count.value, index, false⟩]) := by
  obtain ⟨head, isItem, found⟩ := statements_items options.jsx mark count
  have alike := nodesOfStatements_alike options [.element head []]
  rw [(isItem.unrollAll_items options [] _ unbounded).1] at alike
  refine .of_statements found ?_ ?_
  · rw [← isItem.exists_wide_iff]
    simp [hasWideNumber, headsAll, Statement.heads]
  · rw [← itemClasses_alike alike fun _ _ => id, itemClasses_items]

/-- Lists of numbered items are read as lists of items with their numbers. -/
theorem reads_lists (lists : CopyCount) (mark : NumberMark) (count : CopyCount) :
    ReadsNumbered options mark.size (String.ofList (printLists lists mark count)) fun result =>
      itemClasses result = (listClasses result).flatten ∧
      listClasses result = (List.range lists.value).map fun above =>
        (List.range count.value).map fun index =>
          some (mark.label [⟨count.value, index, false⟩, ⟨lists.value, above, false⟩]) := by
  obtain ⟨list, head, isItem, isList, found⟩ := statements_lists options.jsx lists mark count
  have alike := nodesOfStatements_alike options
    [.element ⟨some [list], none, none, some lists.repetition, false⟩ [.element head []]]
  rw [(isItem.unrollAll_lists options lists isList _ unbounded).1] at alike
  refine .of_statements found ?_ ⟨?_, ?_⟩
  · have noNumber : list.kind.isTooWide = false := by rw [isList]; rfl
    have listTokens :
        (⟨some [list], none, none, some lists.repetition, false⟩ : Head).tokens = [list] := rfl
    rw [← isItem.exists_wide_iff]
    simp [hasWideNumber, headsAll, Statement.heads, listTokens, noNumber]
  · rw [← itemClasses_alike alike fun _ _ => id, ← listClasses_alike alike]
    refine itemClasses_eq_flatten fun node member => ?_
    obtain ⟨above, -, rfl⟩ := List.mem_map.mp member
    simp [NumberMark.list, Node.element, Element.named]
  · rw [← listClasses_alike alike, listClasses_lists]

/-- The items of one repeat have consecutive numbers, in reverse behind a dash. -/
theorem reads_itemsText {dollars base count : Nat} (someDollars : 0 < dollars)
    (someItems : 0 < count) (bounded : base + count < Digits.wordLimit) (isReverse : Bool)
    (marks : String) (same : marks.toList = '@' :: if isReverse then ['-'] else []) :
    ReadsNumbered options dollars (itemsText dollars base count marks) fun result =>
      itemClasses result = inOrder isReverse
        ((List.range count).map fun index => some (numberedClass dollars (base + index))) := by
  let mark : NumberMark := ⟨dollars, isReverse, 0, base, someDollars, by omega⟩
  let items : CopyCount := ⟨count, someItems, by omega⟩
  have reads := reads_items options unbounded mark items
  rw [← itemsText_eq mark items same] at reads
  exact reads.imp fun result classes =>
    classes.trans (labels_nearest mark rfl (Nat.le_of_lt bounded))

/-- The items of a repeat inside of another one go on from those of its earlier copies, in reverse
behind a dash. -/
theorem reads_listsText {dollars base lists count : Nat} (someDollars : 0 < dollars)
    (someLists : 0 < lists) (someItems : 0 < count)
    (bounded : base + lists * count < Digits.wordLimit) (isReverse : Bool) (marks : String)
    (same : marks.toList = '@' :: '^' :: if isReverse then ['-'] else []) :
    let source := "ul*" ++ toString lists ++ ">" ++ itemsText dollars base count marks
    ReadsNumbered options dollars source fun result =>
      itemClasses result = (listClasses result).flatten ∧
      listClasses result = (List.range lists).map fun above => inOrder isReverse
        ((List.range count).map fun index =>
          some (numberedClass dollars (base + (above * count + index)))) := by
  intro source
  have itemsLeft : count ≤ lists * count := Nat.le_mul_of_pos_left count someLists
  have listsLeft : lists ≤ lists * count := Nat.le_mul_of_pos_right lists someItems
  let mark : NumberMark := ⟨dollars, isReverse, 1, base, someDollars, by omega⟩
  let items : CopyCount := ⟨count, someItems, by omega⟩
  let outer : CopyCount := ⟨lists, someLists, by omega⟩
  have reads := reads_lists options unbounded outer mark items
  have written : source = String.ofList (printLists outer mark items) := by
    rw [← String.toList_inj]
    simp [source, itemsText_eq mark items same, mark, items, outer, printLists, printCount]
  rw [← written] at reads
  refine reads.imp fun result ⟨flat, classes⟩ => ⟨flat, classes.trans ?_⟩
  exact List.map_congr_left fun above member =>
    labels_above mark rfl (List.mem_range.mp member) (Nat.le_of_lt bounded)

end Read

/-- Copies are numbered consecutively from the base, over all lists that repeat them, and in
reverse behind a dash, if a number can have as many digits as there are dollar signs. With more
dollar signs the program stops. With the repeats on a stack, statements are unrolled to the same
nodes and leave the stack as they found it, no repeat on it is ever out of range, and a number is
too wide exactly if one that is unrolled is. -/
theorem repeat_numbers (options : ReadOptions) (unbounded : options.maxRepeat = none)
    {m n s b : Nat} (someLists : 0 < m) (someItems : 0 < n) (someDollars : 0 < s)
    (bounded : b + m * n < Digits.wordLimit) :
    let items (marks : String) :=
      "li.x" ++ String.ofList (List.replicate s '$') ++ marks ++ toString b ++ "*" ++ toString n
    let lists (marks : String) := "ul*" ++ toString m ++ ">" ++ items marks
    let numbered (number : Nat) := some (numberedClass s number)
    (s ≤ digitLimit →
      (∃ result, parse options (items "@") = .ok result ∧
        itemClasses result = (List.range n).map fun index => numbered (b + index)) ∧
      (∃ result, parse options (items "@-") = .ok result ∧
        itemClasses result = ((List.range n).map fun index => numbered (b + index)).reverse) ∧
      (∃ result, parse options (lists "@^") = .ok result ∧
        itemClasses result = (List.range (m * n)).map fun index => numbered (b + index)) ∧
      (∃ result, parse options (lists "@^-") = .ok result ∧
        itemClasses result = (listClasses result).flatten ∧
        listClasses result = (List.range m).map fun above =>
          ((List.range n).map fun index => numbered (b + (above * n + index))).reverse)) ∧
    (digitLimit < s →
      ∀ source ∈ [items "@", items "@-", lists "@^", lists "@^-"],
        parse options source = .error .crash) ∧
    (∀ (any : ReadOptions) (statement : Statement),
      RepeatStack.Restores (RepeatStack.unroll any statement)
        fun repeats => unroll any repeats statement) ∧
    ∀ (any : ReadOptions) (found : List Statement),
      let run := RepeatStack.unrollAll any found (.start any)
      (run.1, run.2.progress) = unrollAll any [] found (.start any.maxRepeat) ∧
        run.2.repeats = [] ∧ (∀ passed ∈ run.2.seen, RepeatStack.InRange passed) ∧
        (hasWideNumber found ↔ ∃ token ∈ run.2.unrolled, token.kind.isTooWide) := by
  intro items lists numbered
  have single : b + n < Digits.wordLimit :=
    Nat.lt_of_le_of_lt (Nat.add_le_add_left (Nat.le_mul_of_pos_left n someLists) b) bounded
  -- All four sources are cases of two lemmas, one for a list of items and one for several lists.
  have counted := reads_itemsText options unbounded someDollars someItems single
  have nested := reads_listsText options unbounded someDollars someLists someItems bounded
  have upwards := counted false "@" rfl
  have backwards := counted true "@-" rfl
  have further := nested false "@^" rfl
  have furtherBackwards := nested true "@^-" rfl
  refine ⟨fun fits => ?_, fun isWide => ?_, RepeatStack.unroll_restores, fun any found => ?_⟩
  · refine ⟨upwards.written fits, backwards.written fits, ?_, furtherBackwards.written fits⟩
    obtain ⟨result, read, flat, classes⟩ := further.written fits
    refine ⟨result, read, ?_⟩
    rw [flat, classes]
    exact flatten_blocks m n fun number => numbered (b + number)
  · simp only [List.forall_mem_cons]
    exact ⟨upwards.tooWide isWide, backwards.tooWide isWide, further.tooWide isWide,
      furtherBackwards.tooWide isWide, List.forall_mem_nil _⟩
  · obtain ⟨same, restored, inRange⟩ := RepeatStack.unrollAll_start any found
    exact ⟨same, restored, inRange, RepeatStack.hasWideNumber_iff_unrolled any found⟩

/-- Two lists of two items are numbered from nine on, backwards in each of them. With one dollar
sign more than a number can have digits, the program stops. -/
theorem repeat_numbers_backwards :
    let options : ReadOptions := ⟨false, true, none, .empty, none⟩
    (∃ result, parse options "ul*2>li.x$$@^-9*2" = .ok result ∧
      listClasses result = [[some "x10", some "x09"], [some "x12", some "x11"]]) ∧
    parse options ("li.x" ++ String.ofList (List.replicate 65536 '$') ++ "@1*1") =
      .error .crash := by
  intro options
  obtain ⟨fitting, -⟩ := repeat_numbers options rfl (m := 2) (n := 2) (s := 2) (b := 9)
    (by decide) (by decide) (by decide) (by decide)
  obtain ⟨-, -, -, result, read, -, classes⟩ := fitting (by decide)
  refine ⟨⟨result, read, ?_⟩, ?_⟩
  · rw [classes]
    decide +kernel
  · obtain ⟨-, stops, -⟩ := repeat_numbers options rfl (m := 1) (n := 1) (s := 65536) (b := 1)
      (by decide) (by decide) (by decide) (by decide)
    have stopped := stops (Nat.lt_succ_self digitLimit) _ List.mem_cons_self
    have written : "@" ++ (toString 1 ++ ("*" ++ toString 1)) = "@1*1" := by decide
    rw [← written]
    simpa only [String.append_assoc] using stopped

end Shorthand.Markup
