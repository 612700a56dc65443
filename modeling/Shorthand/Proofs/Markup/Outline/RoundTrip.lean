import Shorthand.Proofs.Markup.Budget.Meter
import Shorthand.Proofs.Markup.Outline.Statements

/-!
# Written outlines stand for their nodes

The statements of a written outline are unrolled copy by copy. All repeats are counted, so
without a bound on the copies the progress of unrolling decides nothing, which `Unrolls` says
once for all stages. `nodes_printAll` puts the three stages together: reading an
abbreviation that outlines are written as gives the nodes the outlines stand for.
-/

namespace Shorthand.Markup

/-- A step of unrolling gives the same nodes whenever the copies are unbounded, and leaves
them unbounded. -/
def Unrolls (run : Progress → List Node × Progress) (nodes : List Node) : Prop :=
  ∀ progress, progress.budget = none →
    (run progress).1 = nodes ∧ (run progress).2.budget = none

/-! ### Tokens of an element -/

/-- A single literal is its text. -/
theorem tokensText_literal (options : ReadOptions) (enclosing : List Iteration)
    {tokens : List Token} {text : String} (same : tokens.map Token.kind = [.literal text])
    (progress : Progress) : tokensText options enclosing tokens progress = (text, progress) := by
  simp only [List.map_eq_cons_iff, List.map_eq_nil_iff] at same
  obtain ⟨token, _, rfl, isLiteral, rfl⟩ := same
  simp [tokensText, tokenText, isLiteral]

/-- The literal of a text is the whole value. -/
theorem tokensValue_literalKinds (options : ReadOptions) (enclosing : List Iteration)
    {tokens : List Token} {text : String} (same : tokens.map Token.kind = literalKinds text)
    (progress : Progress) :
    tokensValue options enclosing [] tokens progress = (textValue text, progress) := by
  rw [literalKinds] at same
  rw [textValue]
  split at same
  case isTrue empty =>
    rw [List.map_eq_nil_iff] at same
    simp [same, tokensValue, empty]
  case isFalse filled =>
    simp only [List.map_eq_cons_iff, List.map_eq_nil_iff] at same
    obtain ⟨token, _, rfl, isLiteral, rfl⟩ := same
    have written : text ≠ "" := fun empty => filled (empty ▸ rfl)
    simp [tokensValue, tokenText, isLiteral, written, filled, Value.pushText, Value.push]

/-- A name of letters carries no marks. -/
theorem splitMarks_letters {name : String} (letters : ∀ c ∈ name.toList, CharClass.letter c) :
    splitMarks name = (name, false, false) := by
  have noBang : Text.afterStart? "!" name = none := by
    refine if_neg fun isPrefix => ?_
    have member : '!' ∈ name.toList := by
      rw [List.isPrefixOf_iff_prefix] at isPrefix
      exact isPrefix.subset (List.mem_singleton_self _)
    exact absurd (letters '!' member) (by decide)
  have noDot : Text.beforeEnd? "." name = none := by
    refine if_neg fun isSuffix => ?_
    have member : '.' ∈ name.toList := by
      rw [List.isSuffixOf_iff_suffix] at isSuffix
      exact isSuffix.subset (List.mem_singleton_self _)
    exact absurd (letters '.' member) (by decide)
  simp [splitMarks, noBang, noDot]

/-- The quotes around a value are taken off. -/
theorem unquote_quoted {opening closing : Token} (kind : ValueKind) (value : List Token)
    (opens : opening.kind = .quote false) (closes : closing.kind = .quote false) :
    unquote kind (opening :: (value ++ [closing])) = (.doubleQuoted, value) := by
  simp [unquote, opens, dropLastIf, closes]

/-- A name and a value in double quotes mean an attribute of that name and value. -/
theorem attributeOfTokens_assigned {options : ReadOptions} {enclosing : List Iteration}
    {nameTokens inner : List Token} {name : String} {value : Value} {opening closing : Token}
    {progress : Progress} (sameName : nameTokens.map Token.kind = [.literal name])
    (letters : ∀ c ∈ name.toList, CharClass.letter c) (opens : opening.kind = .quote false)
    (closes : closing.kind = .quote false)
    (readValue : tokensValue options enclosing [] inner progress = (value, progress)) :
    attributeOfTokens options enclosing
        ⟨some nameTokens, some (opening :: (inner ++ [closing])), false, false⟩ progress =
      ({ Attribute.named name (some value) with kind := .doubleQuoted }, progress) := by
  have readName := tokensText_literal options enclosing sameName progress
  simp [attributeOfTokens, readName, splitMarks_letters letters,
    unquote_quoted _ inner opens closes, readValue, Attribute.named]

/-- An attribute is what its tokens mean. -/
theorem attributeOfTokens_readAs (options : ReadOptions) (enclosing : List Iteration)
    {written : OutlineAttribute} {found : AttributeTokens} (readAs : written.ReadAs found)
    (progress : Progress) :
    attributeOfTokens options enclosing found progress = (written.meant, progress) := by
  obtain ⟨name, value, isExpression, isMultiple⟩ := found
  obtain ⟨sameName, sameValue, raw, single⟩ := readAs
  simp only [Option.map_eq_some_iff] at sameName sameValue
  obtain ⟨nameTokens, rfl, sameName⟩ := sameName
  obtain ⟨valueTokens, rfl, sameValue⟩ := sameValue
  simp only [List.map_eq_cons_iff, List.map_eq_append_iff, List.map_eq_nil_iff] at sameValue
  obtain ⟨opening, _, rfl, opens, inner, _, rfl, sameInner, closing, _, rfl, closes, rfl⟩ :=
    sameValue
  simp only at raw single
  subst raw single
  exact attributeOfTokens_assigned sameName written.letters opens closes
    (tokensValue_literalKinds options enclosing sameInner progress)

/-- Attributes are what their tokens mean. -/
theorem attributesOfTokens_readAs (options : ReadOptions) (enclosing : List Iteration)
    {attributes : List OutlineAttribute} {found : List AttributeTokens}
    (readAs : List.Forall₂ OutlineAttribute.ReadAs attributes found) (progress : Progress) :
    attributesOfTokens options enclosing found progress =
      (attributes.map OutlineAttribute.meant, progress) := by
  induction readAs with
  | nil => rfl
  | cons first _ ih =>
    simp [attributesOfTokens, attributeOfTokens_readAs options enclosing first, ih]

/-! ### Copies -/

/-- A written count asks for as many copies. -/
theorem copyCount_repetition (options : ReadOptions) (count : CopyCount) :
    copyCount options count.repetition = count.value := by
  simp only [copyCount, CopyCount.repetition, Bool.false_eq_true, if_false]
  exact Nat.max_eq_right count.positive

/-- The copy of a group is noted on its nodes. -/
theorem markIteration_eq (iteration : Option Iteration) (nodes : List Node) :
    markIteration iteration nodes = nodes.map (noteCopy iteration) := by
  refine List.map_congr_left fun node _ => ?_
  obtain ⟨⟨name, value, attributes, own, isSelfClosing⟩, children⟩ := node
  cases own <;> rfl

/-- Outside of copies nothing is noted. -/
theorem noteCopy_none (node : Node) : noteCopy none node = node := by
  obtain ⟨⟨name, value, attributes, own, isSelfClosing⟩, children⟩ := node
  cases own <;> rfl

/-- Where nothing is repeated no node is marked. -/
theorem markIteration_none (nodes : List Node) : markIteration none nodes = nodes := by
  rw [markIteration_eq]
  exact List.map_id'' noteCopy_none nodes

section Copies

variable (options : ReadOptions)

/-- The copies of a counted repeat that are left follow one another, each with its number. -/
theorem copiesFrom_unrolls {iteration : Iteration} (counted : iteration.isImplicit = false)
    {copy : Iteration → Progress → List Node × Progress} {nodes : Nat → List Node}
    (one : ∀ index, Unrolls (copy { iteration with index }) (nodes index)) {remaining : Nat}
    (left : remaining ≤ iteration.count) :
    Unrolls (copiesFrom options iteration copy remaining)
      ((List.range' (iteration.count - remaining) remaining).flatMap nodes) := by
  induction remaining with
  | zero => exact fun progress unbounded => ⟨rfl, unbounded⟩
  | succ remaining ih =>
    intro progress unbounded
    obtain ⟨first, firstUnbounded⟩ := one (iteration.count - (remaining + 1)) progress unbounded
    have numbers : iteration.count - (remaining + 1) + 1 = iteration.count - remaining := by omega
    have passes (nodes : List Node) (progress : Progress) :
        fillCopy options { iteration with index := iteration.count - (remaining + 1) } nodes
          progress = (nodes, progress) :=
      fillCopy_passes options nodes fun implicit => absurd (counted.symm.trans implicit) (by simp)
    have spendUnbounded : (copy { iteration with index := iteration.count - (remaining + 1) }
        progress).2.spend.budget = none := by
      simp [Progress.spend, firstUnbounded]
    obtain ⟨others, othersUnbounded⟩ := ih (by omega) _ spendUnbounded
    have unspent : (copy { iteration with index := iteration.count - (remaining + 1) }
        progress).2.spend.isSpent = false := by
      simp [Progress.isSpent, spendUnbounded]
    simp only [copiesFrom, passes, unspent, Bool.false_eq_true, if_false, first, others,
      othersUnbounded, List.range'_succ, numbers, List.flatMap_cons, and_self]

/-- A counted repeat makes as many copies as it says, each inside of the repeat with its
number. -/
theorem copies_counted (count : CopyCount) (enclosing : List Iteration)
    {copy : List Iteration → Option Iteration → Progress → List Node × Progress}
    {nodes : Nat → List Node}
    (one : ∀ index, Unrolls (copy (⟨count.value, index, false⟩ :: enclosing)
      (some ⟨count.value, index, false⟩)) (nodes index)) :
    Unrolls (copies options enclosing (some count.repetition) copy)
      ((List.range count.value).flatMap nodes) := by
  intro progress unbounded
  have all : Unrolls
      (copiesFrom options ⟨count.value, 0, false⟩
        (fun iteration => copy (iteration :: enclosing) (some iteration)) count.value)
      ((List.range' (count.value - count.value) count.value).flatMap nodes) :=
    copiesFrom_unrolls options rfl one (Nat.le_refl count.value)
  rw [Nat.sub_self, ← List.range_eq_range'] at all
  have explicit : count.repetition.isImplicit = false := rfl
  simpa only [copies, copyCount_repetition, explicit, Bool.false_eq_true, if_false]
    using all progress unbounded

/-- A statement is unrolled to its copies. -/
theorem copies_unrolls (count : Option CopyCount) (enclosing : List Iteration)
    {copy : List Iteration → Option Iteration → Progress → List Node × Progress}
    {nodes : Option Iteration → List Node}
    (one : ∀ around iteration, Unrolls (copy around iteration) (nodes iteration)) :
    Unrolls (copies options enclosing (count.map CopyCount.repetition) copy)
      (copied count nodes) := by
  cases count with
  | none => exact one enclosing none
  | some count => exact copies_counted options count enclosing fun index => one _ _

end Copies

/-- One copy of an element is the element that is meant, over its children. -/
theorem elementCopy_unrolls (options : ReadOptions) {head : OutlineHead} {found : Head}
    (readAs : head.ReadAs found) (enclosing : List Iteration) (iteration : Option Iteration)
    {children : Progress → List Node × Progress} {below : List Node}
    (unrolled : Unrolls children below) :
    Unrolls (elementCopy options found enclosing iteration children)
      [.node (head.meant iteration) below] := by
  intro progress unbounded
  obtain ⟨childNodes, childrenUnbounded⟩ := unrolled progress unbounded
  obtain ⟨name, attributes, value, repetition, isSelfClosing⟩ := found
  obtain ⟨sameName, readAttributes, sameValue, _, notClosing⟩ := readAs
  simp only [Option.map_eq_some_iff] at sameName
  obtain ⟨nameTokens, rfl, sameName⟩ := sameName
  have readName := tokensText_literal options enclosing sameName progress
  have readValue : tokensValue options enclosing [] (value.getD []) progress =
      (textValue (head.text.getD ""), progress) := by
    cases value with
    | none =>
      have textless : head.text = none := by simpa using sameValue.symm
      simp [tokensValue, textless, textValue]
    | some tokens =>
      obtain ⟨text, isText, sameText⟩ := Option.map_eq_some_iff.mp sameValue.symm
      rw [isText]
      exact tokensValue_literalKinds options enclosing sameText.symm progress
  have readMore := attributesOfTokens_readAs options enclosing readAttributes
    (children progress).2
  simp only at notClosing
  subst notClosing
  simp only [elementCopy, readName, readValue, readMore, Element.isBare, Option.isNone_some,
    Bool.false_and, Bool.false_eq_true, if_false, childNodes, childrenUnbounded, and_true]
  rfl

/-! ### Statements -/

/-- The brackets around an element add nothing. -/
theorem encloseStatement_unrolls (options : ReadOptions) (outline : Outline)
    (enclosing : List Iteration) {found : Statement} {nodes : List Node}
    (unrolled : Unrolls (unroll options enclosing found) nodes) :
    Unrolls (unroll options enclosing (outline.encloseStatement found)) nodes := by
  cases outline with
  | element _ _ =>
    intro progress unbounded
    obtain ⟨same, stays⟩ := unrolled progress unbounded
    simp only [Outline.encloseStatement, unroll, copies, unrollAll, List.append_nil,
      markIteration_none, same, stays, and_self]
  | group _ _ => exact unrolled

mutual

/-- The statement of an outline is unrolled to the nodes it stands for. -/
theorem Outline.ReadAs.unrolls (options : ReadOptions) (outline : Outline)
    {statement : Statement} (readAs : outline.ReadAs statement) (enclosing : List Iteration) :
    Unrolls (unroll options enclosing statement) outline.nodes := by
  cases outline with
  | element head children =>
    rw [Outline.ReadAs] at readAs
    obtain ⟨found, statements, rfl, headReadAs, childrenReadAs⟩ := readAs
    have unrolled := copies_unrolls options head.count enclosing fun around iteration =>
      elementCopy_unrolls options headReadAs around iteration
        (ReadAllAs.unrolls options children childrenReadAs around)
    rw [← headReadAs.repetition] at unrolled
    exact unrolled
  | group members count =>
    rw [Outline.ReadAs] at readAs
    obtain ⟨statements, rfl, membersReadAs⟩ := readAs
    have one : ∀ around iteration, Unrolls
        (fun progress =>
          let (nodes, progress) := unrollAll options around statements progress
          (markIteration iteration nodes, progress))
        ((forest members).map (noteCopy iteration)) := by
      intro around iteration progress unbounded
      obtain ⟨nodes, stays⟩ :=
        ReadAllAs.unrolls options members membersReadAs around progress unbounded
      exact ⟨by simp only [nodes, markIteration_eq], stays⟩
    exact copies_unrolls options count enclosing one

/-- The statements of outlines are unrolled to the nodes they stand for. -/
theorem ReadAllAs.unrolls (options : ReadOptions) (outlines : List Outline)
    {statements : List Statement} (readAs : ReadAllAs outlines statements)
    (enclosing : List Iteration) :
    Unrolls (unrollAll options enclosing statements) (forest outlines) := by
  cases outlines with
  | nil =>
    rw [ReadAllAs] at readAs
    subst readAs
    exact fun progress unbounded => ⟨rfl, unbounded⟩
  | cons first rest =>
    rw [ReadAllAs] at readAs
    obtain ⟨found, others, rfl, firstReadAs, restReadAs⟩ := readAs
    intro progress unbounded
    have one := encloseStatement_unrolls options first enclosing
      (Outline.ReadAs.unrolls options first firstReadAs enclosing)
    obtain ⟨nodes, stays⟩ := one progress unbounded
    obtain ⟨more, moreStays⟩ := ReadAllAs.unrolls options rest restReadAs enclosing _ stays
    exact ⟨by simp only [unrollAll, forest, nodes, more], moreStays⟩

end

/-- Reading what outlines are written as gives the nodes they stand for. -/
theorem nodes_printAll (linkAddresses : Bool) (variableTexts : Table) (outlines : List Outline) :
    nodes { jsx := false, linkAddresses, text := none, variableTexts, maxRepeat := none }
      (printAll outlines) = .ok (forest outlines) := by
  obtain ⟨found, readAs, read⟩ := statements_printAll outlines
  have unrolled : Unrolls
      (unrollAll { jsx := false, linkAddresses, text := none, variableTexts, maxRepeat := none } []
        found) (forest outlines) := ReadAllAs.unrolls _ outlines readAs []
  have same := (unrolled (.start none) rfl).1
  simp [nodes, read, nodesOfStatements, same, bind, Except.bind, pure, Except.pure]

end Shorthand.Markup
