import Shorthand.Proofs.Output.Numbering
import Shorthand.Proofs.Text.Lines

/-!
# Steps of writing that begin lines

A step of writing goes on in the current line and then begins the lines of what it writes. Steps
at one level of indentation are put together as their texts are, so that the lines that all of
them begin are known without looking at the text between the line breaks.
-/

namespace Shorthand.Output

open Text (IsUnbroken isUnbroken_append)

/-! ### Texts that begin lines -/

/-- A text goes on in the current line and then begins a line with each of the beginnings. -/
inductive BeginsLines : List (List Char) → List Char → Prop where
  | none {text : List Char} (unbroken : IsUnbroken text) : BeginsLines [] text
  | line {text start more : List Char} {starts : List (List Char)} (unbroken : IsUnbroken text)
      (unbrokenStart : IsUnbroken start) (others : BeginsLines starts more) :
      BeginsLines (start :: starts) (text ++ '\n' :: (start ++ more))

namespace BeginsLines

/-- Behind an unbroken text the same lines begin. -/
theorem after {starts : List (List Char)} {text more : List Char} (unbroken : IsUnbroken text)
    (begins : BeginsLines starts more) : BeginsLines starts (text ++ more) := by
  cases begins with
  | none goesOn => exact .none (isUnbroken_append.mpr ⟨unbroken, goesOn⟩)
  | line goesOn unbrokenStart others =>
    rw [← List.append_assoc]
    exact .line (isUnbroken_append.mpr ⟨unbroken, goesOn⟩) unbrokenStart others

/-- Texts one behind the other begin their lines one after the other. -/
theorem append {starts others : List (List Char)} {text more : List Char}
    (begins : BeginsLines starts text) (behind : BeginsLines others more) :
    BeginsLines (starts ++ others) (text ++ more) := by
  induction begins with
  | none unbroken => exact behind.after unbroken
  | line unbroken unbrokenStart _ ih =>
    have whole := line unbroken unbrokenStart ih
    simpa using whole

/-- The lines of a text are the current one and one for each beginning. -/
theorem linesOf {starts : List (List Char)} {text : List Char} (begins : BeginsLines starts text) :
    ∃ current lines, Text.linesOf text = current :: lines ∧
      List.Forall₂ (· <+: ·) starts lines := by
  induction begins with
  | none unbroken => exact ⟨_, [], Text.linesOf_unbroken unbroken, .nil⟩
  | line unbroken unbrokenStart _ ih =>
    obtain ⟨current, lines, split, fit⟩ := ih
    rw [Text.linesOf_lineFeed unbroken, Text.linesOf_append unbrokenStart split]
    exact ⟨_, _, rfl, .cons (List.prefix_append _ current) fit⟩

end BeginsLines

/-- A text that begins with a beginning and goes on in the same line. -/
def Opens (start text : List Char) : Prop := ∃ more, IsUnbroken more ∧ text = start ++ more

/-- A line goes on with an unbroken text. -/
theorem Opens.append {start text more : List Char} (opens : Opens start text)
    (unbroken : IsUnbroken more) : Opens start (text ++ more) := by
  obtain ⟨behind, goesOn, rfl⟩ := opens
  exact ⟨behind ++ more, isUnbroken_append.mpr ⟨goesOn, unbroken⟩, List.append_assoc _ _ _⟩

/-- An unbroken text opens with nothing in particular. -/
theorem Opens.nothing {text : List Char} (unbroken : IsUnbroken text) : Opens [] text :=
  ⟨text, unbroken, rfl⟩

/-- A line that begins unbroken is unbroken. -/
theorem Opens.unbroken {start text : List Char} (opens : Opens start text)
    (unbroken : IsUnbroken start) : IsUnbroken text := by
  obtain ⟨more, goesOn, rfl⟩ := opens
  exact isUnbroken_append.mpr ⟨unbroken, goesOn⟩

/-- A line break and an indentation in front make a beginning one of a line. -/
theorem Opens.beginsLine {start text before : List Char} (opens : Opens start text)
    (unbrokenBefore : IsUnbroken before) (unbroken : IsUnbroken start) :
    BeginsLines [before ++ start] ('\n' :: before ++ text) := by
  obtain ⟨more, goesOn, rfl⟩ := opens
  have whole := BeginsLines.line Text.isUnbroken_nil
    (isUnbroken_append.mpr ⟨unbrokenBefore, unbroken⟩) (.none goesOn)
  simpa using whole

/-- What is written inside of the line of an element: its header first, and then lines below. -/
def Heads (start : List Char) (starts : List (List Char)) (text : List Char) : Prop :=
  ∃ head more, Opens start head ∧ BeginsLines starts more ∧ text = head ++ more

/-- Behind the header of an element its lines go on. -/
theorem Heads.append {start text more : List Char} {starts others : List (List Char)}
    (heads : Heads start starts text) (begins : BeginsLines others more) :
    Heads start (starts ++ others) (text ++ more) := by
  obtain ⟨head, below, opens, beginsBelow, rfl⟩ := heads
  exact ⟨head, below ++ more, opens, beginsBelow.append begins, List.append_assoc _ _ _⟩

/-- The lines of an element are its own and the ones below. -/
theorem Heads.linesOf {start text : List Char} {starts : List (List Char)}
    (heads : Heads start starts text) (unbroken : IsUnbroken start) :
    List.Forall₂ (· <+: ·) (start :: starts) (Text.linesOf text) := by
  obtain ⟨head, below, opens, begins, rfl⟩ := heads
  obtain ⟨current, lines, split, fit⟩ := begins.linesOf
  rw [Text.linesOf_append (opens.unbroken unbroken) split]
  obtain ⟨more, -, rfl⟩ := opens
  exact .cons ((List.prefix_append start more).trans (List.prefix_append _ current)) fit

/-! ### Steps at a level -/

/-- At a level of indentation, a step of writing adds a text of some kind, and the level stays. -/
def Adds (level : Int) (kind : List Char → Prop) (step : Writer → Writer) : Prop :=
  ∀ writer, writer.stream.level = level → (step writer).stream.level = level ∧
    ∃ added, (step writer).stream.value.toList = writer.stream.value.toList ++ added ∧ kind added

section

variable {level : Int} {step next : Writer → Writer}

/-- Steps one after the other add their texts one behind the other. -/
theorem Adds.comp {first second both : List Char → Prop} (adds : Adds level second next)
    (before : Adds level first step)
    (join : ∀ left right, first left → second right → both (left ++ right)) :
    Adds level both (next ∘ step) := by
  intro writer isLevel
  obtain ⟨sameLevel, left, addedLeft, isFirst⟩ := before writer isLevel
  obtain ⟨stillLevel, right, addedRight, isSecond⟩ := adds (step writer) sameLevel
  refine ⟨stillLevel, left ++ right, ?_, join left right isFirst isSecond⟩
  rw [Function.comp_apply, addedRight, addedLeft, List.append_assoc]

/-- A step that adds a text of some kind adds one of every weaker kind. -/
theorem Adds.mono {kind weaker : List Char → Prop} (adds : Adds level kind step)
    (weaken : ∀ added, kind added → weaker added) : Adds level weaker step := by
  intro writer isLevel
  obtain ⟨sameLevel, added, same, isKind⟩ := adds writer isLevel
  exact ⟨sameLevel, added, same, weaken added isKind⟩

/-- A step that does nothing adds an empty text. -/
theorem Adds.nothing {kind : List Char → Prop} (empty : kind []) : Adds level kind id :=
  fun _ isLevel => ⟨isLevel, [], (List.append_nil _).symm, empty⟩

/-- A choice between two steps. -/
theorem Adds.ite {kind : List Char → Prop} {condition : Prop} [Decidable condition]
    (yes : condition → Adds level kind step) (no : ¬ condition → Adds level kind next) :
    Adds level kind fun writer => if condition then step writer else next writer := by
  intro writer
  by_cases holds : condition
  · simpa only [if_pos holds] using yes holds writer
  · simpa only [if_neg holds] using no holds writer

/-- Unbroken texts one behind the other are unbroken. -/
theorem Adds.unbroken (adds : Adds level IsUnbroken next) (before : Adds level IsUnbroken step) :
    Adds level IsUnbroken (next ∘ step) :=
  adds.comp before fun _ _ left right => isUnbroken_append.mpr ⟨left, right⟩

/-- A step that goes on in the current line leaves what the text begins with. -/
theorem Adds.opens {start : List Char} (adds : Adds level IsUnbroken next)
    (before : Adds level (Opens start) step) : Adds level (Opens start) (next ∘ step) :=
  adds.comp before fun _ _ => Opens.append

/-- A step that goes on in the current line begins no line. -/
theorem Adds.goesOn {starts : List (List Char)} (adds : Adds level IsUnbroken next)
    (before : Adds level (BeginsLines starts) step) :
    Adds level (BeginsLines starts) (next ∘ step) :=
  adds.comp before fun _ _ begins unbroken => by simpa using begins.append (.none unbroken)

/-- A step in another level, from which the writer comes back. -/
theorem Adds.shifted {kind : List Char → Prop} {change : Int}
    (adds : Adds (level + change) kind step) :
    Adds level kind (Writer.shift (-change) ∘ step ∘ Writer.shift change) := by
  intro writer isLevel
  have shifted : (writer.shift change).stream.level = level + change := by
    rw [← isLevel]
    rfl
  obtain ⟨sameLevel, added, same, isKind⟩ := adds (writer.shift change) shifted
  refine ⟨?_, added, same, isKind⟩
  have back : ((Writer.shift (-change) ∘ step ∘ Writer.shift change) writer).stream.level =
      (step (writer.shift change)).stream.level + -change := rfl
  rw [back, sameLevel, Int.add_neg_cancel_right]

/-- Steps for items, one after the other. -/
theorem Adds.foldl {α : Type} {step : α → Writer → Writer} {items : List α}
    (kind : α → List Char → Prop) (all : List α → List Char → Prop) (empty : all [] [])
    (join : ∀ item rest left right, kind item left → all rest right →
      all (item :: rest) (left ++ right))
    (each : ∀ item ∈ items, Adds level (kind item) (step item)) :
    Adds level (all items) fun writer =>
      items.foldl (fun writer item => step item writer) writer := by
  induction items with
  | nil => exact .nothing empty
  | cons item rest ih =>
    have one := each item List.mem_cons_self
    have others := ih fun other member => each other (List.mem_cons_of_mem _ member)
    exact others.comp one (join item rest)

/-- Steps for several items begin the lines of each of them. -/
theorem Adds.foldl_beginsLines {α : Type} {starts : α → List (List Char)}
    {step : α → Writer → Writer} {items : List α}
    (each : ∀ item ∈ items, Adds level (BeginsLines (starts item)) (step item)) :
    Adds level (BeginsLines (items.flatMap starts)) fun writer =>
      items.foldl (fun writer item => step item writer) writer :=
  .foldl (BeginsLines <| starts ·) (BeginsLines <| ·.flatMap starts) (.none Text.isUnbroken_nil)
    (fun _ _ _ _ => BeginsLines.append) each

/-- Steps that stay on a line do so one after the other. -/
theorem Adds.foldl_unbroken {α : Type} {step : α → Writer → Writer} {items : List α}
    (each : ∀ item ∈ items, Adds level IsUnbroken (step item)) :
    Adds level IsUnbroken fun writer =>
      items.foldl (fun writer item => step item writer) writer :=
  .foldl (fun _ => IsUnbroken) (fun _ => IsUnbroken) Text.isUnbroken_nil
    (fun _ _ _ _ left right => isUnbroken_append.mpr ⟨left, right⟩) each

/-- The end of a group writes nothing. -/
theorem adds_closeGroup : Adds level (· = []) Writer.closeGroup := by
  intro writer isLevel
  rw [Writer.closeGroup_stream]
  exact ⟨isLevel, [], (List.append_nil _).symm, rfl⟩

end

end Shorthand.Output
