import Mathlib.Algebra.GroupWithZero.Nat
import Mathlib.Data.List.Basic
import Shorthand.Output.Writer
import Shorthand.Proofs.Output.Stream

/-!
# How fields are numbered

A writer adds texts and fields behind what has been written. The numbers of a group follow from
the own numbers of its fields and from the base, and every complete group moves the base past its
largest number. So while all numbers are machine words, the groups take their numbers from
intervals that follow one another.
-/

namespace Shorthand

/-- A piece of what is written: a text, or a field with its placeholder. -/
inductive WrittenPiece where
  | text (text : List Char)
  | field (field : WrittenField) (placeholder : String)

namespace WrittenPiece

/-- The characters of a piece. -/
def shown (hook : Nat → String → String) : WrittenPiece → List Char
  | text chars => chars
  | field written placeholder => (hook written.written placeholder).toList

/-- The field that a piece is. -/
def field? : WrittenPiece → Option WrittenField
  | text _ => none
  | field written _ => some written

end WrittenPiece

namespace Writer

/-! ### Numbers of groups -/

/-- One more than the largest number of a group. -/
def reach (numbers : List Nat) : Nat := (numbers.max?.map (· + 1)).getD 0

/-- The fields of a group with the given own numbers. -/
def numbered (base : Nat) (numbers : List Nat) : List WrittenField :=
  numbers.map fun number => ⟨number, (base + number) % Digits.wordLimit⟩

/-- The group that fields with the given own numbers make; no fields make none. -/
def groupOf (numbers : List Nat) : List (List Nat) := if numbers.isEmpty then [] else [numbers]

/-- The base behind a group. -/
def baseBehind (base : Nat) (numbers : List Nat) : Nat := (base + reach numbers) % Digits.wordLimit

/-- Groups one after the other, each numbered from the base that the one before it leaves. -/
def numberedAll (base : Nat) : List (List Nat) → List (List WrittenField)
  | [] => []
  | numbers :: rest => numbered base numbers :: numberedAll (baseBehind base numbers) rest

/-- A number is below the reach of its group. -/
theorem lt_reach {numbers : List Nat} {number : Nat} (member : number ∈ numbers) :
    number < reach numbers := by
  cases largest : numbers.max? with
  | none => simp [List.max?_eq_none_iff.mp largest] at member
  | some most =>
    have bound := (List.max?_eq_some_iff.mp largest).2 number member
    simp only [reach, largest, Option.map_some, Option.getD_some]
    omega

/-- Groups are numbered one after the other, each from the base behind those before it. -/
theorem numberedAll_append (base : Nat) (first second : List (List Nat)) :
    numberedAll base (first ++ second) =
      numberedAll base first ++ numberedAll (first.foldl baseBehind base) second := by
  induction first generalizing base with
  | nil => rfl
  | cons numbers rest ih => simp [numberedAll, ih]

/-- The own numbers of the groups are those they are made of. -/
theorem own_numberedAll (base : Nat) (groups : List (List Nat)) :
    (numberedAll base groups).map (·.map WrittenField.own) = groups := by
  induction groups generalizing base with
  | nil => rfl
  | cons numbers rest ih =>
    rw [numberedAll, List.map_cons, ih, numbered, List.map_map]
    exact congrArg (· :: rest) (List.map_id numbers)

/-- A number that is no larger than a machine word is the sum of the base and the own number. -/
theorem written_numbered {base : Nat} {numbers : List Nat} {field : WrittenField}
    (fits : base + reach numbers < Digits.wordLimit) (member : field ∈ numbered base numbers) :
    field.own ∈ numbers ∧ field.written = base + field.own := by
  obtain ⟨number, inside, rfl⟩ := List.mem_map.mp member
  have below := lt_reach inside
  exact ⟨inside, Nat.mod_eq_of_lt (by omega)⟩

/-- All numbers lie between the base and the sum of the reaches. -/
theorem numberedAll_between {base : Nat} {groups : List (List Nat)}
    (fits : base + (groups.map reach).sum < Digits.wordLimit) :
    ∀ group ∈ numberedAll base groups, ∀ field ∈ group, base ≤ field.written := by
  induction groups generalizing base with
  | nil => simp [numberedAll]
  | cons numbers rest ih =>
    rw [List.map_cons, List.sum_cons] at fits
    have next : baseBehind base numbers = base + reach numbers := Nat.mod_eq_of_lt (by omega)
    intro group member field inside
    rw [numberedAll, List.mem_cons] at member
    rcases member with rfl | later
    · have same := (written_numbered (by omega) inside).2
      omega
    · have above := ih (by omega) group later field inside
      omega

/-- Every number of a group is larger than all numbers of the groups before it. -/
theorem numberedAll_increasing {base : Nat} {groups : List (List Nat)}
    (fits : base + (groups.map reach).sum < Digits.wordLimit) :
    (numberedAll base groups).Pairwise fun earlier later =>
      ∀ first ∈ earlier, ∀ second ∈ later, first.written < second.written := by
  induction groups generalizing base with
  | nil => exact .nil
  | cons numbers rest ih =>
    rw [List.map_cons, List.sum_cons] at fits
    have next : baseBehind base numbers = base + reach numbers := Nat.mod_eq_of_lt (by omega)
    refine .cons ?_ (ih (by omega))
    intro later member first isFirst second isSecond
    have below := written_numbered (by omega) isFirst
    have reached := lt_reach below.1
    have above := numberedAll_between (by omega) later member second isSecond
    omega

/-- Within a group the same numbers stay the same, and different ones stay different. -/
theorem numberedAll_faithful {base : Nat} {groups : List (List Nat)}
    (fits : base + (groups.map reach).sum < Digits.wordLimit) :
    ∀ group ∈ numberedAll base groups, ∀ first ∈ group, ∀ second ∈ group,
      first.written = second.written ↔ first.own = second.own := by
  induction groups generalizing base with
  | nil => simp [numberedAll]
  | cons numbers rest ih =>
    rw [List.map_cons, List.sum_cons] at fits
    have next : baseBehind base numbers = base + reach numbers := Nat.mod_eq_of_lt (by omega)
    intro group member first isFirst second isSecond
    rw [numberedAll, List.mem_cons] at member
    rcases member with rfl | later
    · have left := (written_numbered (by omega) isFirst).2
      have right := (written_numbered (by omega) isSecond).2
      omega
    · exact ih (by omega) group later first isFirst second isSecond

/-- Groups of fields, the earliest first, whose numbers do not collide. -/
structure Apart (groups : List (List WrittenField)) : Prop where
  positive : ∀ group ∈ groups, ∀ field ∈ group, 1 ≤ field.written
  increasing : groups.Pairwise fun earlier later =>
    ∀ first ∈ earlier, ∀ second ∈ later, first.written < second.written
  faithful : ∀ group ∈ groups, ∀ first ∈ group, ∀ second ∈ group,
    first.written = second.written ↔ first.own = second.own

/-- The groups are apart if all of their numbers fit a word. -/
theorem numberedAll_apart {base : Nat} {groups : List (List Nat)} (positive : 1 ≤ base)
    (fits : base + (groups.map reach).sum < Digits.wordLimit) :
    Apart (numberedAll base groups) where
  positive group member field inside :=
    Nat.le_trans positive (numberedAll_between fits group member field inside)
  increasing := numberedAll_increasing fits
  faithful := numberedAll_faithful fits

/-! ### Writing inside a group -/

/-- Pieces were written, whose fields belong to the current group. -/
structure Appends (hook : Nat → String → String) (pieces : List WrittenPiece)
    (before after : Writer) : Prop where
  text : after.stream.value.toList =
    before.stream.value.toList ++ pieces.flatMap (WrittenPiece.shown hook)
  level : after.stream.level = before.stream.level
  base : after.base = before.base
  groups : after.groups = before.groups
  current : after.current = before.current ++ pieces.filterMap WrittenPiece.field?
  numbers : ∀ field ∈ pieces.filterMap WrittenPiece.field?,
    field.written = (before.base + field.own) % Digits.wordLimit

section

variable {hook : Nat → String → String} {pieces more : List WrittenPiece}
  {before middle after : Writer}

/-- Where nothing happens nothing is appended. -/
theorem Appends.refl (hook : Nat → String → String) (writer : Writer) :
    Appends hook [] writer writer where
  text := by simp
  level := rfl
  base := rfl
  groups := rfl
  current := by simp
  numbers := by simp

/-- What is appended twice is appended one behind the other. -/
theorem Appends.trans (first : Appends hook pieces before middle)
    (second : Appends hook more middle after) : Appends hook (pieces ++ more) before after where
  text := by simp [second.text, first.text]
  level := second.level.trans first.level
  base := second.base.trans first.base
  groups := second.groups.trans first.groups
  current := by simp [second.current, first.current]
  numbers := by
    intro field member
    rw [List.filterMap_append, List.mem_append] at member
    rcases member with isFirst | isSecond
    · exact first.numbers field isFirst
    · rw [← first.base]
      exact second.numbers field isSecond

/-- A step of the stream that adds a text is a piece of text. -/
theorem Appends.text_added {change : Stream → Stream} {writer : Writer} {text : List Char}
    (added : (change writer.stream).value.toList = writer.stream.value.toList ++ text)
    (level : (change writer.stream).level = writer.stream.level) :
    Appends hook [.text text] writer (writer.onStream change) where
  text := by simpa [WrittenPiece.shown, onStream] using added
  level := level
  base := rfl
  groups := rfl
  current := by simp [WrittenPiece.field?, onStream]
  numbers := by simp [WrittenPiece.field?]

/-- A field is numbered from the base. -/
theorem pushField_appends (options : OutputOptions) (index : Nat) (placeholder : String)
    (writer : Writer) :
    Appends options.field
      [.field ⟨index, (writer.base + index) % Digits.wordLimit⟩ placeholder] writer
      (writer.pushField options index placeholder) where
  text := by simp [pushField, WrittenPiece.shown]
  level := rfl
  base := rfl
  groups := rfl
  current := rfl
  numbers := by simp [WrittenPiece.field?]

end

/-! ### Writing whole groups -/

/-- Pieces were written, whose fields are complete groups. -/
structure Completes (hook : Nat → String → String) (pieces : List WrittenPiece)
    (groups : List (List Nat)) (before after : Writer) : Prop where
  text : after.stream.value.toList =
    before.stream.value.toList ++ pieces.flatMap (WrittenPiece.shown hook)
  fields : pieces.filterMap WrittenPiece.field? = (numberedAll before.base groups).flatten
  base : after.base = groups.foldl baseBehind before.base
  groups : after.groups = (numberedAll before.base groups).reverse ++ before.groups
  current : after.current = []

section

variable {hook : Nat → String → String} {pieces more : List WrittenPiece}
  {groups others : List (List Nat)} {before middle after : Writer}

/-- Where nothing happens no group is completed. -/
theorem Completes.refl (hook : Nat → String → String) {writer : Writer}
    (outside : writer.current = []) : Completes hook [] [] writer writer where
  text := by simp
  fields := rfl
  base := rfl
  groups := rfl
  current := outside

/-- Texts are no groups. -/
theorem Completes.of_text {change : Stream → Stream} {writer : Writer} {text : List Char}
    (added : (change writer.stream).value.toList = writer.stream.value.toList ++ text)
    (outside : writer.current = []) :
    Completes hook [.text text] [] writer (writer.onStream change) where
  text := by simpa [WrittenPiece.shown, onStream] using added
  fields := rfl
  base := rfl
  groups := rfl
  current := outside

/-- Groups that are completed one after the other stand in this order. -/
theorem Completes.trans (first : Completes hook pieces groups before middle)
    (second : Completes hook more others middle after) :
    Completes hook (pieces ++ more) (groups ++ others) before after where
  text := by simp [second.text, first.text]
  fields := by
    rw [List.filterMap_append, first.fields, second.fields, first.base, ← List.flatten_append,
      ← numberedAll_append]
  base := by rw [second.base, first.base, List.foldl_append]
  groups := by
    rw [second.groups, first.groups, first.base, numberedAll_append, List.reverse_append,
      List.append_assoc]
  current := second.current

/-- The end of a group writes nothing. -/
theorem closeGroup_stream (writer : Writer) : writer.closeGroup.stream = writer.stream := by
  rw [Writer.closeGroup]
  split <;> rfl

/-- The fields written since the last group become a group, if there are any. -/
theorem Appends.closeGroup (appended : Appends hook pieces before after)
    (outside : before.current = []) :
    Completes hook pieces (groupOf ((pieces.filterMap WrittenPiece.field?).map WrittenField.own))
      before after.closeGroup := by
  have current : after.current = pieces.filterMap WrittenPiece.field? := by
    rw [appended.current, outside, List.nil_append]
  rw [← current]
  -- A group without fields leaves the base where it is, and any other one moves it behind the
  -- largest number.
  cases largest : (after.current.map WrittenField.own).max? with
  | none =>
    have empty : after.current = [] := List.map_eq_nil_iff.mp (List.max?_eq_none_iff.mp largest)
    have closed : after.closeGroup = after := by simp only [Writer.closeGroup, largest]
    rw [closed, empty]
    exact ⟨appended.text, current.symm.trans empty, appended.base, appended.groups, empty⟩
  | some number =>
    have filled : groupOf (after.current.map WrittenField.own) =
        [after.current.map WrittenField.own] := by
      refine if_neg fun empty => ?_
      rw [List.isEmpty_iff.mp empty] at largest
      cases largest
    have fields : numbered before.base (after.current.map WrittenField.own) = after.current := by
      rw [numbered, List.map_map]
      refine (List.map_congr_left fun field member => ?_).trans (List.map_id _)
      simp only [id, Function.comp, ← appended.numbers field (current ▸ member)]
    rw [filled]
    constructor
    case text => simpa only [Writer.closeGroup, largest] using appended.text
    case fields =>
      rw [numberedAll, numberedAll, fields, List.flatten_cons, List.flatten_nil, List.append_nil,
        current]
    case base =>
      simp only [Writer.closeGroup, largest, List.foldl_cons, List.foldl_nil, baseBehind, reach,
        Option.map_some, Option.getD_some, appended.base]
    case groups => simp [Writer.closeGroup, largest, numberedAll, fields, appended.groups]
    case current => simp only [Writer.closeGroup, largest]

end

end Writer

end Shorthand
