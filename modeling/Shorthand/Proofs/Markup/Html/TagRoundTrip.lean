import Mathlib.Tactic.SplitIfs
import Shorthand.Proofs.Markup.Html.Tags
import Shorthand.Proofs.Output.Stream

/-!
# The tree is read back from its tags

A piece of the output spells tags if reading it gives these tags in front of those of what
follows. Every step of writing adds a text that spells the tags of what it writes: values and
line breaks spell none, and an element spells its own tags around those of its children,
wherever these are written.
-/

namespace Shorthand.Markup.Html

/-! ### Characters of names -/

/-- The characters of a name are ASCII, and stay without angle brackets in any case. -/
theorem ascii_of_isTagNameChar {c : Char} (named : isTagNameChar c) : c.toNat < 128 := by
  simp only [isTagNameChar, CharClass.letter, CharClass.digit, Bool.or_eq_true, Bool.and_eq_true,
    decide_eq_true_eq, beq_iff_eq, Char.le_def, UInt32.le_iff_toNat_le] at named
  rcases named with (((⟨_, upper⟩ | ⟨_, upper⟩) | ⟨_, upper⟩) | rfl) | rfl
  · exact Nat.lt_of_le_of_lt upper (by decide)
  · exact Nat.lt_of_le_of_lt upper (by decide)
  · exact Nat.lt_of_le_of_lt upper (by decide)
  · decide
  · decide

/-- A character of a name is one in either case. -/
theorem isTagNameChar_cases {c : Char} (named : isTagNameChar c) :
    isTagNameChar c.toLower ∧ isTagNameChar c.toUpper := by
  have all : ∀ number < 128, isTagNameChar (Char.ofNat number) →
      isTagNameChar (Char.ofNat number).toLower ∧ isTagNameChar (Char.ofNat number).toUpper := by
    decide +kernel
  have same := Char.ofNat_toNat c
  rw [← same] at named ⊢
  exact all c.toNat (ascii_of_isTagNameChar (same ▸ named)) named

/-- A character that names cannot hold is none of a name. -/
theorem ne_of_isTagNameChar {c other : Char} (named : isTagNameChar c)
    (unnamed : isTagNameChar other = false) : c ≠ other := by
  rintro rfl
  rw [unnamed] at named
  cases named

/-! ### Texts without angle brackets -/

/-- The empty text is free. -/
theorem IsFree.nil : IsFree [] := ⟨List.not_mem_nil, List.not_mem_nil⟩

/-- Free texts one behind the other are free. -/
theorem IsFree.append {left right : List Char} (free : IsFree left) (behind : IsFree right) :
    IsFree (left ++ right) :=
  ⟨fun member => (List.mem_append.mp member).elim free.1 behind.1,
    fun member => (List.mem_append.mp member).elim free.2 behind.2⟩

/-- A text is free if its characters stem from a free one. -/
theorem IsFree.of_subset {text other : List Char} (free : IsFree other)
    (subset : ∀ c ∈ text, c ∈ other) : IsFree text :=
  ⟨fun member => free.1 (subset _ member), fun member => free.2 (subset _ member)⟩

/-- Names are free. -/
theorem isFree_of_isTagNameChar {text : List Char} (named : ∀ c ∈ text, isTagNameChar c) :
    IsFree text :=
  ⟨fun member => ne_of_isTagNameChar (named _ member) rfl rfl,
    fun member => ne_of_isTagNameChar (named _ member) rfl rfl⟩

/-- Texts in a row are free if each of them is. -/
theorem isFree_flatMap {α : Type} {pieces : List α} {text : α → List Char}
    (free : ∀ piece ∈ pieces, IsFree (text piece)) : IsFree (pieces.flatMap text) := by
  induction pieces with
  | nil => exact .nil
  | cons first rest ih =>
    rw [List.flatMap_cons]
    exact (free first List.mem_cons_self).append
      (ih fun piece member => free piece (List.mem_cons_of_mem _ member))

/-- A free text is free as often as it is repeated. -/
theorem isFree_repeated {text : String} (free : IsFree text.toList) (count : Nat) :
    IsFree (Text.repeated text count).toList := by
  refine free.of_subset fun c member => ?_
  simp only [Text.repeated, String.toList_ofList, List.mem_flatten, List.mem_replicate] at member
  obtain ⟨_, ⟨_, rfl⟩, inside⟩ := member
  exact inside

/-- The lines of a free text are free. -/
theorem isFree_lines {text line : String} (free : IsFree text.toList)
    (isLine : line ∈ Text.splitLines text) : IsFree line.toList := by
  refine free.of_subset fun c member => ?_
  obtain ⟨characters, among, rfl⟩ := List.mem_map.mp isLine
  rw [String.toList_ofList] at member
  have inside := List.mem_flatten_of_mem among member
  rw [Text.flatten_linesOf] at inside
  exact (List.mem_filter.mp inside).1

/-- What is left of a free text without its blanks is free. -/
theorem isFree_trimStart {text : String} (free : IsFree text.toList) :
    IsFree (Text.trimStart text).toList := by
  refine free.of_subset fun c member => ?_
  rw [Text.trimStart, String.toList_ofList] at member
  exact (List.dropWhile_sublist _).subset member

/-- Lower case keeps the characters of names among themselves. -/
theorem isTagNameChar_lowerFrom (before : List Char) {text : List Char}
    (named : ∀ c ∈ text, isTagNameChar c) :
    ∀ c ∈ LetterCase.lowerFrom before text, isTagNameChar c := by
  induction text generalizing before with
  | nil => exact named
  | cons first rest ih =>
    have namedFirst := named first List.mem_cons_self
    have ascii := ascii_of_isTagNameChar namedFirst
    have noSigma : (first == 'Σ') = false := by
      simpa using ne_of_isTagNameChar namedFirst (rfl : isTagNameChar 'Σ' = false)
    have further := ih (first :: before) fun c member => named c (List.mem_cons_of_mem _ member)
    simp only [LetterCase.lowerFrom, LetterCase.lowerChar, noSigma, ascii, if_true,
      Bool.false_eq_true, if_false, List.singleton_append, List.forall_mem_cons]
    exact ⟨(isTagNameChar_cases namedFirst).1, further⟩

/-- A name in another case has no angle brackets. -/
theorem isFree_casing (casing : Casing) {name : String} (named : IsTagName name) :
    IsFree (casing.apply name).toList := by
  refine isFree_of_isTagNameChar ?_
  cases casing with
  | keep => exact named.mem
  | lower =>
    rw [Casing.apply, LetterCase.lower, String.toList_ofList]
    exact isTagNameChar_lowerFrom [] named.mem
  | upper =>
    rw [Casing.apply, LetterCase.upper, String.toList_ofList]
    intro c member
    obtain ⟨original, among, image⟩ := List.mem_flatMap.mp member
    have namedOriginal := named.mem original among
    rw [LetterCase.upperChar, if_pos (ascii_of_isTagNameChar namedOriginal),
      List.mem_singleton] at image
    exact image ▸ (isTagNameChar_cases namedOriginal).2

/-- The number of a field has no angle brackets. -/
theorem isFree_number (number : Nat) : IsFree (toString number).toList := by
  refine isFree_of_isTagNameChar fun c member => ?_
  have digit : CharClass.digit c := Digits.digit_of_mem_toDigits (by simpa using member)
  simp [isTagNameChar, digit]

/-- A field has no angle brackets if its name has none. -/
theorem isFree_defaultField (index : Nat) {name : String} (free : IsFree name.toList) :
    IsFree (defaultField index name).toList := by
  have opening : IsFree "$\x7b".toList := by decide
  have closing : IsFree "\x7d".toList := by decide
  have colon : IsFree ":".toList := by decide
  rw [defaultField]
  split
  · simp only [String.toList_append]
    exact (opening.append (isFree_number index)).append closing
  · simp only [String.toList_append]
    exact (((opening.append (isFree_number index)).append colon).append free).append closing

/-! ### Pieces that spell tags -/

/-- Reading a piece gives these tags in front of those of what follows. -/
def Spells (tags : List Tag) (text : List Char) : Prop :=
  ∀ rest, tagsFrom none (text ++ rest) = tags ++ tagsFrom none rest

/-- Texts one behind the other spell their tags one after the other. -/
theorem Spells.append {first second : List Tag} {left right : List Char}
    (spells : Spells first left) (behind : Spells second right) :
    Spells (first ++ second) (left ++ right) := by
  intro rest
  rw [List.append_assoc, spells, behind, List.append_assoc]

/-- A free text spells no tag. -/
theorem IsFree.spells {text : List Char} (free : IsFree text) : Spells [] text := by
  intro rest
  induction text with
  | nil => rfl
  | cons c text ih =>
    simp only [IsFree, List.mem_cons, not_or] at free
    rw [List.cons_append, tagsFrom]
    simp only [Ne.symm free.1.1, if_false]
    exact ih ⟨free.1.2, free.2.2⟩

/-- A tag is read up to its closing bracket. -/
theorem tagsFrom_inside {text : List Char} (free : IsFree text) (body rest : List Char) :
    tagsFrom (some body) (text ++ '>' :: rest) = tagOf (body ++ text) :: tagsFrom none rest := by
  induction text generalizing body with
  | nil => simp [tagsFrom]
  | cons c text ih =>
    simp only [IsFree, List.mem_cons, not_or] at free
    rw [List.cons_append, tagsFrom]
    simp only [Ne.symm free.2.1, if_false]
    rw [ih ⟨free.1.2, free.2.2⟩, List.append_assoc, List.singleton_append]

/-- A free text in angle brackets spells one tag. -/
theorem spells_tag {body : List Char} (free : IsFree body) :
    Spells [tagOf body] ('<' :: (body ++ ['>'])) := by
  intro rest
  have read := tagsFrom_inside free [] rest
  simpa [tagsFrom] using read

/-- The last character of two pieces is the last one of either. -/
theorem getLast?_append_ne {left right : List Char} {c : Char} (first : left.getLast? ≠ some c)
    (second : right.getLast? ≠ some c) : (left ++ right).getLast? ≠ some c := by
  rw [List.getLast?_append]
  cases last : right.getLast? with
  | none => rwa [Option.none_or]
  | some other =>
    rw [Option.some_or]
    exact last ▸ second

/-- What attributes look like: it is free, begins with a blank and does not end in a slash. -/
structure IsAttributes (text : List Char) : Prop where
  free : IsFree text
  begins : ∀ c ∈ text.head?, c = ' '
  ends : text.getLast? ≠ some '/'

/-- There may be no attributes. -/
theorem IsAttributes.nil : IsAttributes [] :=
  ⟨.nil, by simp, by simp⟩

/-- Attributes behind attributes are attributes. -/
theorem IsAttributes.append {left right : List Char} (first : IsAttributes left)
    (second : IsAttributes right) : IsAttributes (left ++ right) := by
  refine ⟨first.free.append second.free, ?_, ?_⟩
  · cases left with
    | nil => exact second.begins
    | cons c rest => exact first.begins
  · exact getLast?_append_ne first.ends second.ends

/-- The mark behind the value of an attribute: it is free, not empty and no slash. -/
structure IsMark (text : List Char) : Prop where
  free : IsFree text
  filled : text ≠ []
  ends : text.getLast? ≠ some '/'

/-- The beginning of an attribute: a blank and a free text. -/
def BeginsAttribute (text : List Char) : Prop := ∃ behind, IsFree behind ∧ text = ' ' :: behind

/-- The beginning of an attribute goes on with a free text. -/
theorem BeginsAttribute.append {left right : List Char} (begins : BeginsAttribute left)
    (free : IsFree right) : BeginsAttribute (left ++ right) := by
  obtain ⟨behind, freeBehind, rfl⟩ := begins
  exact ⟨behind ++ right, freeBehind.append free, rfl⟩

/-- An attribute ends with a mark. -/
theorem BeginsAttribute.marked {left right : List Char} (begins : BeginsAttribute left)
    (mark : IsMark right) : IsAttributes (left ++ right) := by
  obtain ⟨behind, freeBehind, rfl⟩ := begins
  have blank : IsFree [' '] := by decide
  refine ⟨blank.append (freeBehind.append mark.free), by simp, ?_⟩
  obtain ⟨last, isLast⟩ := Option.isSome_iff_exists.mp (List.getLast?_isSome.mpr mark.filled)
  rw [List.getLast?_append, isLast, Option.some_or, ← isLast]
  exact mark.ends

/-- The name of a tag ends where its attributes or its slash begin. -/
theorem takeWhile_name {name : String} (named : IsTagName name) {behind : List Char}
    (apart : ∀ c ∈ behind.head?, isTagNameChar c = false) :
    (name.toList ++ behind).takeWhile isTagNameChar = name.toList := by
  rw [List.takeWhile_append_of_pos named.mem]
  cases behind with
  | nil => simp
  | cons c rest => simp [apart c rfl]

/-- A tag that begins with a name is no closing one. -/
theorem tagOf_named {name : String} (named : IsTagName name) {behind : List Char}
    (apart : ∀ c ∈ behind.head?, isTagNameChar c = false) :
    tagOf (name.toList ++ behind) =
      if (name.toList ++ behind).getLast? = some '/' then .leaf name else .opening name := by
  obtain ⟨c, rest, split⟩ := List.exists_cons_of_ne_nil named.1
  have noSlash : c ≠ '/' :=
    ne_of_isTagNameChar (named.mem c (split ▸ List.mem_cons_self)) rfl
  have read := takeWhile_name named apart
  unfold tagOf
  split
  case h_1 other begins =>
    rw [split, List.cons_append, List.cons.injEq] at begins
    exact absurd begins.1 noSlash
  case h_2 => rw [read, String.ofList_toList]

/-- An opening tag ends with its name or its attributes. -/
theorem tagOf_opening {name : String} (named : IsTagName name) {attributes : List Char}
    (written : IsAttributes attributes) : tagOf (name.toList ++ attributes) = .opening name := by
  have apart : ∀ c ∈ attributes.head?, isTagNameChar c = false := by
    intro c member
    rw [written.begins c member]
    rfl
  have noSlash : name.toList.getLast? ≠ some '/' := fun last =>
    ne_of_isTagNameChar (named.mem '/' (List.mem_of_getLast? last)) rfl rfl
  rw [tagOf_named named apart, if_neg (getLast?_append_ne noSlash written.ends)]

/-- A slash behind the attributes makes a leaf. -/
theorem tagOf_leaf {name : String} (named : IsTagName name) {attributes mark : List Char}
    (written : IsAttributes attributes) (slash : mark = [' ', '/'] ∨ mark = ['/']) :
    tagOf (name.toList ++ (attributes ++ mark)) = .leaf name := by
  have apart : ∀ c ∈ (attributes ++ mark).head?, isTagNameChar c = false := by
    intro c member
    cases attributes with
    | nil => rcases slash with rfl | rfl <;> (cases member; rfl)
    | cons first rest =>
      rw [written.begins c member]
      rfl
  rw [tagOf_named named apart, if_pos]
  rcases slash with rfl | rfl <;> simp [List.getLast?_append]

/-! ### Steps that add a text -/

/-- A step of writing adds a text of some kind. -/
def Adds (kind : List Char → Prop) (step : Writer → Writer) : Prop :=
  ∀ writer, ∃ added,
    (step writer).stream.value.toList = writer.stream.value.toList ++ added ∧ kind added

/-- A step behind another one adds its text behind. -/
theorem Adds.comp {first second both : List Char → Prop} {step next : Writer → Writer}
    (adds : Adds second next) (before : Adds first step)
    (join : ∀ left right, first left → second right → both (left ++ right)) :
    Adds both (next ∘ step) := by
  intro writer
  obtain ⟨left, addedLeft, isFirst⟩ := before writer
  obtain ⟨right, addedRight, isSecond⟩ := adds (step writer)
  refine ⟨left ++ right, ?_, join left right isFirst isSecond⟩
  rw [Function.comp_apply, addedRight, addedLeft, List.append_assoc]

/-- A step that adds a text of some kind adds one of every weaker kind. -/
theorem Adds.mono {kind weaker : List Char → Prop} {step : Writer → Writer} (adds : Adds kind step)
    (weaken : ∀ added, kind added → weaker added) : Adds weaker step := by
  intro writer
  obtain ⟨added, same, isKind⟩ := adds writer
  exact ⟨added, same, weaken added isKind⟩

/-- Free texts one behind the other are free. -/
theorem Adds.free {step next : Writer → Writer} (adds : Adds IsFree next)
    (before : Adds IsFree step) : Adds IsFree (next ∘ step) :=
  adds.comp before fun _ _ => IsFree.append

/-- A step that adds nothing. -/
theorem adds_nothing {kind : List Char → Prop} (empty : kind []) {step : Writer → Writer}
    (same : ∀ writer, (step writer).stream.value = writer.stream.value) : Adds kind step :=
  fun writer => ⟨[], by rw [same, List.append_nil], empty⟩

/-- A choice between two steps. -/
theorem Adds.ite {kind : List Char → Prop} {condition : Prop} [Decidable condition]
    {step other : Writer → Writer} (yes : condition → Adds kind step)
    (no : ¬ condition → Adds kind other) :
    Adds kind fun writer => if condition then step writer else other writer := by
  intro writer
  by_cases holds : condition
  · simpa only [if_pos holds] using yes holds writer
  · simpa only [if_neg holds] using no holds writer

/-- A choice spells the tags of the step that is made. -/
theorem Adds.spells_ite {first second : List Tag} {condition : Prop} [Decidable condition]
    {step other : Writer → Writer} (yes : condition → Adds (Spells first) step)
    (no : ¬ condition → Adds (Spells second) other) :
    Adds (Spells (if condition then first else second)) fun writer =>
      if condition then step writer else other writer := by
  refine .ite (fun holds => ?_) fun fails => ?_
  · rw [if_pos holds]
    exact yes holds
  · rw [if_neg fails]
    exact no fails

/-- A change of the depth writes nothing. -/
theorem adds_shift (change : Int) : Adds IsFree (Writer.shift change) :=
  adds_nothing .nil fun _ => rfl

/-- The end of a group writes nothing. -/
theorem adds_closeGroup : Adds IsFree Writer.closeGroup := by
  refine adds_nothing .nil fun writer => ?_
  rw [Writer.closeGroup]
  split <;> rfl

section

variable {config : Config} (writes : WritesTags config)
include writes

/-- A text is written as it is. -/
theorem adds_push (text : String) : Adds (· = text.toList) (push config text) := by
  intro writer
  refine ⟨text.toList, ?_, rfl⟩
  rw [push, Writer.onStream, Stream.toList_push, writes.text]
  rfl

/-- Lines begin with free texts. -/
theorem isFree_lineStart (level : Int) :
    IsFree (Stream.lineStart config.options.output level) :=
  (writes.newline.append writes.baseIndent).append (isFree_repeated writes.indent _)

/-- A line break is free. -/
theorem adds_pushLine : Adds IsFree (pushLine config) := fun writer =>
  ⟨_, Stream.toList_pushLine config.options.output writer.stream, isFree_lineStart writes _⟩

/-- The lines of a free text are written with free ones between them. -/
theorem adds_pushText {text : String} (free : IsFree text.toList) :
    Adds IsFree (Writer.onStream (Stream.pushText config.options.output text)) := by
  intro writer
  obtain ⟨first, rest, lines, added⟩ :=
    Stream.toList_pushText config.options.output text writer.stream
  have freeLine : ∀ line ∈ first :: rest, IsFree (config.options.output.text line).toList := by
    intro line isLine
    rw [writes.text]
    exact isFree_lines free (lines ▸ isLine)
  refine ⟨_, added, (freeLine first List.mem_cons_self).append (isFree_flatMap ?_)⟩
  exact fun line isLine => (isFree_lineStart writes _).append
    (freeLine line (List.mem_cons_of_mem _ isLine))

/-- A field is free if its placeholder is. -/
theorem adds_pushField (index : Nat) {name : String} (free : IsFree name.toList) :
    Adds IsFree fun writer => writer.pushField config.options.output index name := by
  intro writer
  refine ⟨_, Stream.toList_pushField config.options.output _ name writer.stream, ?_⟩
  rw [writes.field]
  exact isFree_defaultField _ free

/-- A free value adds a free text. -/
theorem adds_pushValue {value : Value} (free : IsFreeValue value) :
    Adds IsFree (pushValue config value) := by
  refine adds_closeGroup.free ?_
  induction value with
  | nil => exact adds_nothing .nil fun _ => rfl
  | cons part rest ih =>
    have further := ih fun other member => free other (List.mem_cons_of_mem _ member)
    have freePart := free part List.mem_cons_self
    cases part with
    | text text => exact further.free (adds_pushText writes freePart)
    | field index name => exact further.free (adds_pushField writes index freePart)

/-- A value on lines of its own is as free as it is by itself. -/
theorem adds_pushBlock (isBlock : Bool) {value : Value} (free : IsFreeValue value) :
    Adds IsFree (pushBlock config isBlock value) := by
  have written := adds_pushValue writes free
  have line := adds_pushLine writes
  exact .ite (fun _ => line.free <| (adds_shift (-1)).free <| written.free <| line.free <|
    adds_shift 1) fun _ => written

/-! ### Attributes -/

omit writes in
/-- The text in front of a value is free, and a mark stands behind it. -/
theorem isMark_quotesOf (config : Config) (written : Attribute) :
    IsFree (quotesOf config written).1.toList ∧ IsMark (quotesOf config written).2.toList := by
  rw [quotesOf]
  split
  case isTrue => exact ⟨by decide, by decide, by decide, by decide⟩
  case isFalse =>
    cases config.options.output.attributeQuotes <;>
      exact ⟨by decide, by decide, by decide, by decide⟩

/-- A name in front of its value begins an attribute. -/
theorem adds_name {name : String} (free : IsFree name.toList) :
    Adds BeginsAttribute (push config (" " ++ name)) :=
  (adds_push writes _).mono fun added same => ⟨name.toList, free, by simp [same]⟩

/-- An attribute with a value in front of a mark. -/
theorem adds_pushAssignment {name : String} {quotes : String × String} {value : Value}
    (freeName : IsFree name.toList) (freeValue : IsFreeValue value)
    (freeOpening : IsFree quotes.1.toList) (mark : IsMark quotes.2.toList) :
    Adds IsAttributes (pushAssignment config name quotes value) := by
  have equals : IsFree "=".toList := by decide
  have opened : Adds IsFree (push config ("=" ++ quotes.1)) :=
    (adds_push writes _).mono fun added same => by
      rw [same, String.toList_append]
      exact equals.append freeOpening
  have body : Adds BeginsAttribute
      ((pushValue config value ∘ push config ("=" ++ quotes.1)) ∘ push config (" " ++ name)) :=
    ((adds_pushValue writes freeValue).free opened).comp (adds_name writes freeName)
      fun _ _ => BeginsAttribute.append
  exact (adds_push writes quotes.2).comp body fun _ _ begins same => begins.marked (same ▸ mark)

/-- An attribute is read as one, whether it has a value or not. -/
theorem adds_pushAttribute {written : Attribute} (named : ∀ name ∈ written.name, IsTagName name)
    (free : ∀ value ∈ written.value, IsFreeValue value) :
    Adds IsAttributes (pushAttribute config written) := by
  obtain ⟨freeOpening, mark⟩ := isMark_quotesOf config written
  obtain ⟨name, value, isBoolean, isImplied, kind, isMultiple⟩ := written
  cases name with
  | none => exact adds_nothing .nil fun _ => rfl
  | some raw =>
    have freeName : IsFree (attributeName config raw).toList := isFree_casing _ (named raw rfl)
    cases value with
    | some value => exact adds_pushAssignment writes freeName (free value rfl) freeOpening mark
    | none =>
      have freeCaret : IsFreeValue caret := by simp [IsFreeValue, caret, Part.shown, IsFree]
      have freeRepeated : IsFreeValue [.text (attributeName config raw)] := by
        simpa [IsFreeValue, Part.shown] using freeName
      refine .ite (fun _ => adds_pushAssignment writes freeName freeCaret freeOpening mark)
        fun _ => ?_
      refine .ite (fun _ => adds_pushAssignment writes freeName freeRepeated freeOpening mark)
        fun _ => ?_
      refine .ite (fun isHtml => absurd isHtml writes.closing) fun _ => ?_
      refine (adds_push writes _).comp (adds_name writes freeName) ?_
      rintro left _ begins rfl
      have equals : IsFree "=".toList := by decide
      rw [String.toList_append, String.toList_append, String.toList_append, ← List.append_assoc]
      exact (begins.append ((equals.append freeOpening).append freeName)).marked mark

/-- The attributes of a readable element are read as such. -/
theorem adds_pushAttributes {element : Element} (readable : IsReadable element) :
    Adds IsAttributes (pushAttributes config element.attributes) := by
  have all : ∀ written ∈ element.attributes.filter isWritten,
      Adds IsAttributes (pushAttribute config written) := by
    intro written member
    have among := (List.mem_filter.mp member).1
    exact adds_pushAttribute writes (readable.attributeNames written among)
      (readable.attributeValues written among)
  intro writer
  rw [pushAttributes]
  generalize element.attributes.filter isWritten = attributes at all ⊢
  induction attributes generalizing writer with
  | nil => exact ⟨[], by simp, .nil⟩
  | cons first rest ih =>
    obtain ⟨added, same, isAttributes⟩ := all first List.mem_cons_self writer
    obtain ⟨further, sameFurther, areAttributes⟩ :=
      ih (pushAttribute config first writer)
        fun written member => all written (List.mem_cons_of_mem _ member)
    refine ⟨added ++ further, ?_, isAttributes.append areAttributes⟩
    rw [List.foldl_cons, sameFurther, same, List.append_assoc]

/-! ### Elements -/

/-- No comments are written. -/
theorem pushComment_none (template : String) (element : Element) (writer : Writer) :
    pushComment config template element writer = writer := by
  simp [pushComment, writes.uncommented]

/-- The beginning of a tag: a name and attributes. -/
theorem adds_begun {element : Element} (readable : IsReadable element) (name : String) :
    Adds (fun added => ∃ attributes, IsAttributes attributes ∧
        added = '<' :: (name.toList ++ attributes))
      (pushAttributes config element.attributes ∘ push config ("<" ++ name)) := by
  refine (adds_pushAttributes writes readable).comp (adds_push writes _) ?_
  rintro _ attributes rfl areAttributes
  exact ⟨attributes, areAttributes, by simp⟩

/-- An opening bracket, a name, attributes and a closing bracket spell an opening tag. -/
theorem adds_openingTag {element : Element} (readable : IsReadable element) {name : String}
    (named : IsTagName name) :
    Adds (Spells [.opening name])
      (push config ">" ∘ pushAttributes config element.attributes ∘ push config ("<" ++ name)) := by
  refine (adds_push writes _).comp (adds_begun writes readable name) ?_
  rintro _ _ ⟨attributes, areAttributes, rfl⟩ rfl
  rw [← tagOf_opening named areAttributes]
  exact spells_tag ((isFree_of_isTagNameChar named.mem).append areAttributes.free)

/-- A tag that closes itself ends with a slash. -/
theorem adds_leafTag {element : Element} (readable : IsReadable element) {name : String}
    (named : IsTagName name) :
    Adds (Spells [.leaf name])
      (push config (closingMark config ++ ">") ∘ pushAttributes config element.attributes ∘
        push config ("<" ++ name)) := by
  have slash : (closingMark config).toList = [' ', '/'] ∨ (closingMark config).toList = ['/'] := by
    rw [closingMark]
    cases style : config.options.output.closingStyle with
    | html => exact absurd style writes.closing
    | xhtml => exact .inl rfl
    | xml => exact .inr rfl
  have freeMark : IsFree (closingMark config).toList := by
    rcases slash with mark | mark <;> (rw [mark]; decide)
  refine (adds_push writes _).comp (adds_begun writes readable name) ?_
  rintro _ _ ⟨attributes, areAttributes, rfl⟩ rfl
  rw [← tagOf_leaf named areAttributes slash]
  have spells := spells_tag ((isFree_of_isTagNameChar named.mem).append
    (areAttributes.free.append freeMark))
  simpa using spells

/-- A slash in front of the name spells a closing tag. -/
theorem adds_closingTag {name : String} (named : IsTagName name) :
    Adds (Spells [.closing name]) (push config ("</" ++ name ++ ">")) := by
  have slash : IsFree ['/'] := by decide
  refine (adds_push writes _).mono ?_
  rintro _ rfl
  have spells := spells_tag (slash.append (isFree_of_isTagNameChar named.mem))
  simpa [tagOf] using spells

section

variable {tags : List Tag} {inner : Writer → Writer} (adds : Adds (Spells tags) inner)
include adds

omit writes in
/-- A free text in front of tags changes nothing. -/
theorem Adds.spells_after {step : Writer → Writer} (before : Adds IsFree step) :
    Adds (Spells tags) (inner ∘ step) :=
  adds.comp before fun _ _ free spells => free.spells.append spells

omit writes in
/-- A free text behind tags changes nothing. -/
theorem Adds.spells_before {step : Writer → Writer} (behind : Adds IsFree step) :
    Adds (Spells tags) (step ∘ inner) := by
  refine behind.comp adds fun left right spells free => ?_
  have both := spells.append free.spells
  rwa [List.append_nil] at both

/-- What stands between an opening and a closing tag is spelled between these. -/
theorem adds_enclosed {element : Element} (readable : IsReadable element) {name : String}
    (named : IsTagName name) :
    Adds (Spells (.opening name :: (tags ++ [.closing name])))
      (push config ("</" ++ name ++ ">") ∘ inner ∘
        (push config ">" ∘ pushAttributes config element.attributes ∘
          push config ("<" ++ name))) := by
  have opened := adds.comp (adds_openingTag writes readable named) fun _ _ => Spells.append
  exact (adds_closingTag writes named).comp opened fun _ _ => Spells.append

/-- Children in place of a field spell what they spell. -/
theorem adds_pushAround {value : Value} (free : IsFreeValue value) :
    Adds (Spells tags) (pushAround config value inner) := by
  have freeBefore : IsFreeValue (value.takeWhile fun part => !part.isField) :=
    fun part member => free part (List.takeWhile_prefix _ |>.subset member)
  have freeAfter (count : Nat) : IsFreeValue (value.drop count) :=
    fun part member => free part (List.mem_of_mem_drop member)
  have filled := adds.spells_after (adds_pushValue writes freeBefore)
  have whole (count : Nat) := filled.spells_before (adds_pushValue writes (freeAfter count))
  -- Whether lines were broken decides only about free text behind the children.
  intro writer
  rw [pushAround]
  split
  case isTrue =>
    split
    case h_1 text rest after =>
      have freeParts := after ▸ freeAfter _
      have freeText := isFree_trimStart (freeParts _ List.mem_cons_self)
      have freeRest : IsFreeValue rest :=
        fun part member => freeParts part (List.mem_cons_of_mem _ member)
      exact filled.spells_before
        ((adds_pushValue writes freeRest).free (adds_pushText writes freeText)) writer
    case h_2 => exact whole _ writer
  case isFalse => exact whole _ writer

/-- The text of an element and its children spell what the children spell. -/
theorem adds_pushContent (name : String) {element : Element} (readable : IsReadable element)
    (hasChildren : Bool) :
    Adds (Spells tags) (pushContent config name element hasChildren inner) := by
  have freeCaret : IsFreeValue caret := by simp [IsFreeValue, caret, Part.shown, IsFree]
  have nothing : Adds IsFree id := adds_nothing .nil fun _ => rfl
  have written : Adds IsFree fun writer =>
      if element.value.isEmpty then writer
      else pushBlock config (element.value.any Part.hasBreak ||
        beginsWithBlock config element.value) element.value writer :=
    .ite (fun _ => nothing) fun _ => adds_pushBlock writes _ readable.value
  have cursor : Adds IsFree fun writer =>
      if element.value.isEmpty && !hasChildren then
        pushBlock config (config.options.output.formatLeafNode ||
          config.options.output.formatForce.contains name) caret writer
      else writer :=
    .ite (fun _ => adds_pushBlock writes _ freeCaret) fun _ => nothing
  have whole := (adds.spells_after written).spells_before cursor
  exact whole

/-- An element spells its tags around those of its children. -/
theorem adds_pushElement {element : Element} (readable : IsReadable element)
    (hasChildren : Bool) :
    Adds (Spells (elementTags element hasChildren tags))
      (pushElement config element hasChildren inner) := by
  have around := adds_pushAround writes adds readable.value
  rw [elementTags]
  cases nameIs : element.name with
  | none =>
    have step : pushElement config element hasChildren inner = fun writer =>
        if element.value.hasField && hasChildren then pushAround config element.value inner writer
        else (inner ∘ pushValue config element.value) writer := by
      funext writer
      simp only [pushElement, nameIs, Function.comp_apply]
    rw [step]
    exact .ite (fun _ => around) fun _ => adds.spells_after (adds_pushValue writes readable.value)
  | some name =>
    have named := readable.name name nameIs
    have kept : tagName config name = name := by
      rw [tagName, writes.case]
      rfl
    -- Without comments an element is its tags around what is inside.
    have step : pushElement config element hasChildren inner = fun writer =>
        if element.isSelfClosing && !hasChildren && element.value.isEmpty then
          (push config (closingMark config ++ ">") ∘ pushAttributes config element.attributes ∘
            push config ("<" ++ name)) writer
        else
          (push config ("</" ++ name ++ ">") ∘
            (fun writer =>
              if element.value.hasField && hasChildren then
                pushAround config element.value inner writer
              else pushContent config name element hasChildren inner writer) ∘
            (push config ">" ∘ pushAttributes config element.attributes ∘
              push config ("<" ++ name))) writer := by
      funext writer
      simp only [pushElement, nameIs, kept, pushComment_none writes, Function.comp_apply]
    have filled : Adds (Spells tags) fun writer =>
        if element.value.hasField && hasChildren then pushAround config element.value inner writer
        else pushContent config name element hasChildren inner writer :=
      .ite (fun _ => around) fun _ => adds_pushContent writes adds name readable hasChildren
    rw [step]
    exact .spells_ite (fun _ => adds_leafTag writes readable named)
      fun _ => adds_enclosed writes filled readable named

omit adds in
/-- The line break behind the last child spells nothing. -/
theorem adds_pushEnd (parent : Element) : Adds IsFree (pushEnd config parent) := by
  intro writer
  have broken := Stream.toList_breakLine config.options.output writer.stream
  have indented := Stream.toList_pushIndent config.options.output
    (writer.stream.level - if parent.isBare then 0 else 1)
    (Stream.breakLine config.options.output writer.stream)
  rw [broken, List.append_assoc] at indented
  exact ⟨_, indented,
    (writes.newline.append writes.baseIndent).append (isFree_repeated writes.indent _)⟩

/-- The lines around an element spell no tags. -/
theorem adds_pushPlaced (parent : Option Element) (isBroken isLast : Bool) {element : Element}
    (readable : IsReadable element) (hasChildren : Bool) :
    Adds (Spells (elementTags element hasChildren tags))
      (pushPlaced config parent isBroken isLast element hasChildren inner) := by
  have nothing : Adds IsFree id := adds_nothing .nil fun _ => rfl
  have placed : Adds IsFree fun writer => if isBroken then pushLine config writer else writer :=
    .ite (fun _ => adds_pushLine writes) fun _ => nothing
  have written := (adds_pushElement writes adds readable hasChildren).spells_after
    (placed.free (adds_shift (indentInside config parent)))
  have back := adds_shift (-indentInside config parent)
  cases parent with
  | none =>
    have whole := written.spells_before back
    exact whole
  | some parent =>
    have ended : Adds IsFree fun writer =>
        if isBroken && isLast then pushEnd config parent writer else writer :=
      .ite (fun _ => adds_pushEnd writes parent) fun _ => nothing
    have whole := written.spells_before (back.free ended)
    exact whole

end

end

mutual

/-- A node spells its tags. -/
theorem adds_pushNode {config : Config} (writes : WritesTags config) (parent : Option Element)
    (before : List Element) (after : List Node) {node : Node} (readable : ReadableNode node) :
    Adds (Spells (nodeTags node)) (pushNode config parent before after node) := by
  cases node with
  | node element children =>
    cases readable with
    | node readable below =>
      have inner := adds_pushNodes writes (some element) [] below
      intro writer
      rw [pushNode, nodeTags]
      exact adds_pushPlaced writes inner parent _ after.isEmpty readable (!children.isEmpty) writer

/-- Nodes spell their tags one after the other. -/
theorem adds_pushNodes {config : Config} (writes : WritesTags config) (parent : Option Element)
    (before : List Element) {nodes : List Node} (readable : ∀ node ∈ nodes, ReadableNode node) :
    Adds (Spells (forestTags nodes)) (pushNodes config parent before nodes) := by
  cases nodes with
  | nil =>
    exact (adds_nothing .nil fun writer => by rw [pushNodes]).mono fun _ => IsFree.spells
  | cons first rest =>
    have one := adds_pushNode writes parent before rest (readable first List.mem_cons_self)
    have others := adds_pushNodes writes parent (first.element :: before)
      fun node member => readable node (List.mem_cons_of_mem _ member)
    have both := others.comp one fun _ _ => Spells.append
    intro writer
    rw [pushNodes, forestTags]
    exact both writer

end

/-- The tags of the output are properly nested, and their tree is that of the nodes, in which
nameless ones stand for their children. -/
theorem treesOf_render {config : Config} (writes : WritesTags config) {nodes : List Node}
    (readable : ∀ node ∈ nodes, ReadableNode node) :
    treesOf (render config nodes) = some (nameForest nodes) := by
  obtain ⟨text, written, spells⟩ := adds_pushNodes writes none [] readable (.empty 1)
  have whole : (render config nodes).toList = text := by
    rw [render, write, written]
    rfl
  have tags := spells []
  rw [List.append_nil, tagsFrom, List.append_nil] at tags
  have read := readTags_forest [] [] nodes []
  rw [List.append_nil] at read
  rw [treesOf, tagsOf, whole, tags, read]
  rfl

/-- A text around a child that closes itself, next to a nameless node with a child. -/
theorem treesOf_render_mixed :
    let config := Config.ofSettings { Settings.blank with dialect := some "xhtml" }
    let leaf := Node.node { Element.named "br" with isSelfClosing := true } []
    let nodes :=
      [Node.node { Element.named "p" with value := [.text "a", .field 0 "", .text "b"] } [leaf],
        Node.node .empty [.node (.named "b") []]]
    (WritesTags config ∧ ∀ node ∈ nodes, ReadableNode node) ∧
      treesOf (render config nodes) = some (nameForest nodes) := by
  intro config leaf nodes
  have writes : WritesTags config :=
    ⟨by decide, rfl, rfl, rfl, rfl, by decide, by decide, by decide⟩
  have readableLeaf : ReadableNode leaf :=
    .node ⟨by decide, by decide, by decide, by decide⟩ (by simp)
  have readableBold : ReadableNode (.node (.named "b") []) :=
    .node ⟨by decide, by decide, by decide, by decide⟩ (by simp)
  have readable : ∀ node ∈ nodes, ReadableNode node :=
    List.forall_mem_cons.mpr
      ⟨.node ⟨by decide, by decide, by decide, by decide⟩ (by simpa using readableLeaf),
        List.forall_mem_singleton.mpr <|
          .node ⟨by decide, by decide, by decide, by decide⟩ (by simpa using readableBold)⟩
  exact ⟨⟨writes, readable⟩, treesOf_render writes readable⟩

end Shorthand.Markup.Html
