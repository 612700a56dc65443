import Shorthand.Proofs.Output.Tabstop
import Shorthand.Proofs.Text.Run
import Shorthand.Stylesheet.Resolution

/-!
# Raw texts and their fields

A raw text is cut at its fields: each of them is the first one behind the field before. There is
one such cut. Filling puts values in place of the fields as far as there are any, and keeps what
stands between them.
-/

namespace Shorthand.Stylesheet

/-- A field of a raw text as it is written: digits of any script, and a name that may be missing. -/
structure RawField where
  digits : Run CharClass.anyDigit
  name : Option (Run (· != '}'))

namespace RawField

/-- The name behind its colon. -/
def namedText (field : RawField) : List Char := field.name.elim [] fun name => ':' :: name.text

def text (field : RawField) : List Char :=
  '$' :: '{' :: (field.digits.text ++ (field.namedText ++ ['}']))

/-- Zero where the digits are no machine word. -/
def index (field : RawField) : Nat := (Digits.word? field.digits.text).getD 0

def caption (field : RawField) : String := String.ofList (field.name.elim [] Run.text)

/-- What stands for a field that gets no value. -/
def token (field : RawField) : ValueToken := freshField field.index field.caption

/-! ### Reading fields -/

/-- What stands behind the digits is none. -/
theorem anyDigit_namedText (field : RawField) (behind : List Char) :
    ∀ c ∈ (field.namedText ++ '}' :: behind).head?, CharClass.anyDigit c = false := by
  rw [namedText]
  cases field.name with
  | none =>
    rintro c ⟨⟩
    decide
  | some name =>
    rintro c ⟨⟩
    decide

/-- A field ends at its brace, behind its caption if it has one. -/
theorem rawFieldEnd?_text (field : RawField) (behind : List Char) :
    rawFieldEnd? (field.namedText ++ '}' :: behind) = some (field.caption, behind) := by
  obtain ⟨digits, name⟩ := field
  cases name with
  | none => rfl
  | some name =>
    have stops : ∀ c ∈ ('}' :: behind).head?, (c != '}') = false := by simp
    have filled : name.text.isEmpty = false := by simpa using name.filled
    have apart : RawField.namedText ⟨digits, some name⟩ ++ '}' :: behind =
        ':' :: (name.text ++ '}' :: behind) := rfl
    rw [apart, rawFieldEnd?, dropWhile_run name.all stops, takeWhile_run name.all stops]
    simp [filled, caption]

/-- A field is read with its index and its caption. -/
theorem rawField?_text (field : RawField) (behind : List Char) :
    rawField? (field.text ++ behind) = some (field.index, field.caption, behind) := by
  have stops := field.anyDigit_namedText behind
  have filled : field.digits.text.isEmpty = false := by simpa using field.digits.filled
  have apart : field.text ++ behind =
      '$' :: '{' :: (field.digits.text ++ (field.namedText ++ '}' :: behind)) := by
    simp [text]
  rw [apart, rawField?, takeWhile_run field.digits.all stops, dropWhile_run field.digits.all stops]
  simp only [filled, Bool.false_eq_true, if_false, rawFieldEnd?_text, Option.map_some]
  rfl

/-- What is read as the end of a field is a name or nothing in front of the brace. -/
theorem exists_name_of_rawFieldEnd? {text behind : List Char} {caption : String}
    (found : rawFieldEnd? text = some (caption, behind)) :
    ∃ name : Option (Run (· != '}')), caption = String.ofList (name.elim [] Run.text) ∧
      text = (name.elim [] fun name => ':' :: name.text) ++ '}' :: behind := by
  unfold rawFieldEnd? at found
  split at found
  · cases found
    exact ⟨none, rfl, rfl⟩
  · next named =>
    have cut := List.takeWhile_append_dropWhile (p := (· != '}')) (l := named)
    have stops := head?_dropWhile_run (· != '}') named
    split at found
    · cases found
    · next brace _ ending =>
      rw [ending] at cut stops
      obtain rfl : brace = '}' := by simpa using stops brace rfl
      dsimp only at found
      split at found
      · cases found
      · next filled =>
        cases found
        refine ⟨some ⟨named.takeWhile (· != '}'), by simpa using filled, ?_⟩, rfl, ?_⟩
        · exact fun c member => List.mem_takeWhile_imp (p := (· != '}')) member
        · rw [Option.elim_some, List.cons_append, cut]
  · cases found

/-- What is read as a field is written as one. -/
theorem exists_of_rawField? {text behind : List Char} {index : Nat} {caption : String}
    (found : rawField? text = some (index, caption, behind)) :
    ∃ field : RawField, text = field.text ++ behind ∧ index = field.index ∧
      caption = field.caption := by
  unfold rawField? at found
  split at found
  · next rest =>
    have cut := List.takeWhile_append_dropWhile (p := CharClass.anyDigit) (l := rest)
    dsimp only at found
    split at found
    · cases found
    · next filled =>
      obtain ⟨⟨caption, behind⟩, ending, same⟩ := Option.map_eq_some_iff.mp found
      obtain ⟨name, rfl, isEnd⟩ := exists_name_of_rawFieldEnd? ending
      cases same
      refine ⟨⟨⟨rest.takeWhile CharClass.anyDigit, by simpa using filled, ?_⟩, name⟩, ?_, rfl, rfl⟩
      · exact fun c member => List.mem_takeWhile_imp member
      · rw [isEnd] at cut
        simpa [RawField.text, namedText] using cut.symm
  · cases found

/-- No field is read exactly where none is written. -/
theorem rawField?_eq_none_iff {text : List Char} :
    rawField? text = none ↔ ∀ field : RawField, ¬field.text <+: text := by
  constructor
  · rintro nothing field ⟨behind, rfl⟩
    rw [rawField?_text] at nothing
    cases nothing
  · intro fieldless
    by_contra found
    obtain ⟨⟨index, caption, behind⟩, isField⟩ := Option.ne_none_iff_exists'.mp found
    obtain ⟨field, rfl, -⟩ := exists_of_rawField? isField
    exact fieldless field (List.prefix_append _ _)

/-- A field is told from others by its text. -/
theorem eq_of_text_append {first second : RawField} {behind rest : List Char}
    (same : first.text ++ behind = second.text ++ rest) : first = second ∧ behind = rest := by
  have read := rawField?_text first behind
  rw [same, rawField?_text, Option.some.injEq, Prod.mk.injEq, Prod.mk.injEq] at read
  obtain ⟨-, -, rfl⟩ := read
  refine ⟨?_, rfl⟩
  have texts := List.append_cancel_right same
  rw [text, text, List.cons_eq_cons, List.cons_eq_cons] at texts
  obtain ⟨-, -, texts⟩ := texts
  obtain ⟨digits, names⟩ := (append_eq_append_of_run first.digits.all second.digits.all
    (first.anyDigit_namedText []) (second.anyDigit_namedText [])).mp texts
  have sameName := List.append_cancel_right names
  obtain ⟨⟨_, _, _⟩, name⟩ := first
  obtain ⟨⟨_, _, _⟩, other⟩ := second
  cases digits
  cases name with
  | none =>
    cases other with
    | none => rfl
    | some other => cases sameName
  | some name =>
    cases other with
    | none => cases sameName
    | some other =>
      obtain ⟨_, _, _⟩ := name
      obtain ⟨_, _, _⟩ := other
      cases (List.cons.inj sameName).2
      rfl

/-! ### Writing fields -/

/-- The field with its number as it is printed. -/
def respelled (field : RawField) : RawField :=
  { field with
    digits := ⟨Nat.toDigits 10 field.index, Nat.toDigits_ne_nil, fun c member => by
      simp [CharClass.anyDigit, Digits.digit_of_mem_toDigits member]⟩ }

/-- What ends a field spells its caption. -/
theorem fieldEnd_caption (field : RawField) :
    fieldEnd field.caption = field.namedText ++ ['}'] := by
  rw [fieldEnd, caption, namedText]
  cases field.name with
  | none => rfl
  | some name =>
    have filled : (String.ofList name.text).isEmpty = false := by simpa using name.filled
    simp [filled]

end RawField

/-- The text of a token that a raw text is filled with. -/
def rawTokenText : ValueToken → List Char
  | .literal value => value.toList
  | .field index name _ => (defaultField (index.getD 0) name).toList
  | _ => []

/-- The token of a field is printed as the field with its digits respelled. -/
theorem rawTokenText_token (field : RawField) :
    rawTokenText field.token = field.respelled.text := by
  rw [RawField.token, freshField, rawTokenText, Option.getD_some, toList_defaultField,
    field.fieldEnd_caption]
  rfl

/-- A literal is printed as its text. -/
theorem rawTokenText_literalOf (text : List Char) :
    (literalOf text).flatMap rawTokenText = text := by
  rw [literalOf]
  split
  · next empty => exact (List.isEmpty_iff.mp empty).symm
  · simp [rawTokenText]

/-! ### Cuts -/

/-- No field begins in a text, when another one stands behind it. -/
def Fieldless (plain behind : List Char) : Prop :=
  ∀ front back, plain = front ++ back → back ≠ [] →
    ∀ field : RawField, ¬field.text <+: back ++ behind

/-- Fields with what stands in front of each, and what stands behind the last. -/
structure RawCut where
  pieces : List (List Char × RawField)
  ending : List Char

namespace RawCut

/-- The cut with another field in front. -/
def behind (plain : List Char) (field : RawField) (cut : RawCut) : RawCut :=
  { cut with pieces := (plain, field) :: cut.pieces }

def text (cut : RawCut) : List Char :=
  (cut.pieces.flatMap fun piece => piece.1 ++ piece.2.text) ++ cut.ending

/-- The cut with all numbers as they are printed. -/
def respelled (cut : RawCut) : RawCut :=
  { cut with pieces := cut.pieces.map fun piece => (piece.1, piece.2.respelled) }

/-- What is put in place of a text: the value of its number for each field, if there is one, and
literals for all that is not empty around the fields. -/
def tokens (cut : RawCut) (values : Fragment) : Fragment :=
  (cut.pieces.mapIdx fun place piece =>
    literalOf piece.1 ++ [(values[place]?).getD piece.2.token]).flatten ++ literalOf cut.ending

/-- The text of a cut begins with what stands in front of its first field, and with that field. -/
theorem text_behind (plain : List Char) (field : RawField) (cut : RawCut) :
    (cut.behind plain field).text = plain ++ (field.text ++ cut.text) := by
  simp [text, behind]

/-- The first field gets the first value, and the others get the others. -/
theorem tokens_behind (plain : List Char) (field : RawField) (cut : RawCut) (values : Fragment) :
    (cut.behind plain field).tokens values =
      literalOf plain ++ values.head?.getD field.token :: cut.tokens values.tail := by
  simp [tokens, behind, List.mapIdx_cons, List.head?_eq_getElem?]

/-- Without values, the text is written back but for the spelling of its numbers. -/
theorem tokens_text (cut : RawCut) :
    (cut.tokens []).flatMap rawTokenText = cut.respelled.text := by
  obtain ⟨pieces, ending⟩ := cut
  induction pieces with
  | nil => simp [tokens, respelled, text, rawTokenText_literalOf]
  | cons piece pieces ih =>
    obtain ⟨plain, field⟩ := piece
    have split := tokens_behind plain field ⟨pieces, ending⟩ []
    have joined := text_behind plain field.respelled (RawCut.respelled ⟨pieces, ending⟩)
    rw [behind] at split joined
    rw [split, List.flatMap_append, List.flatMap_cons, rawTokenText_literalOf, List.head?_nil,
      Option.getD_none, rawTokenText_token, List.tail_nil, ih, ← joined]
    rfl

end RawCut

/-- A text is cut at its fields from the left to the right: in front of each one, no other field
begins. -/
inductive IsCut : List Char → RawCut → Prop where
  | ending {plain : List Char} (fieldless : Fieldless plain []) : IsCut plain ⟨[], plain⟩
  | field {plain rest : List Char} {field : RawField} {cut : RawCut}
      (fieldless : Fieldless plain (field.text ++ rest)) (further : IsCut rest cut) :
      IsCut (plain ++ (field.text ++ rest)) (cut.behind plain field)

section

variable {plain rest : List Char} {field : RawField} {cut : RawCut} {text : List Char}

/-- In the empty text no field begins. -/
theorem fieldless_nil (rest : List Char) : Fieldless [] rest := by
  intro front back same filled
  exact absurd (List.append_eq_nil_iff.mp same.symm).2 filled

/-- No field begins in a text if none begins at its first character or behind it. -/
theorem Fieldless.cons {c : Char} (fieldless : Fieldless plain rest)
    (nothing : rawField? (c :: (plain ++ rest)) = none) : Fieldless (c :: plain) rest := by
  intro front back same filled
  cases front with
  | nil =>
    obtain rfl : c :: plain = back := same
    exact RawField.rawField?_eq_none_iff.mp nothing
  | cons first front => exact fieldless front back (List.cons.inj same).2 filled

/-- Where no field begins none begins at the first character. -/
theorem Fieldless.of_cons {c : Char} (fieldless : Fieldless (c :: plain) rest) :
    rawField? (c :: (plain ++ rest)) = none ∧ Fieldless plain rest := by
  constructor
  · exact RawField.rawField?_eq_none_iff.mpr (fieldless [] _ rfl (List.cons_ne_nil _ _))
  · intro front back same filled
    exact fieldless (c :: front) back (congrArg (c :: ·) same) filled

/-- A field does not begin where none does, so it begins behind. -/
theorem Fieldless.ends {other behind : List Char} (fieldless : Fieldless other behind)
    (same : plain ++ (field.text ++ rest) = other ++ behind) :
    ∃ more, plain = other ++ more ∧ behind = more ++ (field.text ++ rest) := by
  rcases List.append_eq_append_iff.mp same with ⟨more, rfl, inside⟩ | behind
  · by_cases filled : more = []
    · subst filled
      exact ⟨[], by simp, by simpa using inside.symm⟩
    · exact absurd ⟨rest, inside⟩ (fieldless plain more rfl filled field)
  · exact behind

/-- A text is put together again from its cut. -/
theorem IsCut.text_eq (isCut : IsCut text cut) : cut.text = text := by
  induction isCut with
  | ending fieldless => simp [RawCut.text]
  | field fieldless further ih => rw [RawCut.text_behind, ih]

/-- A cut of the rest is one of the whole if no field begins in front. -/
theorem IsCut.exists_cons {c : Char} (isCut : IsCut text cut)
    (nothing : rawField? (c :: text) = none) : ∃ cut, IsCut (c :: text) cut := by
  cases isCut with
  | ending fieldless => exact ⟨_, .ending (fieldless.cons (by rwa [List.append_nil]))⟩
  | field fieldless further => exact ⟨_, .field (fieldless.cons nothing) further⟩

/-- Every text has a cut. -/
theorem exists_isCut (text : List Char) : ∃ cut, IsCut text cut := by
  match text with
  | [] => exact ⟨_, .ending (fieldless_nil [])⟩
  | c :: rest =>
    match found : rawField? (c :: rest) with
    | none =>
      obtain ⟨cut, isCut⟩ := exists_isCut rest
      exact isCut.exists_cons found
    | some (index, caption, behind) =>
      obtain ⟨cut, isCut⟩ := exists_isCut behind
      obtain ⟨field, written, -⟩ := RawField.exists_of_rawField? found
      rw [written]
      exact ⟨_, .field (fieldless_nil _) isCut⟩
termination_by text.length
decreasing_by
  · simp
  · exact rawField?_length found

/-- A text has only one cut. -/
theorem IsCut.unique {other : RawCut} (isCut : IsCut text cut) (isOther : IsCut text other) :
    other = cut := by
  induction isCut generalizing other with
  | @ending text fieldless =>
    cases isOther with
    | ending => rfl
    | @field plain rest field cut otherless further =>
      obtain ⟨more, -, nothing⟩ := fieldless.ends (List.append_nil _).symm
      simp [RawField.text] at nothing
  | @field plain rest field cut fieldless further ih =>
    generalize whole : plain ++ (field.text ++ rest) = text at isOther
    cases isOther with
    | ending otherless =>
      obtain ⟨more, -, nothing⟩ := otherless.ends (whole.trans (List.append_nil _).symm)
      simp [RawField.text] at nothing
    | @field otherPlain otherRest otherField otherCut otherless otherFurther =>
      obtain ⟨more, isMore, -⟩ := otherless.ends whole
      obtain ⟨less, rfl, -⟩ := fieldless.ends whole.symm
      have nothing : less ++ more = [] := by simpa using isMore
      obtain ⟨rfl, rfl⟩ := List.append_eq_nil_iff.mp nothing
      rw [List.append_nil] at whole
      obtain ⟨rfl, rfl⟩ := RawField.eq_of_text_append (List.append_cancel_left whole)
      rw [List.append_nil, ih otherFurther]

/-! ### Filling -/

/-- Text in which no field begins is gathered for a literal. -/
theorem fillRaw_plain (fieldless : Fieldless plain rest) (front : List Char) (values : Fragment) :
    fillRaw front values (plain ++ rest) = fillRaw (front ++ plain) values rest := by
  induction plain generalizing front with
  | nil => rw [List.nil_append, List.append_nil]
  | cons c plain ih =>
    obtain ⟨nothing, further⟩ := fieldless.of_cons
    rw [List.cons_append, fillRaw]
    split
    · rw [ih further, List.append_assoc, List.singleton_append]
    · next found => simp [nothing] at found

/-- A field takes the first value, and the text in front of it is a literal. -/
theorem fillRaw_field (plain : List Char) (values : Fragment) (field : RawField)
    (rest : List Char) :
    fillRaw plain values (field.text ++ rest) =
      literalOf plain ++ values.head?.getD field.token :: fillRaw [] values.tail rest := by
  have read := field.rawField?_text rest
  rw [RawField.text, List.cons_append] at read ⊢
  rw [fillRaw]
  split
  · next nothing =>
    rw [nothing] at read
    cases read
  · next found =>
    rw [found] at read
    cases read
    cases values with
    | nil => rfl
    | cons value values => rfl

/-- Filling puts the values in place of the fields of the cut. -/
theorem IsCut.fillRaw (isCut : IsCut text cut) (values : Fragment) :
    Stylesheet.fillRaw [] values text = cut.tokens values := by
  induction isCut generalizing values with
  | @ending plain fieldless =>
    have filled := fillRaw_plain fieldless [] values
    rw [List.append_nil, List.nil_append] at filled
    rw [filled, Stylesheet.fillRaw]
    rfl
  | field fieldless further ih =>
    rw [fillRaw_plain fieldless, List.nil_append, fillRaw_field, ih, RawCut.tokens_behind]

end

/-- A raw text has one cut at its fields. The declaration of the text has one fragment, which is
the text with the values of the first fragment in place of its first fields, as far as there are
any, with its own fields for the others, and with a literal for every text around them that is not
empty. Without values it is written like the text, but for the spelling of the numbers. -/
theorem resolveAsRaw_fills (text : String) (declaration : Declaration) :
    ∃ cut : RawCut, IsCut text.toList cut ∧ (∀ other, IsCut text.toList other → other = cut) ∧
      cut.text = text.toList ∧
      resolveAsRaw text declaration =
        ⟨none, [cut.tokens (declaration.fragments.headD [])], declaration.isImportant⟩ ∧
      (cut.tokens []).flatMap rawTokenText = cut.respelled.text := by
  obtain ⟨cut, isCut⟩ := exists_isCut text.toList
  refine ⟨cut, isCut, fun other isOther => isCut.unique isOther, isCut.text_eq, ?_, cut.tokens_text⟩
  rw [resolveAsRaw, isCut.fillRaw]

example :
    (resolveAsRaw "${1:a}é${02}${3}" ⟨some "s", [[.literal "v"]], false⟩).fragments =
      [[.literal "v", .literal "é", .field (some 2) "" false, .field (some 3) "" false]] := by
  cbv

end Shorthand.Stylesheet
