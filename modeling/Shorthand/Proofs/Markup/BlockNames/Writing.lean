import Shorthand.Proofs.Markup.BlockNames.Unique

/-!
# Writing class names

Class names are written as the value of the class attribute, and read from there. Nothing else of an
element changes. What is written in the end are the full names of the names that were read.
-/

namespace Shorthand.Markup.BlockNames

section

variable {α : Type} {test : α → Bool} {change other : α → α}

/-- Two changes of the first item of a kind are one. -/
theorem changeFirst_changeFirst (keeps : ∀ item, test (other item) = test item) (items : List α) :
    changeFirst test change (changeFirst test other items) =
      changeFirst test (change ∘ other) items := by
  induction items with
  | nil => rfl
  | cons first rest ih =>
    by_cases found : test first
    · simp [changeFirst, found, keeps]
    · simp [changeFirst, found, ih]

/-- The first item of a kind is the one that is changed. -/
theorem find?_changeFirst (keeps : ∀ item, test (change item) = test item) (items : List α) :
    (changeFirst test change items).find? test = (items.find? test).map change := by
  induction items with
  | nil => rfl
  | cons first rest ih =>
    by_cases found : test first
    · simp [changeFirst, found, keeps]
    · simp [changeFirst, found, ih]

end

/-- Class names that are written later replace those written before. -/
theorem putClasses_putClasses (config : Config) {full : List String} (filled : full ≠ [])
    (names : List String) (element : Element) :
    putClasses config full (putClasses config names element) =
      putClasses config full element := by
  have isFilled : full.isEmpty = false := by simp [filled]
  rw [putClasses, putClasses, putClasses, isFilled, if_neg Bool.false_ne_true,
    if_neg Bool.false_ne_true]
  split
  · rfl
  · have keeps (found : Attribute) : isClass config
        { found with value := some [.text (Text.join " " names)] } = isClass config found := rfl
    simp only [changeFirst_changeFirst keeps]
    rfl

/-- Class names are written as the value of the class attribute. -/
theorem value_putClasses (config : Config) {full : List String} (filled : full ≠ [])
    {element : Element} (hasClass : (element.attributes.find? (isClass config)).isSome) :
    ((putClasses config full element).attributes.find? (isClass config)).map Attribute.value =
      some (some [.text (Text.join " " full)]) := by
  have isFilled : full.isEmpty = false := by simp [filled]
  have keeps (found : Attribute) : isClass config
      { found with value := some [.text (Text.join " " full)] } = isClass config found := rfl
  obtain ⟨found, isFound⟩ := Option.isSome_iff_exists.mp hasClass
  rw [putClasses, isFilled, if_neg Bool.false_ne_true]
  simp only [find?_changeFirst keeps, isFound, Option.map_some]

/-- What is written as class names is read. -/
theorem classText_putClasses (config : Config) {full : List String} (filled : full ≠ [])
    {element : Element} (hasClass : (element.attributes.find? (isClass config)).isSome) :
    classText config (putClasses config full element) = Text.join " " full := by
  obtain ⟨found, isFound, isValue⟩ :=
    Option.map_eq_some_iff.mp (value_putClasses config filled hasClass)
  rw [classText, isFound, Option.bind_some, isValue]
  simp [Value.plain, Part.shown]

/-- Names are read from a class attribute. -/
theorem hasClass_of_classText {config : Config} {element : Element}
    (filled : classText config element ≠ "") :
    (element.attributes.find? (isClass config)).isSome := by
  cases found : element.attributes.find? (isClass config) with
  | some _ => rfl
  | none => simp [classText, found] at filled

/-- An element with class names has a class attribute. -/
theorem hasClass_of_classNames {config : Config} {element : Element}
    (filled : (split config element).1.classNames ≠ []) :
    (element.attributes.find? (isClass config)).isSome := by
  apply hasClass_of_classText
  intro noText
  rw [split, noText] at filled
  exact filled rfl

/-! ### Full names -/

/-- The full names of class names. -/
def written (config : Config) (path : List BlockNames) (names : List String) : List String :=
  unique (names.flatMap (expand config path))

section

variable {config : Config} {path : List BlockNames} {names : List String} {full : String}

/-- What is written for names is what each of them expands to. -/
theorem mem_written :
    full ∈ written config path names ↔ ∃ name ∈ names, full ∈ expand config path name := by
  rw [written, mem_unique, List.mem_flatMap]

/-- The names of an element are split, and written anew from the blocks around it. -/
theorem apply_eq (outer : List BlockNames) (element : Element) :
    apply config outer element =
      ((split config element).1,
        putClasses config
          (written config ((split config element).1 :: outer) (split config element).1.classNames)
          (putClasses config (split config element).1.classNames element)) := rfl

/-- Expanding names leaves the names of the element's own block. -/
theorem apply_fst (outer : List BlockNames) (element : Element) :
    (apply config outer element).1 = (split config element).1 := rfl

/-- Without class names an element stays. -/
theorem apply_of_nil (outer : List BlockNames) {element : Element}
    (empty : (split config element).1.classNames = []) :
    apply config outer element = ((split config element).1, element) := by
  rw [apply_eq, empty]
  rfl

end

end Shorthand.Markup.BlockNames
