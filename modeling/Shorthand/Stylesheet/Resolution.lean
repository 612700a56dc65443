import Shorthand.Stylesheet.Database
import Shorthand.Stylesheet.Matching
import Shorthand.Stylesheet.Printer

/-!
# Resolving declarations

The name of a declaration is matched with the keys of the snippets, and its values with the
keywords of the property that was found. What nothing matches stays as it was written, but
for the units of numbers.
-/

namespace Shorthand.Stylesheet

/-- A field that is not glued. -/
def freshField (index : Nat) (name : String) : ValueToken := .field (some index) name false

/-- The property in whose value the abbreviation stands. -/
def valueScope? (config : Config) : Option String :=
  (config.surroundings.map Surroundings.name).filter fun name =>
    !name.isEmpty && (Text.afterStart? "@@" name).isNone

/-! ### Keywords -/

/-- The value of the keyword that matches a name best. -/
def matchKeyword {Score : Type} (scale : Scale Score) (keywords : List Keyword) (name : String)
    (least : Score) : Option ValueToken :=
  (scale.best? Prod.fst least false name keywords).map fun found => found.1.2

/-- The properties whose keywords count for a property: itself and those that depend on it. -/
def family (database : Database) (snippet : PropertySnippet) : List PropertySnippet :=
  snippet :: snippet.dependents.filterMap database.propertyAt?

/-- What a name in a value stands for: a keyword of the property, an alias, or a keyword of
every property. -/
def resolveKeyword (config : Config) (database : Database) (snippet : Option PropertySnippet)
    (least : Float) (name : String) : Option ValueToken :=
  let options := config.options.stylesheet
  let properties := (snippet.map (family database)).getD []
  match properties.findSome? fun property =>
      matchKeyword Scale.float property.keywords name least with
  | some found => some found
  | none =>
    match options.keywordAliases.get? name with
    | some meant => some (.literal meant)
    | none => (Scale.float.best? id least false name options.keywords).map fun found =>
        .literal found.1

/-- Resolve a token of a value. A call gets the arguments it lacks from the keyword. -/
def resolveToken (config : Config) (database : Database) (snippet : Option PropertySnippet)
    (least : Float) : ValueToken → ValueToken
  | .literal text => (resolveKeyword config database snippet least text).getD (.literal text)
  | .call name arguments =>
    match resolveKeyword config database snippet least name with
    | some (.call full defaults) => .call full (arguments ++ defaults.drop arguments.length)
    | _ => .call name arguments
  | token => token

/-- Resolve the tokens of a declaration. -/
def resolveTokens (config : Config) (database : Database) (snippet : Option PropertySnippet)
    (least : Float) (declaration : Declaration) : Declaration :=
  { declaration with
    fragments := declaration.fragments.map fun fragment =>
      fragment.map (resolveToken config database snippet least) }

/-! ### Gradients -/

/-- The arguments of the gradient that a declaration asks for, by a call or by its name. -/
def gradientArguments? (declaration : Declaration) : Option (List Fragment) :=
  let byName : Option (List Fragment) :=
    if declaration.name == some "lg" then some [[freshField 0 ""]] else none
  match declaration.fragments with
  | [[.call name arguments]] => if name = "lg" then some arguments else byName
  | _ => byName

/-- The declaration of a gradient. -/
def resolveGradient? (config : Config) (declaration : Declaration) : Option Declaration :=
  (gradientArguments? declaration).map fun arguments =>
    { declaration with
      name := if config.surroundings.isNone then some "background-image" else declaration.name
      fragments := [[.call "linear-gradient" arguments]] }

/-! ### Properties -/

/-- What is left of an abbreviation when its characters are found in a key one after the
other, from the first one that is not found. -/
def unmatchedPart : List Char → List Char → List Char
  | [], _ => []
  | c :: rest, key =>
    match key.dropWhile (· != c) with
    | [] => c :: rest
    | _ :: behind => unmatchedPart rest behind

/-- Whether a fragment has a field. -/
def hasField (fragment : Fragment) : Bool :=
  fragment.any fun token => match token with
    | .field _ _ _ => true
    | _ => false

/-- A field that holds the text of a token of a default value. -/
def fieldOfToken (config : Config) (index : Nat) (token : ValueToken) : ValueToken :=
  match token with
  | .color color => freshField index (color.text config.options.stylesheet.shortHex)
  | .literal text => freshField index text
  | .number value _ unit => freshField index (quantityText value unit)
  | .quoted value isSingle => freshField index (quotedText value isSingle)
  | .call _ _ => freshField index (tokenText config token)
  | .customProperty _ | .field _ _ _ => token

/-- The default value of a property. If there are others, its tokens become fields, unless
it has fields already. -/
def defaultValue (config : Config) (alternatives : List (List Fragment)) : List Fragment :=
  match alternatives with
  | [] => []
  | [only] => only
  | first :: _ =>
    if first.any hasField then
      first
    else
      first.map fun fragment =>
        fragment.mapIdx fun index token => fieldOfToken config (index + 1) token

/-- Make a declaration one of a property. Its values are looked up among the keywords, and
without any it has the default ones. -/
def takeProperty (config : Config) (database : Database) (snippet : PropertySnippet)
    (declaration : Declaration) : Declaration :=
  let named := { declaration with name := some snippet.property }
  if !named.fragments.isEmpty then
    resolveTokens config database (some snippet) 0.0 named
  else
    { named with fragments := defaultValue config snippet.alternatives }

/-- Resolve a declaration with the snippet of a property and tell whether it is one. What the
key leaves of the abbreviation must be a keyword, and then no value may be given. -/
def resolveAsProperty (config : Config) (database : Database) (snippet : PropertySnippet)
    (declaration : Declaration) : Bool × Declaration :=
  let abbreviation := declaration.name.getD ""
  let inline := String.ofList (unmatchedPart abbreviation.toList snippet.key.toList)
  if inline.isEmpty then
    (true, takeProperty config database snippet declaration)
  else if !declaration.fragments.isEmpty then
    (false, declaration)
  else
    match resolveKeyword config database (some snippet) 0.0 inline with
    | none => (false, declaration)
    | some keyword =>
      (true, takeProperty config database snippet { declaration with fragments := [[keyword]] })

/-! ### Raw snippets -/

/-- The end of a field behind its number: its name, which follows a colon, and what comes
after the brace. -/
def rawFieldEnd? : List Char → Option (String × List Char)
  | '}' :: behind => some ("", behind)
  | ':' :: named =>
    match named.dropWhile (· != '}') with
    | [] => none
    | _ :: behind =>
      let name := named.takeWhile (· != '}')
      if name.isEmpty then none else some (String.ofList name, behind)
  | _ => none

/-- The end of a field takes some character. -/
theorem rawFieldEnd?_length {text behind : List Char} {name : String}
    (found : rawFieldEnd? text = some (name, behind)) : behind.length < text.length := by
  unfold rawFieldEnd? at found
  split at found
  · simp only [Option.some.injEq, Prod.mk.injEq] at found
    simp [found.2]
  · next named =>
    have step := (named.dropWhile_suffix (· != '}')).length_le
    split at found
    · cases found
    · next ending =>
      dsimp only at found
      split at found
      · cases found
      · simp only [Option.some.injEq, Prod.mk.injEq] at found
        simp only [ending, List.length_cons, found.2] at step ⊢
        omega
  · cases found

/-- A field at the front of a raw text: its number, its name and what follows. -/
def rawField? : List Char → Option (Nat × String × List Char)
  | '$' :: '{' :: rest =>
    let digits := rest.takeWhile CharClass.anyDigit
    if digits.isEmpty then
      none
    else
      (rawFieldEnd? (rest.dropWhile CharClass.anyDigit)).map fun ending =>
        ((Digits.word? digits).getD 0, ending)
  | _ => none

/-- A field takes some character. -/
theorem rawField?_length {text behind : List Char} {index : Nat} {name : String}
    (found : rawField? text = some (index, name, behind)) : behind.length < text.length := by
  unfold rawField? at found
  split at found
  · next rest =>
    have step := (rest.dropWhile_suffix CharClass.anyDigit).length_le
    dsimp only at found
    split at found
    · cases found
    · obtain ⟨ending, found, same⟩ := Option.map_eq_some_iff.mp found
      simp only [Prod.mk.injEq] at same
      have shorter := rawFieldEnd?_length (found.trans (congrArg some same.2))
      simp only [List.length_cons]
      omega
  · cases found

/-- A literal, unless it is empty. -/
def literalOf (text : List Char) : Fragment :=
  if text.isEmpty then [] else [.literal (String.ofList text)]

/-- Fill the fields of a raw text with values, as far as there are any. `plain` holds the
text since the last field. -/
def fillRaw (plain : List Char) (values : Fragment) (text : List Char) : Fragment :=
  match text with
  | [] => literalOf plain
  | c :: rest =>
    match _found : rawField? (c :: rest) with
    | none => fillRaw (plain ++ [c]) values rest
    | some (index, name, behind) =>
      match values with
      | [] => literalOf plain ++ freshField index name :: fillRaw [] [] behind
      | value :: values => literalOf plain ++ value :: fillRaw [] values behind
termination_by text.length
decreasing_by
  · simp
  · exact rawField?_length _found
  · exact rawField?_length _found

/-- The declaration of a raw snippet, filled with the values of the first fragment. -/
def resolveAsRaw (text : String) (declaration : Declaration) : Declaration :=
  { declaration with
    name := none
    fragments := [fillRaw [] (declaration.fragments.headD []) text.toList] }

/-! ### Units -/

/-- Give a number its unit: the full name of a short one or, where one is missing, that of
integers or of fractions. -/
def resolveUnit (options : StylesheetOptions) (isUnitless : Bool) : ValueToken → ValueToken
  | .number value raw unit =>
    if !unit.isEmpty then
      .number value raw ((options.unitAliases.get? unit).getD unit)
    else if value != 0.0 && !isUnitless then
      .number value raw (if raw.toList.contains '.' then options.floatUnit else options.intUnit)
    else
      .number value raw unit
  | token => token

/-- Give the numbers of a declaration their units. -/
def resolveUnits (config : Config) (declaration : Declaration) : Declaration :=
  let options := config.options.stylesheet
  let property := (declaration.name <|> config.surroundings.map Surroundings.name).getD ""
  let isUnitless := options.unitless.contains property
  { declaration with
    fragments := declaration.fragments.map fun fragment =>
      fragment.map (resolveUnit options isUnitless) }

/-! ### Declarations -/

/-- Look up the snippet of a declaration. -/
def lookUp (config : Config) (database : Database) (declaration : Declaration) : Resolved :=
  let options := config.options.stylesheet
  match resolveGradient? config declaration with
  | some gradient => ⟨gradient, false, true⟩
  | none =>
    match valueScope? config, declaration.name with
    | some scope, _ =>
      let snippet := database.property? scope
      let resolved := resolveTokens config database snippet options.minScore declaration
      ⟨resolved, false, snippet.isSome⟩
    | none, none => ⟨declaration, false, false⟩
    | none, some name =>
      match Scale.float.best? Snippet.key options.minScore (!options.strictMatch) name
          database.snippets with
      | none => ⟨declaration, false, false⟩
      | some (.raw _ text, _) => ⟨resolveAsRaw text declaration, true, true⟩
      | some (.property snippet, _) =>
        let (isMatched, resolved) := resolveAsProperty config database snippet declaration
        ⟨resolved, false, isMatched⟩

/-- Resolve a declaration. -/
def resolve (config : Config) (database : Database) (declaration : Declaration) : Resolved :=
  let found := lookUp config database declaration
  if found.declaration.name.isSome || config.surroundings.isSome then
    { found with declaration := resolveUnits config found.declaration }
  else
    found

end Shorthand.Stylesheet
