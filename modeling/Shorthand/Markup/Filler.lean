import Shorthand.Draws
import Shorthand.Markup.Filler.Vocabulary
import Shorthand.Markup.ImplicitTag

/-!
# Filler text

An element called `lorem` or `lipsum` is replaced by a generated paragraph. Letters behind
the name choose the vocabulary, a number is the count of words, and a second number behind a
dash the largest count, between which one is drawn.
-/

namespace Shorthand.Markup.Filler

/-- What a filler element asks for. -/
structure Request where
  language : String
  /-- The least count of words. -/
  least : Nat
  /-- The largest count of words. -/
  most : Nat
  deriving DecidableEq, Repr

/-- Whether a character is the given small letter in either case; the long s is an s. -/
def isLetter (letter c : Char) : Bool :=
  c.toLower == letter || (letter == 's' && c == '\u017f')

/-- The rest of a text that begins with a word in any case. -/
def afterWord? : List Char → List Char → Option (List Char)
  | [], text => some text
  | _ :: _, [] => none
  | letter :: word, c :: text => if isLetter letter c then afterWord? word text else none

/-- The count of words when none is given. -/
def defaultCount : Nat := 30

/-- Read the name of a filler element. -/
def request? (name : String) : Option Request :=
  match afterWord? "lorem".toList name.toList <|> afterWord? "lipsum".toList name.toList with
  | none => none
  | some rest =>
    let language := rest.takeWhile CharClass.foldedLetter
    let rest := rest.dropWhile CharClass.foldedLetter
    let digits := rest.takeWhile CharClass.anyDigit
    let rest := rest.dropWhile CharClass.anyDigit
    let least := ((Digits.word? digits).map (max 1)).getD defaultCount
    let most : Option Nat :=
      match rest with
      | [] => some least
      | '-' :: digits =>
        if digits.all CharClass.anyDigit then
          some (((Digits.word? digits).map (max least)).getD least)
        else
          none
      | _ => none
    most.map fun most => ⟨LetterCase.lower (String.ofList language), least, most⟩

section

variable {State : Type} (draws : Draws State)

/-- Add words that are not chosen yet, up to `missing` of them. -/
def fill : Nat → List String → List String → List String
  | _, chosen, [] => chosen
  | 0, chosen, _ => chosen
  | missing + 1, chosen, word :: rest =>
    if chosen.contains word then fill (missing + 1) chosen rest
    else fill missing (chosen ++ [word]) rest

/-- Draw words until `count` different ones are chosen. With a source that keeps to few words
drawing would never end, and no text be written; so that there always is one, the choice is
completed in order behind `limit` draws. What is chosen earlier does not depend on the limit. -/
def chooseFrom (words : List String) (count : Nat) :
    Nat → List String → State → List String × State
  | 0, chosen, state => (fill (count - chosen.length) chosen words, state)
  | limit + 1, chosen, state =>
    if count ≤ chosen.length then
      (chosen, state)
    else
      let (index, state) := draws.below 0 words.length state
      let word := (words[index]?).getD ""
      chooseFrom words count limit
        (if chosen.contains word then chosen else chosen ++ [word]) state

/-- Choose different words, at most as many as there are. Behind as many draws as the congruential
source has states, that source only repeats itself. -/
def choose (words : List String) (count : Nat) (state : State) : List String × State :=
  chooseFrom draws words (min count words.length) Draws.period [] state

/-- Put a comma behind the word at a place, unless it has one. -/
def addComma (place : Nat) (words : List String) : List String :=
  words.modify place fun word => if word.endsWith "," then word else word ++ ","

/-- Put commas at drawn places, but never behind the last word. -/
def addCommas : Nat → List String → State → List String × State
  | 0, words, state => (words, state)
  | count + 1, words, state =>
    let (place, state) := draws.below 0 (words.length - 2) state
    addCommas count (addComma place words) state

/-- Put commas into a sentence; how many depends on its length. -/
def punctuate (words : List String) (state : State) : List String × State :=
  if words.length < 2 then
    (words, state)
  else
    let (count, state) :=
      if 4 ≤ words.length ∧ words.length ≤ 6 then draws.below 0 1 state
      else if 7 ≤ words.length ∧ words.length ≤ 12 then draws.below 0 2 state
      else draws.below 1 4 state
    addCommas draws count words state

/-- A word that begins with a capital. -/
def capitalize (word : String) : String :=
  match word.toList with
  | [] => ""
  | first :: rest => String.ofList (LetterCase.upperChar first ++ rest)

/-- The words of a sentence as text, without its final mark. -/
def sentenceText (words : List String) : String :=
  Text.join " " (match words with
    | [] => []
    | first :: rest => capitalize first :: rest)

/-- The marks that a sentence may end with. -/
def finalMark : Nat → String
  | 0 => "?"
  | 1 => "!"
  | _ => "."

/-- Draw sentences until they have `missing` words. -/
def sentences (vocabulary : Vocabulary) : Nat → Nat → State → List String × State
  | 0, _, state => ([], state)
  | limit + 1, missing, state =>
    if missing = 0 then
      ([], state)
    else
      let (size, state) := draws.below 2 30 state
      let (words, state) := choose draws vocabulary.words (min size missing) state
      let left := missing - words.length
      let (words, state) := punctuate draws words state
      let (mark, state) := draws.below 0 3 state
      let (others, state) := sentences vocabulary limit left state
      ((sentenceText words ++ finalMark mark) :: others, state)

/-- A paragraph of `count` words. It may begin with the opening of the vocabulary. -/
def paragraph (vocabulary : Vocabulary) (count : Nat) (hasOpening : Bool) (state : State) :
    String × State :=
  if hasOpening then
    let opening := vocabulary.opening.take count
    let (words, state) := punctuate draws opening state
    let (others, state) := sentences draws vocabulary count (count - opening.length) state
    (Text.join " " ((sentenceText words ++ ".") :: others), state)
  else
    let (all, state) := sentences draws vocabulary count count state
    (Text.join " " all, state)

/-- Replace an element inside ancestors, nearest first, if it is a filler. Only the first copy
of a repeat has the opening, and a copy inside of other elements keeps a tag. -/
def apply (config : Config) (ancestors : List Ancestor) (element : Element) (state : State) :
    Element × State :=
  match element.name.bind request? with
  | none => (element, state)
  | some request =>
    let (count, state) :=
      if request.least < request.most then draws.within request.least request.most state
      else (request.least, state)
    let iteration := element.iteration <|> ancestors.findSome? Ancestor.iteration
    let hasOpening := iteration.all fun iteration => iteration.index == 0
    let vocabulary := Vocabulary.ofLanguage request.language
    let (text, state) := paragraph draws vocabulary count hasOpening state
    let filled : Element :=
      { element with name := none, value := [.text text], attributes := [] }
    if element.iteration.isSome && !ancestors.isEmpty then
      (giveTag config ancestors filled, state)
    else
      (filled, state)

end

end Shorthand.Markup.Filler
