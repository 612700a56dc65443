import Shorthand.Config.Reader
import Shorthand.Expansion

/-!
# The command line

Arguments are read into a request, and a request is answered with a report. Reading the file
of options and printing the report are left to the program.
-/

namespace Shorthand.CommandLine

/-- How an abbreviation is read, as far as the arguments say so. -/
structure Target where
  language : Option Language
  dialect : Option String
  deriving DecidableEq, Repr

/-- What arguments ask for. -/
inductive Request where
  /-- Expand an abbreviation around lines of text, with the options of a file. -/
  | expand (abbreviation : String) (target : Target) (lines : List String)
      (optionsFile : Option String)
  /-- Look for faults of an abbreviation. -/
  | check (abbreviation : String) (target : Target)
  deriving DecidableEq, Repr

/-- Why arguments are refused. -/
inductive Misuse where
  | missingCommand
  | unknownCommand (name : String)
  | missingAbbreviation
  | unexpectedArgument (argument : String)
  | missingValue (option : String)
  | repeatedOption (option : String)
  | unknownLanguage (word : String)
  deriving DecidableEq, Repr

/-- The wording of a refusal. -/
def Misuse.message : Misuse → String
  | .missingCommand => "a command is missing: expand or check"
  | .unknownCommand name => "unknown command '" ++ name ++ "'"
  | .missingAbbreviation => "an abbreviation is missing"
  | .unexpectedArgument argument => "unexpected argument '" ++ argument ++ "'"
  | .missingValue option => "option '--" ++ option ++ "' needs a value"
  | .repeatedOption option => "option '--" ++ option ++ "' is given twice"
  | .unknownLanguage word => "unknown type '" ++ word ++ "': markup or stylesheet is expected"

/-! ### Reading arguments -/

/-- Arguments in two groups: operands, and options with their values. -/
structure Arguments where
  operands : List String
  options : List (String × String)

namespace Arguments

/-- Whether an argument is an option. A dash alone is an operand. -/
def isOption (argument : String) : Bool := (Text.afterStart? "-" argument).any (· != "")

/-- The name of an option and the value that is written behind an equals sign. -/
def nameAndValue? (argument : String) : Option (String × Option String) :=
  (Text.afterStart? "--" argument).map fun text =>
    let name := text.toList.takeWhile (· != '=')
    match text.toList.drop name.length with
    | [] => (String.ofList name, none)
    | _ :: value => (String.ofList name, some (String.ofList value))

/-- Put an operand in front. -/
def withOperand (operand : String) (arguments : Arguments) : Arguments :=
  { arguments with operands := operand :: arguments.operands }

/-- Put an option in front. -/
def withOption (name value : String) (arguments : Arguments) : Arguments :=
  { arguments with options := (name, value) :: arguments.options }

/-- Read the arguments behind a command whose options are known. Two dashes end the options;
the wish for verbose messages changes nothing that is reported. -/
def read (known : List String) : List String → Except Misuse Arguments
  | [] => .ok ⟨[], []⟩
  | argument :: rest =>
    if argument = "--" then
      .ok ⟨rest, []⟩
    else if argument = "--verbose" then
      read known rest
    else if !isOption argument then
      (read known rest).map (withOperand argument)
    else
      match nameAndValue? argument with
      | none => .error (.unexpectedArgument argument)
      | some (name, written) =>
        if !known.contains name then
          .error (.unexpectedArgument argument)
        else
          match written, rest with
          | some value, rest => (read known rest).map (withOption name value)
          | none, [] => .error (.missingValue name)
          | none, value :: rest =>
            if isOption value then .error (.missingValue name)
            else (read known rest).map (withOption name value)

/-- The values of an option in order. -/
def values (arguments : Arguments) (name : String) : List String :=
  (arguments.options.filter fun option => option.1 == name).map Prod.snd

/-- The value of an option that is given at most once. -/
def value? (arguments : Arguments) (name : String) : Except Misuse (Option String) :=
  match arguments.values name with
  | [] => .ok none
  | [value] => .ok (some value)
  | _ => .error (.repeatedOption name)

/-- The only operand. -/
def abbreviation (arguments : Arguments) : Except Misuse String :=
  match arguments.operands with
  | [] => .error .missingAbbreviation
  | [operand] => .ok operand
  | _ :: second :: _ => .error (.unexpectedArgument second)

/-- The target that the options name. -/
def target (arguments : Arguments) : Except Misuse Target := do
  let dialect ← arguments.value? "syntax"
  match ← arguments.value? "type" with
  | none => return ⟨none, dialect⟩
  | some word =>
    match Settings.language? (.string word) with
    | none => throw (.unknownLanguage word)
    | some language => return ⟨some language, dialect⟩

end Arguments

/-- Read all arguments: a command, and what it works on. -/
def Request.ofArguments : List String → Except Misuse Request
  | [] => .error .missingCommand
  | command :: rest =>
    if command = "--verbose" then
      ofArguments rest
    else if command = "expand" then do
      let arguments ← Arguments.read ["syntax", "type", "text", "options"] rest
      return .expand (← arguments.abbreviation) (← arguments.target) (arguments.values "text")
        (← arguments.value? "options")
    else if command = "check" then do
      let arguments ← Arguments.read ["syntax", "type"] rest
      return .check (← arguments.abbreviation) (← arguments.target)
    else
      .error (.unknownCommand command)

/-- The file of options that a request names. -/
def Request.optionsFile? : Request → Option String
  | .expand _ _ _ optionsFile => optionsFile
  | .check _ _ => none

/-! ### Reports -/

/-- What a run prints, and the code with which it ends. -/
structure Report where
  code : Nat
  output : String
  complaint : String
  deriving DecidableEq, Repr

namespace Report

/-- The report of a run that went well. -/
def success (text : String) : Report := ⟨0, text ++ "\n", ""⟩

/-- The report of a run that failed. -/
def failure (message : String) : Report := ⟨1, "", message ++ "\n"⟩

/-- The report of arguments that are refused. -/
def ofMisuse (misuse : Misuse) : Report := ⟨2, "", "error: " ++ misuse.message ++ "\n"⟩

/-- The report of a failure: the text of a fault, and a pointer to it below the abbreviation.
Nothing is reported of a program that stops. -/
def ofFailure : Failure → Report
  | .fault fault => failure ("Error: " ++ fault.display ++ "\n" ++ fault.pointer)
  | .crash => ⟨101, "", ""⟩

/-- The report of an options file that cannot be read. -/
def unreadableOptions (path cause : String) : Report :=
  failure ("Error reading " ++ path ++ ": " ++ cause)

/-- The report of an options file that does not hold settings. -/
def invalidOptions (path : String) : Report := failure ("Invalid options in " ++ path)

end Report

/-! ### Answers -/

/-- The settings that the text of an options file holds. -/
def settingsOfFile (path content : String) : Except Report Settings :=
  match (Json.parse? content).bind Settings.ofJson? with
  | some settings => .ok settings
  | none => .error (.invalidOptions path)

/-- Settings for a target. What the arguments name is taken from them. -/
def Target.over (target : Target) (settings : Settings) : Settings :=
  { settings with
    language := target.language <|> settings.language
    dialect := target.dialect <|> settings.dialect }

/-- Settings that wrap lines of text, if there are any. One line stands alone, several are
for one repeated element each. -/
def wrapping (lines : List String) (settings : Settings) : Settings :=
  match lines with
  | [] => settings
  | [line] => { settings with text := some (.single line) }
  | lines => { settings with text := some (.lines lines) }

/-- Answer a request. Only an expansion depends on settings and on random numbers. -/
def answer {State : Type} (draws : Draws State) (settings : Settings) (state : State) :
    Request → Report
  | .expand abbreviation target lines _ =>
    let config := Config.ofSettings (target.over (wrapping lines settings))
    match Expansion.expand draws config abbreviation state with
    | .ok (text, _) => .success text
    | .error reason => .ofFailure reason
  | .check abbreviation target =>
    match Expansion.check (.ofSettings (target.over .blank)) abbreviation with
    | .ok _ => .success "OK"
    | .error reason => .ofFailure reason

end Shorthand.CommandLine
