import Shorthand.CommandLine

/-!
# The program

Reads the arguments and the file of options that they name, and prints the report.
-/

namespace Shorthand.CommandLine

/-- Read the settings that a request names. -/
def loadSettings : Option String → IO (Except Report Settings)
  | none => return .ok .blank
  | some path => do
    try
      return settingsOfFile path (← IO.FS.readFile path)
    catch cause =>
      return .error (.unreadableOptions path cause.toString)

/-- The report for arguments. -/
def run (arguments : List String) : IO Report := do
  match Request.ofArguments arguments with
  | .error misuse => return .ofMisuse misuse
  | .ok request =>
    match ← loadSettings request.optionsFile? with
    | .error report => return report
    | .ok settings =>
      let seed ← IO.rand 0 (Draws.period - 1)
      return answer .congruential settings (Draws.seeded seed) request

end Shorthand.CommandLine

/-- Run the program: print a report and end with its code. -/
def main (arguments : List String) : IO UInt32 := do
  let report ← Shorthand.CommandLine.run arguments
  (← IO.getStdout).putStr report.output
  (← IO.getStderr).putStr report.complaint
  return report.code.toUInt32
