import Quorum.CommandLine
import Quorum.Yaml.Document

/-!
# The program

The command line with the real environment and the real files.
-/

namespace Quorum

/-- The exit code for arguments that make no sense. -/
def usageExit : UInt32 := 2

/-- The variables that matter, as far as they are set. -/
def readEnvironment : IO Environment := do
  let names := [Settings.exponentVariable, Settings.tieRuleVariable, Settings.levelVariable]
  let mut env : Environment := []
  for name in names do
    if let some value ← IO.getEnv name then
      env := (name, value.toList) :: env
  return env

/-- What is found at a path; whatever cannot be read counts as missing. -/
def findFile (path : List Char) : IO Found := do
  try
    return .file (← IO.FS.readBinFile (String.ofList path)).toList
  catch _ =>
    return .missing

/-- Prints a response. -/
def give (response : CommandLine.Response) : IO UInt32 := do
  let output ← IO.getStdout
  let errors ← IO.getStderr
  errors.putStr response.errors
  output.putStr response.output
  return UInt32.ofNat response.exit

end Quorum

open Quorum

/-- Exits with 2 for wrong arguments, with 1 for a fault, and else with 0. -/
def main (args : List String) : IO UInt32 := do
  let args := args.map String.toList
  match CommandLine.jobOf? args with
  | none => return usageExit
  | some job =>
    let found ← findFile job.input
    match CommandLine.respond CommandLine.jobOf? Yaml.loadEntries args (← readEnvironment)
        fun _ => found with
    | none => return usageExit
    | some (.ok response) => give response
    | some (.error fault) =>
      (← IO.getStderr).putStrLn fault.message
      return 1
