import SourceView.Load.StripCommand

/-! The command line: writes the stripped log of a repository to standard output.
The log comes from standard input, as git prints it for the arguments that `GitLog.arguments` lists.
-/

open SourceView

/-- Run the command. -/
def main (arguments : List String) : IO UInt32 := do
  let command := StripCommand.ofArguments arguments
  let log ← match command with
    | .strip _ _ => (← IO.getStdin).readBinToEnd
    | _ => pure .empty
  let outcome := command.perform fun _ => { output := log.toList }
  (← IO.getStdout).putStr outcome.output
  if command = .misused then (← IO.getStderr).putStr StripCommand.usage
  return .ofNat outcome.status
