import SourceView.Load.GitLog

/-! The command that writes the stripped log of a repository. -/

namespace SourceView

/-- What the command is told to do. -/
inductive StripCommand where
  | strip (path revision : String)
  | help
  | misused
  deriving DecidableEq, Repr

/-- What the command has done. -/
structure CommandOutcome where
  status : Nat
  output : String := ""
  /-- How git was called, if it was. -/
  calls : List (List String) := []
  deriving DecidableEq, Repr

namespace StripCommand

/-- The revision whose log is written if none is named. -/
def defaultRevision : String := "HEAD"

/-- An argument that can only be an option. -/
def isOption (argument : String) : Bool :=
  match argument.toList with
  | '-' :: _ :: _ => true
  | _ => false

/-- An option that asks for help. -/
def asksForHelp (argument : String) : Bool :=
  match argument.toList with
  | '-' :: 'h' :: _ => true
  | _ => argument == "--help"

/-- Read the arguments behind those that were taken for a path and a revision. When `plain`, none
of them is an option.
-/
def readFrom (plain : Bool) (taken : List String) : List String → StripCommand
  | [] =>
    match taken with
    | [path] => .strip path defaultRevision
    | [path, revision] => .strip path revision
    | _ => .misused
  | argument :: rest =>
    if !plain && argument == "--" then readFrom true taken rest
    else if !plain && isOption argument then
      if asksForHelp argument then .help else .misused
    else
      match taken with
      | [] => if argument.isEmpty then .misused else readFrom plain [argument] rest
      | [path] => readFrom plain [path, argument] rest
      | _ => .misused

/-- Read the arguments. -/
def ofArguments (arguments : List String) : StripCommand :=
  readFrom false [] arguments

/-- The text that tells how the command is used. -/
def usage : String :=
  String.join (List.map (· ++ "\n") [
    "Print the stripped git log of a repository",
    "",
    "Usage: strip-log <REPO_PATH> [REVISION]",
    "",
    "Arguments:",
    "  <REPO_PATH>  Repository to read",
    "  [REVISION]   Revision whose history is written [default: HEAD]",
    "",
    "Options:",
    "  -h, --help  Print help"])

/-- Do what the command is told. What was stripped before a failure is written all the same. -/
def perform (command : StripCommand) (git : Git) : CommandOutcome :=
  match command with
  | .help => { status := 0, output := usage }
  | .misused => { status := 2 }
  | .strip path revision =>
    let call := GitLog.arguments path revision
    let (written, failure) := GitLog.strip path (git call)
    { status := if failure.isSome then 1 else 0, output := written, calls := [call] }

end StripCommand

end SourceView
