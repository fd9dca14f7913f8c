import SourceView.History.Log

/-! Running git for the log of a repository. -/

namespace SourceView

/-- What a run of git has printed, and its exit status. -/
structure GitRun where
  output : List UInt8
  status : Nat := 0
  deriving DecidableEq

/-- What there is in place of git: its arguments decide what it prints. -/
abbrev Git := List String → GitRun

namespace GitLog

/-- What git is told for a log with the hunks of each commit and without anything else of the
lines around them. Paths have no mark for the side in front, and each commit is compared with its
first parent.
-/
def options : List String :=
  ["log", "-U0", "--first-parent", "-m", "--no-renames", "--reverse", "--format=commit %H",
    "--no-prefix", "--no-ext-diff", "--no-textconv"]

/-- The arguments of git for the log of a revision. -/
def arguments (path revision : String) : List String :=
  ["-C", path] ++ options ++ [revision, "--"]

/-- Why git's log is of no use. -/
inductive Failure where
  | unreadable (path : String) (cause : LogError)
  /-- Git has exited with a status that is not zero. -/
  | exited (path : String) (status : Nat)
  deriving DecidableEq, Repr

/-- The text that tells why git's log is of no use. -/
def Failure.message : Failure → String
  | unreadable path cause => "Failed to read git log of " ++ path ++ ": " ++ cause.account
  | exited path status => s!"git log in {path} exited with exit status: {status}"

/-- What is wrong with a run whose output was read with or without an error. An error in the log
comes before a failure of git.
-/
def failure? (path : String) (run : GitRun) (cause : Option LogError) : Option Failure :=
  match cause with
  | some cause => some (.unreadable path cause)
  | none => if run.status = 0 then none else some (.exited path run.status)

/-- The history that git's log tells of. -/
def history (path : String) (run : GitRun) : Except Failure History :=
  match History.ofLog run.output with
  | .error cause => .error (.unreadable path cause)
  | .ok history =>
    match failure? path run none with
    | some failure => .error failure
    | none => .ok history

/-- Git's log, stripped: what was written of it, and what is wrong if anything is. -/
def strip (path : String) (run : GitRun) : String × Option Failure :=
  let stripped := Log.strip run.output
  (stripped.written, failure? path run stripped.failure)

end GitLog

end SourceView
