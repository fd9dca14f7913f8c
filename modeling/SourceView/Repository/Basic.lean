import SourceView.NameMap
import SourceView.Text.Decimal

/-! Repositories: commits, each with its parents and the whole content of its files. -/

namespace SourceView

/-- A commit of a repository. -/
structure Commit where
  /-- The commit's hash, in full. -/
  id : String
  /-- The hashes of the commits that it follows, the main line first. -/
  parents : List String := []
  /-- What the files hold, by their paths. -/
  files : NameMap (List UInt8) := {}
  deriving DecidableEq

/-- A repository. -/
structure Repository where
  commits : List Commit := []
  deriving DecidableEq

/-- A way from one commit to another. -/
inductive RevisionStep where
  /-- To the parent with this number, counted from one; zero stays at the commit. -/
  | parent (number : Nat)
  /-- This many times to the first parent. -/
  | ancestor (distance : Nat)
  deriving DecidableEq, Repr

/-- A name of a commit: the beginning of a hash, and steps from there on. -/
structure Revision where
  base : String
  steps : List RevisionStep := []
  deriving DecidableEq, Repr

namespace Revision

/-- A character that begins a step. -/
def isMark (c : Char) : Bool :=
  c == '^' || c == '~'

/-- The number at the start of a text, or one if there is none, and the rest. -/
def leadingNumber (text : List Char) : Nat × List Char :=
  let digits := text.takeWhile fun c => (Text.Decimal.digit? c).isSome
  ((Text.Decimal.readFrom 0 digits).filter (fun _ => !digits.isEmpty) |>.getD 1,
    text.drop digits.length)

/-- The rest behind a number is not longer. -/
theorem length_leadingNumber_le (text : List Char)
    : (leadingNumber text).2.length ≤ text.length := by
  simp [leadingNumber]

/-- Read steps. -/
def steps? : List Char → Option (List RevisionStep)
  | [] => some []
  | c :: rest =>
    let number := (leadingNumber rest).1
    if c = '^' then (.parent number :: ·) <$> steps? (leadingNumber rest).2
    else if c = '~' then (.ancestor number :: ·) <$> steps? (leadingNumber rest).2
    else none
termination_by text => text.length
decreasing_by all_goals exact Nat.lt_succ_of_le (length_leadingNumber_le rest)

/-- Read a name of a commit. -/
def ofString? (text : String) : Option Revision := do
  let chars := text.toList
  return {
    base := .ofList (chars.takeWhile fun c => !isMark c)
    steps := ← steps? (chars.dropWhile fun c => !isMark c) }

end Revision

namespace Repository

/-- The fewest digits of a hash that name a commit. -/
def minHashLength : Nat := 4

/-- The only commit whose hash begins with these digits. -/
def find? (repository : Repository) (start : String) : Option Commit :=
  let start := start.toList.map Char.toLower
  if start.length < minHashLength then none
  else
    match repository.commits.filter fun commit => start.isPrefixOf commit.id.toList with
    | [commit] => some commit
    | _ => none

/-- The parent of a commit with a number, counted from one. -/
def parent? (repository : Repository) (commit : Commit) (number : Nat) : Option Commit := do
  repository.find? (← commit.parents[number - 1]?)

/-- The commit at the end of this many steps to the first parent. -/
def ancestor? (repository : Repository) (commit : Commit) : Nat → Option Commit
  | 0 => some commit
  | distance + 1 => do ancestor? repository (← repository.parent? commit 1) distance

/-- The commit at the end of steps. -/
def follow? (repository : Repository) (commit : Commit) : List RevisionStep → Option Commit
  | [] => some commit
  | .parent 0 :: rest => repository.follow? commit rest
  | .parent (number + 1) :: rest => do
    repository.follow? (← repository.parent? commit (number + 1)) rest
  | .ancestor distance :: rest => do
    repository.follow? (← repository.ancestor? commit distance) rest

/-- The commit of a name. -/
def resolve? (repository : Repository) (name : String) : Option Commit := do
  let revision ← Revision.ofString? name
  repository.follow? (← repository.find? revision.base) revision.steps

end Repository

end SourceView
