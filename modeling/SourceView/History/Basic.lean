import Std.Data.TreeMap

/-! Commit histories, reduced to which lines each commit changed in which file.
The changes of one commit to one file are a diff. Diffs are kept in the order in which they came
and are found by their commit as well as by their file.
-/

namespace SourceView

/-- Lines that one version of a file has instead of lines of the version before it. A length of
zero means that the start names the line after which the others stand.
-/
structure Hunk where
  oldStart : Nat
  oldLength : Nat
  newStart : Nat
  newLength : Nat
  deriving DecidableEq, Repr

/-- The hunk that leads back. -/
def Hunk.swapped (hunk : Hunk) : Hunk where
  oldStart := hunk.newStart
  oldLength := hunk.newLength
  newStart := hunk.oldStart
  newLength := hunk.oldLength

/-- What one commit changed in one file. -/
structure Diff where
  commit : String
  path : String
  hunks : List Hunk := []
  deriving DecidableEq, Repr

/-- How many characters of a commit's hash are kept. -/
def hashLength : Nat := 16

/-- The part of a commit's hash that is kept and compared. -/
def shortHash (hash : String) : String :=
  .ofList (hash.toList.take hashLength)

/-- A history of commits. -/
structure History where
  /-- The commits in order, by their short hashes. -/
  hashes : Array String := #[]
  /-- Where in the order a commit stands. -/
  positions : Std.TreeMap String Nat := {}
  /-- Every diff, in the order in which they came. -/
  diffs : Array Diff := #[]
  /-- Where among the diffs those of a commit stand. -/
  commits : Std.TreeMap String (Array Nat) := {}
  /-- Where among the diffs those of a file stand. -/
  files : Std.TreeMap String (Array Nat) := {}

namespace History

/-- The two histories hold the same in the same order. -/
def same (history other : History) : Bool :=
  history.hashes == other.hashes && history.diffs == other.diffs
    && history.positions.toList == other.positions.toList
    && history.commits.toList == other.commits.toList
    && history.files.toList == other.files.toList

/-- How many diffs there are. -/
def diffCount (history : History) : Nat :=
  history.diffs.size

/-- The diff at this place. -/
def diff? (history : History) (id : Nat) : Option Diff :=
  history.diffs[id]?

/-- The diffs of a commit, of which any text that begins with its short hash is a name. -/
def commitDiffs? (history : History) (commit : String) : Option (List Nat) :=
  (history.commits[shortHash commit]?).map Array.toList

/-- The diffs of a file, oldest first. -/
def fileDiffs? (history : History) (path : String) : Option (List Nat) :=
  (history.files[path]?).map Array.toList

/-- Where in the order a commit stands. -/
def position? (history : History) (commit : String) : Option Nat :=
  history.positions[shortHash commit]?

/-- The paths of all files, in order. -/
def paths (history : History) : List String :=
  history.files.keys

/-- A list of places with one more at its end. -/
def withPlace (place : Nat) (places : Option (Array Nat)) : Option (Array Nat) :=
  some ((places.getD #[]).push place)

/-- Add a commit. A hash that was there before stands at its last place from now on. -/
def pushCommit (history : History) (hash : String) : History :=
  let short := shortHash hash
  { history with
    hashes := history.hashes.push short
    positions := history.positions.insert short history.hashes.size
    commits := history.commits.alter short fun places => some (places.getD #[]) }

/-- Add an empty diff of a file under the last commit. Gives its place as well, and nothing if
there is no commit.
-/
def pushDiff? (history : History) (path : String) : Option (Nat × History) := do
  let commit ← history.hashes.back?
  let id := history.diffs.size
  return (id, { history with
    diffs := history.diffs.push { commit, path }
    commits := history.commits.alter commit (withPlace id)
    files := history.files.alter path (withPlace id) })

/-- Add a hunk to a diff. -/
def pushHunk (history : History) (id : Nat) (hunk : Hunk) : History :=
  { history with
    diffs := history.diffs.modify id fun diff => { diff with hunks := diff.hunks ++ [hunk] } }

end History

end SourceView
