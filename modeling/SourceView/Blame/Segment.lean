import SourceView.History.Basic

/-! Versions of a file as runs of lines that came together.
Replaying the hunks of a commit over the runs of one version gives the runs of the next. Only the
numbers in the hunks are needed, never the text of a line.
-/

namespace SourceView

/-- Where a line came from: a commit, and the line's number in the version of that commit. -/
structure Origin where
  commit : String
  line : Nat
  deriving DecidableEq, Repr

/-- Lines that one commit brought together. -/
structure Segment where
  count : Nat
  /-- The number of the first line in the version of the commit. -/
  start : Nat
  commit : String
  deriving DecidableEq, Repr

namespace Segment

/-- The origin of each line. -/
def origins (segment : Segment) : List Origin :=
  (List.range segment.count).map fun k => { commit := segment.commit, line := segment.start + k }

/-- The origin of each line of a version. -/
def flatten (segments : List Segment) : List Origin :=
  segments.flatMap origins

/-- How many lines a version has. -/
def lineCount (segments : List Segment) : Nat :=
  segments.foldr (·.count + ·) 0

/-- One run of as many lines, of which no commit is known. -/
def wipe (segments : List Segment) : List Segment :=
  let total := lineCount segments
  if total = 0 then [] else [{ count := total, start := 1, commit := "" }]

/-- The first `n` lines, or all if there are fewer, and the lines behind them. -/
def split (n : Nat) : List Segment → List Segment × List Segment
  | [] => ([], [])
  | segment :: rest =>
    if n = 0 then ([], segment :: rest)
    else if n < segment.count then
      ([{ segment with count := n }],
        { segment with count := segment.count - n, start := segment.start + n } :: rest)
    else
      let (taken, behind) := split (n - segment.count) rest
      (segment :: taken, behind)

/-! ### Replaying hunks -/

/-- A version half replayed: what is left of the old lines, the numbers of the next line on both
sides, and the new lines so far.
-/
structure Replay where
  old : List Segment
  oldLine : Nat := 1
  newLine : Nat := 1
  new : List Segment := []

namespace Replay

/-- Keep the next `n` lines. -/
def keep (replay : Replay) (n : Nat) : Replay :=
  let (taken, rest) := split n replay.old
  let count := lineCount taken
  {
    old := rest
    oldLine := replay.oldLine + count
    newLine := replay.newLine + count
    new := replay.new ++ taken }

/-- Leave out the next `n` lines. -/
def delete (replay : Replay) (n : Nat) : Replay :=
  let (taken, rest) := split n replay.old
  { replay with old := rest, oldLine := replay.oldLine + lineCount taken }

/-- Put in `n` lines of a commit. -/
def insert (replay : Replay) (n : Nat) (commit : String) : Replay :=
  { replay with
    newLine := replay.newLine + n
    new := replay.new ++ [{ count := n, start := replay.newLine, commit }] }

/-- Replay the part of a hunk that deletes, if there is one. -/
def applyOld (replay : Replay) (hunk : Hunk) : Replay :=
  if hunk.oldLength = 0 then replay
  else (replay.keep (hunk.oldStart - replay.oldLine)).delete hunk.oldLength

/-- Replay the part of a hunk that inserts, if there is one. -/
def applyNew (replay : Replay) (commit : String) (hunk : Hunk) : Replay :=
  if hunk.newLength = 0 then replay
  else (replay.keep (hunk.newStart - replay.newLine)).insert hunk.newLength commit

/-- Replay one hunk. -/
def apply (commit : String) (replay : Replay) (hunk : Hunk) : Replay :=
  (replay.applyOld hunk).applyNew commit hunk

/-- The whole new version, once every hunk is replayed. -/
def finish (replay : Replay) : List Segment :=
  replay.new ++ replay.old

end Replay

/-- The version after a commit, from the version before it. -/
def step (segments : List Segment) (hunks : List Hunk) (commit : String) : List Segment :=
  (hunks.foldl (Replay.apply commit) { old := segments }).finish

/-- The version before a commit, from the version after it. Lines that the commit deleted come
back as lines of the commit.
-/
def stepReverse (segments : List Segment) (hunks : List Hunk) (commit : String)
    : List Segment :=
  step segments (hunks.map Hunk.swapped) commit

end Segment

end SourceView
