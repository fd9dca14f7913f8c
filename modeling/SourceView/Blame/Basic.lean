import SourceView.Blame.Segment

/-! Which commit brought each line of a file, and which commit takes it away.
The blame of a version comes from replaying the diffs up to it. Its future comes from replaying all
diffs, forgetting where lines came from, and replaying the later diffs backwards.
-/

namespace SourceView

/-- Why there is no blame. -/
inductive BlameError where
  | noSuchFile (path : String)
  | unknownCommit (commit : String)
  | fileDoesNotExist (path commit : String)
  | commitDidNotChangeFile (commit path : String)
  deriving DecidableEq, Repr

/-- The text that tells why there is no blame. -/
def BlameError.message : BlameError → String
  | noSuchFile path => "no such file: " ++ path
  | unknownCommit commit => "no such commit: " ++ commit
  | fileDoesNotExist path commit => s!"file {path} does not exist at commit {commit}"
  | commitDidNotChangeFile commit path => s!"commit {commit} did not change file {path}"

/-- Where lines came from and where they go. -/
structure Blame where
  /-- For each line the commit that brought it, with its number there. -/
  blame : List Origin
  /-- For each line the commit that takes it away, with its number just before; no commit, with
  its number in the newest version, if none does.
  -/
  future : List Origin
  /-- The commit that changed the file before, if any did. -/
  previous : String
  /-- The commit that changes the file next, if any does. -/
  next : String
  hunks : List Hunk
  deriving DecidableEq, Repr

namespace Blame

/-- The version that diffs lead to. -/
def replay (segments : List Segment) (diffs : List Diff) : List Segment :=
  diffs.foldl (fun segments diff => Segment.step segments diff.hunks diff.commit) segments

/-- The version that diffs lead back to, the last one first. -/
def replayBack (segments : List Segment) (diffs : List Diff) : List Segment :=
  diffs.foldr (fun diff segments => Segment.stepReverse segments diff.hunks diff.commit) segments

/-- The blame of the version after the first `count` diffs. -/
def blameAfter (diffs : List Diff) (count : Nat) : List Origin :=
  Segment.flatten (replay [] (diffs.take count))

/-- The future of the version after the first `count` diffs. -/
def futureAfter (diffs : List Diff) (count : Nat) : List Origin :=
  Segment.flatten (replayBack (Segment.wipe (replay [] diffs)) (diffs.drop count))

/-- The commit of the diff at a place, or none. -/
def commitAt (diffs : List Diff) (place : Nat) : String :=
  ((diffs[place]?).map Diff.commit).getD ""

/-- The commit of the diff before a place, or none. -/
def commitBefore (diffs : List Diff) : Nat → String
  | 0 => ""
  | place + 1 => commitAt diffs place

/-- How many items from the start on have a property that no item has behind one without it,
by halving the part in question: `size` items from `base` on.
-/
def bisect (holds : Nat → Bool) (base size : Nat) : Nat :=
  if size ≤ 1 then if size = 1 ∧ holds base then base + 1 else base
  else bisect holds (if holds (base + size / 2) then base + size / 2 else base) (size - size / 2)
termination_by size
decreasing_by omega

/-- The diffs of a file, oldest first. -/
def fileDiffs (history : History) (path : String) : Except BlameError (List Diff) :=
  match history.fileDiffs? path with
  | none => .error (.noSuchFile path)
  | some ids => .ok (ids.filterMap history.diff?)

/-- Where in the order of commits a commit stands. -/
def position (history : History) (commit : String) : Except BlameError Nat :=
  match history.position? commit with
  | none => .error (.unknownCommit commit)
  | some place => .ok place

/-- A diff's commit is not behind the commit at a place. -/
def isUpTo (history : History) (place : Nat) (diff : Diff) : Bool :=
  match history.position? diff.commit with
  | some p => p ≤ place
  | none => false

/-- The blame of a file as of a commit, which need not have changed it. -/
def ofFile (history : History) (commit path : String) : Except BlameError Blame := do
  let diffs ← fileDiffs history path
  let place ← position history commit
  let count := bisect (fun i => ((diffs[i]?).map (isUpTo history place)).getD false) 0 diffs.length
  match count with
  | 0 => .error (.fileDoesNotExist path commit)
  | i + 1 =>
    match diffs[i]? with
    | none => .error (.fileDoesNotExist path commit)
    | some latest =>
      return {
        blame := blameAfter diffs count
        future := futureAfter diffs count
        previous := if latest.commit = shortHash commit then commitBefore diffs i
          else latest.commit
        next := commitAt diffs count
        hunks := latest.hunks }

/-- The blame of both sides of a commit's change to a file: where the lines before it came from,
and where the lines after it go.
-/
def ofDiff (history : History) (commit path : String) : Except BlameError Blame := do
  let diffs ← fileDiffs history path
  let _ ← position history commit
  match diffs.findIdx? (·.commit = shortHash commit) with
  | none => .error (.commitDidNotChangeFile commit path)
  | some i =>
    return {
      blame := blameAfter diffs i
      future := futureAfter diffs (i + 1)
      previous := commitBefore diffs i
      next := commitAt diffs (i + 1)
      hunks := ((diffs[i]?).map Diff.hunks).getD [] }

end Blame

end SourceView
