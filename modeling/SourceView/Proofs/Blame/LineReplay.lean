import SourceView.Blame.Segment

/-! Replaying hunks line by line.
Runs only shorten what is written down: the origins of the lines behind a replay of runs are those
behind the plain replay of single lines, whatever the runs and whatever the hunks.
-/

namespace SourceView.Segment

-----------------------------------------------------------------------------------------
-- The lines of runs
-----------------------------------------------------------------------------------------

@[simp] theorem flatten_nil : flatten [] = [] := rfl

@[simp] theorem flatten_cons (segment : Segment) (rest : List Segment)
    : flatten (segment :: rest) = segment.origins ++ flatten rest :=
  List.flatMap_cons

@[simp] theorem flatten_append (front back : List Segment)
    : flatten (front ++ back) = flatten front ++ flatten back :=
  List.flatMap_append

@[simp] theorem length_origins (segment : Segment) : segment.origins.length = segment.count := by
  simp [origins]

/-- Runs have as many lines as they count, by induction on the runs. -/
theorem length_flatten (segments : List Segment)
    : (flatten segments).length = lineCount segments := by
  induction segments with
  | nil => rfl
  | cons segment rest ih => simp [lineCount, ih]

/-- A line of a run has the commit of the run, and its number is counted from the start of the run.
-/
theorem getElem?_origins (segment : Segment) (index : Nat)
    : segment.origins[index]?
      = if index < segment.count then some ⟨segment.commit, segment.start + index⟩ else none := by
  by_cases inside : index < segment.count <;> simp [origins, inside]

/-- The first lines of a run are those of a shorter run. -/
theorem origins_take (segment : Segment) {n : Nat} (short : n ≤ segment.count)
    : ({ segment with count := n } : Segment).origins = segment.origins.take n := by
  simp only [origins, ← List.map_take, List.take_range, Nat.min_eq_left short]

/-- The other lines of a run are those of a run that starts later. -/
theorem origins_drop (segment : Segment) (n : Nat)
    : ({ segment with count := segment.count - n, start := segment.start + n } : Segment).origins
      = segment.origins.drop n := by
  apply List.ext_getElem?
  intro index
  rw [List.getElem?_drop, getElem?_origins, getElem?_origins]
  by_cases inside : n + index < segment.count
  · simp [inside, show index < segment.count - n by omega, Nat.add_assoc]
  · simp [inside, show ¬index < segment.count - n by omega]

/-- The front of split runs has the first lines, by induction on the runs. -/
theorem flatten_split_fst (n : Nat) (segments : List Segment)
    : flatten (split n segments).1 = (flatten segments).take n := by
  induction segments generalizing n with
  | nil => simp [split]
  | cons segment rest ih =>
      unfold split
      split
      · simp [*]
      split
      case isTrue short =>
        rw [flatten_cons, flatten_cons, flatten_nil, origins_take segment (Nat.le_of_lt short),
          List.append_nil, List.take_append_of_le_length (by simp; omega)]
      case isFalse long =>
        rw [flatten_cons, flatten_cons, ih, List.take_append, length_origins,
          List.take_of_length_le (l := segment.origins) (by simp; omega)]

/-- The back of split runs has the other lines, by induction on the runs. -/
theorem flatten_split_snd (n : Nat) (segments : List Segment)
    : flatten (split n segments).2 = (flatten segments).drop n := by
  induction segments generalizing n with
  | nil => simp [split]
  | cons segment rest ih =>
      unfold split
      split
      · simp [*]
      split
      case isTrue short =>
        rw [flatten_cons, flatten_cons, origins_drop segment n,
          List.drop_append_of_le_length (by simp; omega)]
      case isFalse long =>
        rw [flatten_cons, ih, List.drop_append, length_origins,
          List.drop_of_length_le (l := segment.origins) (by simp; omega), List.nil_append]

/-- Wiping leaves as many lines, numbered from one on and without a commit. -/
theorem flatten_wipe (segments : List Segment)
    : flatten (wipe segments) = ({ count := lineCount segments, start := 1, commit := "" }
        : Segment).origins := by
  unfold wipe
  by_cases empty : lineCount segments = 0 <;> simp [empty, origins]

-----------------------------------------------------------------------------------------
-- The plain replay
-----------------------------------------------------------------------------------------

/-- A version half replayed, line by line. -/
structure LineReplay where
  old : List Origin
  oldLine : Nat := 1
  newLine : Nat := 1
  new : List Origin := []

namespace LineReplay

/-- Keep the next `n` lines, or as many as are left. -/
def keep (replay : LineReplay) (n : Nat) : LineReplay where
  old := replay.old.drop n
  oldLine := replay.oldLine + (replay.old.take n).length
  newLine := replay.newLine + (replay.old.take n).length
  new := replay.new ++ replay.old.take n

/-- Leave out the next `n` lines, or as many as are left. -/
def delete (replay : LineReplay) (n : Nat) : LineReplay :=
  { replay with
    old := replay.old.drop n
    oldLine := replay.oldLine + (replay.old.take n).length }

/-- Put in `n` lines of a commit, each with its own number. -/
def insert (replay : LineReplay) (n : Nat) (commit : String) : LineReplay :=
  { replay with
    newLine := replay.newLine + n
    new := replay.new ++ (List.range n).map fun k => ⟨commit, replay.newLine + k⟩ }

/-- Replay one hunk: first what it deletes, then what it inserts. -/
def apply (commit : String) (replay : LineReplay) (hunk : Hunk) : LineReplay :=
  let deleted :=
    if hunk.oldLength = 0 then replay
    else (replay.keep (hunk.oldStart - replay.oldLine)).delete hunk.oldLength
  if hunk.newLength = 0 then deleted
  else (deleted.keep (hunk.newStart - deleted.newLine)).insert hunk.newLength commit

/-- The new version, once every hunk is replayed. -/
def finish (replay : LineReplay) : List Origin :=
  replay.new ++ replay.old

/-- The version after a commit, from the version before it. -/
def step (lines : List Origin) (hunks : List Hunk) (commit : String) : List Origin :=
  (hunks.foldl (apply commit) { old := lines }).finish

end LineReplay

-----------------------------------------------------------------------------------------
-- What each part of a replay keeps, and what it does to the lines
-----------------------------------------------------------------------------------------

namespace Replay

/-- A property of versions half replayed that each part of a replay keeps. -/
structure Preserved (holds : Replay → Prop) : Prop where
  keep {replay : Replay} (n : Nat) : holds replay → holds (replay.keep n)
  delete {replay : Replay} (n : Nat) : holds replay → holds (replay.delete n)
  insert {replay : Replay} {n : Nat} (commit : String)
    : n ≠ 0 → holds replay → holds (replay.insert n commit)

/-- A hunk keeps what its parts keep, by cases on which of them are there. -/
theorem Preserved.apply {holds : Replay → Prop} (preserved : Preserved holds) {replay : Replay}
    (before : holds replay) (commit : String) (hunk : Hunk)
    : holds (replay.apply commit hunk) := by
  have deleted : holds (replay.applyOld hunk) := by
    unfold applyOld
    split
    · exact before
    · exact preserved.delete _ (preserved.keep _ before)
  unfold Replay.apply applyNew
  split
  · exact deleted
  · next inserts => exact preserved.insert commit inserts (preserved.keep _ deleted)

/-- What each step keeps is kept by all hunks, by induction on the hunks. -/
theorem Preserved.foldl_apply {holds : Replay → Prop} (preserved : Preserved holds)
    {replay : Replay} (before : holds replay) (commit : String) (hunks : List Hunk)
    : holds (hunks.foldl (Replay.apply commit) replay) := by
  induction hunks generalizing replay with
  | nil => exact before
  | cons hunk rest ih => exact ih (preserved.apply before commit hunk)

/-- The lines of a version half replayed. -/
def lines (replay : Replay) : LineReplay where
  old := flatten replay.old
  oldLine := replay.oldLine
  newLine := replay.newLine
  new := flatten replay.new

/-- Keeping lines of runs keeps as many lines. -/
@[simp] theorem lines_keep (replay : Replay) (n : Nat)
    : (replay.keep n).lines = replay.lines.keep n := by
  simp only [keep, lines, LineReplay.keep, flatten_append, flatten_split_snd, ← length_flatten,
    flatten_split_fst]

/-- Deleting lines of runs deletes as many lines. -/
@[simp] theorem lines_delete (replay : Replay) (n : Nat)
    : (replay.delete n).lines = replay.lines.delete n := by
  simp only [delete, lines, LineReplay.delete, flatten_split_snd, ← length_flatten,
    flatten_split_fst]

/-- Inserting a run inserts its lines. -/
@[simp] theorem lines_insert (replay : Replay) (n : Nat) (commit : String)
    : (replay.insert n commit).lines = replay.lines.insert n commit := by
  simp [insert, lines, LineReplay.insert, origins]

/-- A hunk does the same to runs and to lines, by cases on which of its parts are there. -/
theorem lines_apply (commit : String) (replay : Replay) (hunk : Hunk)
    : (replay.apply commit hunk).lines = replay.lines.apply commit hunk := by
  have deleted : (replay.applyOld hunk).lines
      = if hunk.oldLength = 0 then replay.lines
        else (replay.lines.keep (hunk.oldStart - replay.lines.oldLine)).delete hunk.oldLength := by
    unfold applyOld
    split
    · rfl
    · rw [lines_delete, lines_keep]
      rfl
  unfold apply applyNew LineReplay.apply
  simp only [← deleted]
  split
  · rfl
  · rw [lines_insert, lines_keep]
    rfl

/-- Hunks do the same to runs and to lines, by induction on the hunks. -/
theorem lines_foldl_apply (commit : String) (replay : Replay) (hunks : List Hunk)
    : (hunks.foldl (apply commit) replay).lines
      = hunks.foldl (LineReplay.apply commit) replay.lines := by
  induction hunks generalizing replay with
  | nil => rfl
  | cons hunk rest ih =>
      rw [List.foldl_cons, List.foldl_cons, ih, lines_apply]

/-- A replay of runs ends with the lines with which the replay of lines ends. -/
theorem flatten_finish (replay : Replay) : flatten replay.finish = replay.lines.finish := by
  simp [finish, lines, LineReplay.finish]

end Replay

/-- The lines behind a commit depend on the lines before it alone. -/
theorem flatten_step (segments : List Segment) (hunks : List Hunk) (commit : String)
    : flatten (step segments hunks commit)
      = LineReplay.step (flatten segments) hunks commit := by
  rw [step, Replay.flatten_finish, Replay.lines_foldl_apply]
  rfl

end SourceView.Segment
