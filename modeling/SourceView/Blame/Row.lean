import SourceView.Blame.Basic
import SourceView.Text.Lines

/-! Texts beside their blame.
A file is shown line by line. A change is shown in two columns, with what was deleted before what
was inserted, and all but the ends of a long unchanged stretch is left out.
-/

namespace SourceView

/-! ### A file -/

/-- A line of a file, with where it came from and where it goes. -/
structure FileLine where
  number : Nat
  blame : Origin
  future : Origin
  text : String
  deriving DecidableEq, Repr

/-- The lines of a file of this text. -/
def Blame.fileLines (blame : Blame) (text : String) : List FileLine :=
  let texts := (Text.lines text).toArray
  ((blame.blame.zip blame.future).zipIdx).map fun ((came, goes), i) => {
    number := i + 1
    blame := came
    future := goes
    text := texts.getD i "" }

/-! ### A change -/

/-- A row of a change, with the commits that brought the old line and that take the new line
away.
-/
inductive DiffRow where
  /-- A line that is on both sides. -/
  | both (oldLine newLine : Nat) (oldCommit newCommit text : String)
  /-- A line that was deleted. -/
  | left (oldLine : Nat) (oldCommit text : String)
  /-- A line that was inserted. -/
  | right (newLine : Nat) (newCommit text : String)
  /-- Lines that are left out. -/
  | ellipsis
  deriving DecidableEq, Repr

/-- What the rows of a change are made of. -/
structure Sides where
  blame : Array Origin
  future : Array Origin
  oldLines : Array String
  newLines : Array String

namespace Sides

/-- The commit with a line of this number. -/
def commitAt (origins : Array Origin) (line : Nat) : String :=
  ((origins[line - 1]?).map Origin.commit).getD ""

/-- The line of this number. -/
def lineAt (lines : Array String) (line : Nat) : String :=
  lines.getD (line - 1) ""

/-- Unchanged lines from a line on each side on. -/
def unchanged (sides : Sides) (old new count : Nat) : List DiffRow :=
  (List.range count).map fun k =>
    .both (old + k) (new + k) (commitAt sides.blame (old + k)) (commitAt sides.future (new + k))
      ((sides.newLines[new + k - 1]?).getD (lineAt sides.oldLines (old + k)))

/-- The longest unchanged stretch that is shown whole. -/
def longestShown : Nat := 9

/-- How many lines of a longer stretch are shown at each end. -/
def edge : Nat := 3

/-- How many rows stand for the lines that are left out. -/
def ellipsisRows : Nat := 3

/-- An unchanged stretch from a line on each side on. -/
def stretch (sides : Sides) (old new count : Nat) : List DiffRow :=
  if count ≤ longestShown then sides.unchanged old new count
  else
    sides.unchanged old new edge ++ List.replicate ellipsisRows .ellipsis
      ++ sides.unchanged (old + (count - edge)) (new + (count - edge)) edge

/-- Deleted lines from a line on. -/
def deleted (sides : Sides) (old count : Nat) : List DiffRow :=
  (List.range count).map fun k =>
    .left (old + k) (commitAt sides.blame (old + k)) (lineAt sides.oldLines (old + k))

/-- Inserted lines from a line on. -/
def inserted (sides : Sides) (new count : Nat) : List DiffRow :=
  (List.range count).map fun k =>
    .right (new + k) (commitAt sides.future (new + k)) (lineAt sides.newLines (new + k))

/-- How many lines stand before a part of a hunk, which may be empty. -/
def linesBefore (start length : Nat) : Nat :=
  if length = 0 then start else start - 1

/-- The rows from a line on each side on, up to the end of both texts. -/
def rows (sides : Sides) (old new : Nat) : List Hunk → List DiffRow
  | [] =>
    sides.stretch old new (max sides.blame.size sides.oldLines.size - (old - 1))
  | hunk :: rest =>
    let before := linesBefore hunk.oldStart hunk.oldLength - (old - 1)
    let oldEnd := old + before + hunk.oldLength
    let between := linesBefore hunk.newStart hunk.newLength - (new + before - 1)
    let newEnd := new + before + between + hunk.newLength
    sides.stretch old new before
      ++ sides.deleted (old + before) hunk.oldLength
      ++ sides.stretch oldEnd (new + before) between
      ++ sides.inserted (new + before + between) hunk.newLength
      ++ sides.rows (oldEnd + between) newEnd rest

end Sides

/-- The rows of a change between these texts. -/
def Blame.diffRows (blame : Blame) (oldText newText : String) : List DiffRow :=
  let sides : Sides := {
    blame := blame.blame.toArray
    future := blame.future.toArray
    oldLines := (Text.lines oldText).toArray
    newLines := (Text.lines newText).toArray }
  sides.rows 1 1 blame.hunks

end SourceView
