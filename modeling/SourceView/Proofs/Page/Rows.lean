import SourceView.Blame.Row
import SourceView.Proofs.Blame.Hunks

/-! The rows of a change that stand for what its hunks delete and insert.
The rows of a hunk begin at the lines that it names, or at those that were reached if they lie
behind. Hunks that fit are all met where they stand, and no hunks make a line show twice.
-/

namespace SourceView

-----------------------------------------------------------------------------------------
-- Rows of one side
-----------------------------------------------------------------------------------------

/-- A row of a line that was deleted. -/
def DiffRow.isLeft : DiffRow → Bool
  | .left .. => true
  | _ => false

/-- A row of a line that was inserted. -/
def DiffRow.isRight : DiffRow → Bool
  | .right .. => true
  | _ => false

namespace Sides

variable (sides : Sides)

/-- The row of an old line that was deleted. -/
def leftRow (line : Nat) : DiffRow :=
  .left line (commitAt sides.blame line) (lineAt sides.oldLines line)

/-- The row of a new line that was inserted. -/
def rightRow (line : Nat) : DiffRow :=
  .right line (commitAt sides.future line) (lineAt sides.newLines line)

/-- Deleted lines are rows on the left. -/
theorem deleted_eq (first count : Nat)
    : sides.deleted first count = (List.range' first count).map sides.leftRow := by
  rw [List.range'_eq_map_range, List.map_map]
  rfl

/-- Inserted lines are rows on the right. -/
theorem inserted_eq (first count : Nat)
    : sides.inserted first count = (List.range' first count).map sides.rightRow := by
  rw [List.range'_eq_map_range, List.map_map]
  rfl

@[simp] theorem filter_isLeft_map_leftRow (lines : List Nat)
    : (lines.map sides.leftRow).filter DiffRow.isLeft = lines.map sides.leftRow := by
  simp [List.filter_eq_self, leftRow, DiffRow.isLeft]

@[simp] theorem filter_isRight_map_leftRow (lines : List Nat)
    : (lines.map sides.leftRow).filter DiffRow.isRight = [] := by
  simp [leftRow, DiffRow.isRight]

@[simp] theorem filter_isLeft_map_rightRow (lines : List Nat)
    : (lines.map sides.rightRow).filter DiffRow.isLeft = [] := by
  simp [rightRow, DiffRow.isLeft]

@[simp] theorem filter_isRight_map_rightRow (lines : List Nat)
    : (lines.map sides.rightRow).filter DiffRow.isRight = lines.map sides.rightRow := by
  simp [List.filter_eq_self, rightRow, DiffRow.isRight]

/-- An unchanged stretch has no row of one side, whether it is shown whole or not. -/
theorem not_oneSided_of_mem_stretch {old new count : Nat} {row : DiffRow}
    (member : row ∈ sides.stretch old new count)
    : row.isLeft = false ∧ row.isRight = false := by
  have unchanged : ∀ {old new count}, row ∈ sides.unchanged old new count →
      row.isLeft = false ∧ row.isRight = false := by
    intro old new count member
    obtain ⟨_, _, rfl⟩ := List.mem_map.mp member
    exact ⟨rfl, rfl⟩
  rw [stretch] at member
  split at member
  · exact unchanged member
  · rw [List.mem_append, List.mem_append] at member
    rcases member with (first | hidden) | last
    · exact unchanged first
    · obtain rfl := List.eq_of_mem_replicate hidden
      exact ⟨rfl, rfl⟩
    · exact unchanged last

/-- An unchanged stretch has no row on the left alone. -/
@[simp] theorem filter_isLeft_stretch (old new count : Nat)
    : (sides.stretch old new count).filter DiffRow.isLeft = [] := by
  rw [List.filter_eq_nil_iff]
  intro row member
  simp [(sides.not_oneSided_of_mem_stretch member).1]

/-- An unchanged stretch has no row on the right alone. -/
@[simp] theorem filter_isRight_stretch (old new count : Nat)
    : (sides.stretch old new count).filter DiffRow.isRight = [] := by
  rw [List.filter_eq_nil_iff]
  intro row member
  simp [(sides.not_oneSided_of_mem_stretch member).2]

end Sides

-----------------------------------------------------------------------------------------
-- Where the rows of hunks begin
-----------------------------------------------------------------------------------------

/-- A hunk with the lines at which its rows begin. -/
structure PlacedHunk where
  hunk : Hunk
  old : Nat
  new : Nat

namespace PlacedHunk

/-- The old lines that are shown as deleted. -/
def deletes (placed : PlacedHunk) : List Nat :=
  List.range' placed.old placed.hunk.oldLength

/-- The new lines that are shown as inserted. -/
def inserts (placed : PlacedHunk) : List Nat :=
  List.range' placed.new placed.hunk.newLength

/-- A hunk whose rows begin at the lines that it names. -/
def atHome (hunk : Hunk) : PlacedHunk :=
  ⟨hunk, hunk.oldFirst, hunk.newFirst⟩

end PlacedHunk

/-- Where the rows of hunks begin, from a line on each side on. -/
def placeHunks (old new : Nat) : List Hunk → List PlacedHunk
  | [] => []
  | hunk :: rest =>
    let oldLine := max old hunk.oldFirst
    let reached := new + (oldLine - old)
    let newLine := max reached hunk.newFirst
    ⟨hunk, oldLine, newLine⟩
      :: placeHunks (oldLine + hunk.oldLength + (newLine - reached)) (newLine + hunk.newLength) rest

/-- The lines before those that a hunk deletes end one line before them. -/
theorem linesBefore_old (hunk : Hunk)
    : Sides.linesBefore hunk.oldStart hunk.oldLength = hunk.oldFirst - 1 := by
  unfold Sides.linesBefore Hunk.oldFirst
  split <;> rfl

/-- The lines before those that a hunk inserts end one line before them. -/
theorem linesBefore_new (hunk : Hunk)
    : Sides.linesBefore hunk.newStart hunk.newLength = hunk.newFirst - 1 := by
  unfold Sides.linesBefore Hunk.newFirst
  split <;> rfl

/-- The rows of a hunk begin at its place, behind the unchanged lines before it. -/
theorem Sides.rows_cons (sides : Sides) {old new oldLine reached newLine : Nat} {hunk : Hunk}
    (oldPositive : 1 ≤ old) (newPositive : 1 ≤ new) (oldPlace : oldLine = max old hunk.oldFirst)
    (level : reached = new + (oldLine - old)) (newPlace : newLine = max reached hunk.newFirst)
    (rest : List Hunk)
    : sides.rows old new (hunk :: rest)
      = sides.stretch old new (oldLine - old)
        ++ (List.range' oldLine hunk.oldLength).map sides.leftRow
        ++ sides.stretch (oldLine + hunk.oldLength) reached (newLine - reached)
        ++ (List.range' newLine hunk.newLength).map sides.rightRow
        ++ sides.rows (oldLine + hunk.oldLength + (newLine - reached)) (newLine + hunk.newLength)
          rest := by
  have before : linesBefore hunk.oldStart hunk.oldLength - (old - 1) = oldLine - old := by
    rw [linesBefore_old]
    omega
  have between : linesBefore hunk.newStart hunk.newLength - (reached - 1) = newLine - reached := by
    rw [linesBefore_new]
    omega
  have oldThere : old + (oldLine - old) = oldLine := by omega
  have newThere : reached + (newLine - reached) = newLine := by omega
  simp only [rows, before, oldThere, ← level, between, newThere, deleted_eq, inserted_eq]

/-- The rows of one side are those of the hunks at their places, by induction on the hunks. -/
theorem Sides.filter_rows (sides : Sides) {old new : Nat} (oldPositive : 1 ≤ old)
    (newPositive : 1 ≤ new) (hunks : List Hunk)
    : (sides.rows old new hunks).filter DiffRow.isLeft
        = ((placeHunks old new hunks).flatMap PlacedHunk.deletes).map sides.leftRow
      ∧ (sides.rows old new hunks).filter DiffRow.isRight
        = ((placeHunks old new hunks).flatMap PlacedHunk.inserts).map sides.rightRow := by
  induction hunks generalizing old new with
  | nil => simp [rows, placeHunks]
  | cons hunk rest ih =>
      rw [sides.rows_cons oldPositive newPositive rfl rfl rfl]
      simp only [placeHunks, List.filter_append, filter_isLeft_stretch, filter_isRight_stretch,
        filter_isLeft_map_leftRow, filter_isRight_map_leftRow, filter_isLeft_map_rightRow,
        filter_isRight_map_rightRow, List.flatMap_cons, List.map_append, List.nil_append,
        List.append_nil]
      constructor
      · rw [(ih ?_ ?_).1] <;> first | rfl | omega
      · rw [(ih ?_ ?_).2] <;> first | rfl | omega

-----------------------------------------------------------------------------------------
-- The lines of hunks at their places
-----------------------------------------------------------------------------------------

/-- Placing hunks keeps them and their order, by induction on the hunks. -/
@[simp] theorem map_hunk_placeHunks (old new : Nat) (hunks : List Hunk)
    : (placeHunks old new hunks).map PlacedHunk.hunk = hunks := by
  induction hunks generalizing old new with
  | nil => rfl
  | cons hunk rest ih => rw [placeHunks, List.map_cons, ih]

/-- Hunks are placed behind the lines that were reached, by induction on the hunks. -/
theorem le_of_mem_placeHunks {old new : Nat} {hunks : List Hunk} {placed : PlacedHunk}
    (member : placed ∈ placeHunks old new hunks)
    : old ≤ placed.old ∧ new ≤ placed.new := by
  induction hunks generalizing old new with
  | nil => cases member
  | cons hunk rest ih =>
      rcases List.mem_cons.mp member with rfl | later
      · dsimp only
        omega
      · obtain ⟨oldBehind, newBehind⟩ := ih later
        omega

/-- Each hunk is placed behind the ones before it. -/
theorem placeHunks_ordered (old new : Nat) (hunks : List Hunk)
    : (placeHunks old new hunks).Pairwise fun placed later =>
        placed.old + placed.hunk.oldLength ≤ later.old
        ∧ placed.new + placed.hunk.newLength ≤ later.new := by
  induction hunks generalizing old new with
  | nil => exact List.Pairwise.nil
  | cons hunk rest ih =>
      refine List.pairwise_cons.mpr ⟨?_, ih _ _⟩
      intro later member
      obtain ⟨oldBehind, newBehind⟩ := le_of_mem_placeHunks member
      exact ⟨Nat.le_trans (Nat.le_add_right _ _) oldBehind, newBehind⟩

/-- No line is deleted twice, and none is inserted twice. -/
theorem placeHunks_ascending (old new : Nat) (hunks : List Hunk)
    : ((placeHunks old new hunks).flatMap PlacedHunk.deletes).Pairwise (· < ·)
      ∧ ((placeHunks old new hunks).flatMap PlacedHunk.inserts).Pairwise (· < ·) := by
  have ordered := placeHunks_ordered old new hunks
  simp only [List.pairwise_flatMap, PlacedHunk.deletes, PlacedHunk.inserts, List.mem_range'_1]
  refine ⟨⟨fun _ _ => List.pairwise_lt_range', ?_⟩, fun _ _ => List.pairwise_lt_range', ?_⟩
  · refine ordered.imp fun {placed later} behind line inside other there => ?_
    omega
  · refine ordered.imp fun {placed later} behind line inside other there => ?_
    omega

/-- Placed hunks delete as many lines as they say, by induction on the hunks. -/
theorem length_flatMap_deletes (placed : List PlacedHunk)
    : (placed.flatMap PlacedHunk.deletes).length
      = Blame.deletedCount (placed.map PlacedHunk.hunk) := by
  induction placed with
  | nil => rfl
  | cons first rest ih => simp [PlacedHunk.deletes, ih]

/-- Placed hunks insert as many lines as they say, by induction on the hunks. -/
theorem length_flatMap_inserts (placed : List PlacedHunk)
    : (placed.flatMap PlacedHunk.inserts).length
      = Blame.insertedCount (placed.map PlacedHunk.hunk) := by
  induction placed with
  | nil => rfl
  | cons first rest ih => simp [PlacedHunk.inserts, ih]

/-- Hunks that fit are placed at the lines that they name. -/
theorem placeHunks_of_fits {count old new : Nat} {hunks : List Hunk}
    (fits : Blame.FitsFrom count old new hunks)
    : placeHunks old new hunks = hunks.map PlacedHunk.atHome := by
  induction hunks generalizing old new with
  | nil => rfl
  | cons hunk rest ih =>
      obtain ⟨_, start, level, more⟩ := fits
      have oldLine : max old hunk.oldFirst = hunk.oldFirst := by omega
      have newLine : new + (hunk.oldFirst - old) = hunk.newFirst := by omega
      simp only [placeHunks, oldLine, newLine, Nat.max_self, Nat.sub_self, Nat.add_zero]
      rw [← Hunk.oldEnd_eq, ← Hunk.newEnd_eq, ih more]
      rfl

-----------------------------------------------------------------------------------------
-- What rows show
-----------------------------------------------------------------------------------------

/-- What the rows of a change between two texts are made of. -/
def Blame.sides (blame : Blame) (oldText newText : String) : Sides where
  blame := blame.blame.toArray
  future := blame.future.toArray
  oldLines := (Text.lines oldText).toArray
  newLines := (Text.lines newText).toArray

/-- The rows of a change are those of its two sides from their first lines on. -/
theorem Blame.diffRows_eq (blame : Blame) (oldText newText : String)
    : blame.diffRows oldText newText = (blame.sides oldText newText).rows 1 1 blame.hunks := rfl

/-- The old lines that hunks name as deleted. -/
def deletedLines (hunks : List Hunk) : List Nat :=
  hunks.flatMap fun hunk => List.range' hunk.oldFirst hunk.oldLength

/-- The new lines that hunks name as inserted. -/
def insertedLines (hunks : List Hunk) : List Nat :=
  hunks.flatMap fun hunk => List.range' hunk.newFirst hunk.newLength

/-- Rows show what hunks delete and insert: these old lines and these new lines, each with its
commit and its text, once and in order. They are as many as the hunks say, and those that the hunks
name if the hunks lead from some version to a next one.
-/
structure Sides.Show (sides : Sides) (rows : List DiffRow) (hunks : List Hunk)
    (deleted inserted : List Nat) : Prop where
  left : rows.filter DiffRow.isLeft = deleted.map sides.leftRow
  right : rows.filter DiffRow.isRight = inserted.map sides.rightRow
  deletedOnce : deleted.Pairwise (· < ·)
  insertedOnce : inserted.Pairwise (· < ·)
  deletedAll : deleted.length = Blame.deletedCount hunks
  insertedAll : inserted.length = Blame.insertedCount hunks
  named
    : ∀ count, Blame.Fits count hunks →
        deleted = deletedLines hunks ∧ inserted = insertedLines hunks

/-- The rows of any hunks show what the hunks delete and insert. Witness: the lines of the hunks at
the places where their rows begin.
-/
theorem Sides.exists_show_rows (sides : Sides) (hunks : List Hunk)
    : ∃ deleted inserted, sides.Show (sides.rows 1 1 hunks) hunks deleted inserted := by
  obtain ⟨left, right⟩ := sides.filter_rows (Nat.le_refl 1) (Nat.le_refl 1) hunks
  obtain ⟨deletedOnce, insertedOnce⟩ := placeHunks_ascending 1 1 hunks
  refine ⟨_, _, left, right, deletedOnce, insertedOnce, ?_, ?_, ?_⟩
  · rw [length_flatMap_deletes, map_hunk_placeHunks]
  · rw [length_flatMap_inserts, map_hunk_placeHunks]
  · intro count fits
    rw [placeHunks_of_fits fits, List.flatMap_map, List.flatMap_map]
    exact ⟨rfl, rfl⟩

end SourceView
