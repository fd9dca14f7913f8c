import Mathlib.Data.List.ReduceOption
import Mathlib.Data.List.SplitBy
import Mathlib.Data.List.TakeWhile
import SourceView.Proofs.Page.Rows

/-! The rows of a change whose hunks lead from one text to the other.
A change is written out line by line, deleted lines before those that are inserted for them. Each
longest run of unchanged lines is shortened if it is long, and every line that is left is shown by a
row with its numbers, its commits and its text.
-/

namespace SourceView

-----------------------------------------------------------------------------------------
-- A change line by line
-----------------------------------------------------------------------------------------

/-- A line of a change, with its number on each side on which it is. -/
inductive ChangeLine where
  | kept (old new : Nat)
  | deleted (old : Nat)
  | inserted (new : Nat)
  deriving DecidableEq, Repr

namespace ChangeLine

/-- The line is on both sides. -/
def isKept : ChangeLine → Bool
  | kept .. => true
  | deleted _ | inserted _ => false

/-- The number of the line on the old side. -/
def oldLine? : ChangeLine → Option Nat
  | kept old _ | deleted old => some old
  | inserted _ => none

/-- The number of the line on the new side. -/
def newLine? : ChangeLine → Option Nat
  | kept _ new | inserted new => some new
  | deleted _ => none

/-- Both lines are unchanged, or both are changed. -/
def alike (line other : ChangeLine) : Bool :=
  line.isKept == other.isKept

end ChangeLine

namespace Blame

/-- Unchanged lines from a line on each side on. -/
def keptLines (old new count : Nat) : List ChangeLine :=
  (List.range count).map fun k => .kept (old + k) (new + k)

/-- The lines that a hunk deletes, and those that it inserts. -/
def hunkLines (hunk : Hunk) : List ChangeLine :=
  (List.range' hunk.oldFirst hunk.oldLength).map .deleted
    ++ (List.range' hunk.newFirst hunk.newLength).map .inserted

/-- The lines of a change of a text of `count` lines, from a line on each side on. -/
def changeLines (count : Nat) : Nat → Nat → List Hunk → List ChangeLine
  | old, new, [] => keptLines old new (count + 1 - old)
  | old, new, hunk :: rest =>
    keptLines old new (hunk.oldFirst - old) ++ hunkLines hunk
      ++ changeLines count hunk.oldEnd hunk.newEnd rest

/-- A run of lines as it is shown. Of more than nine unchanged lines only the first three and the
last three are shown, and three rows stand for the lines between them.
-/
def shorten (run : List ChangeLine) : List (Option ChangeLine) :=
  if run.all ChangeLine.isKept ∧ 9 < run.length then
    (run.take 3).map some ++ [none, none, none] ++ (run.drop (run.length - 3)).map some
  else run.map some

/-- The lines of a change as they are shown, where each longest run of unchanged lines is shortened
for itself.
-/
def shown (lines : List ChangeLine) : List (Option ChangeLine) :=
  (lines.splitBy ChangeLine.alike).flatMap shorten

/-- A row shows a line of a change with its numbers, the commits that brought it and take it away,
and its text, or stands for lines that are left out.
-/
inductive RowShows (blame : Blame) (oldTexts newTexts : List String)
    : Option ChangeLine → DiffRow → Prop
  | kept {i j came goes text} (blamed : blame.blame[i]? = some came)
    (foreseen : blame.future[j]? = some goes) (written : newTexts[j]? = some text)
    : RowShows blame oldTexts newTexts (some (.kept (i + 1) (j + 1)))
        (.both (i + 1) (j + 1) came.commit goes.commit text)
  | deleted {i came text} (blamed : blame.blame[i]? = some came)
    (written : oldTexts[i]? = some text)
    : RowShows blame oldTexts newTexts (some (.deleted (i + 1))) (.left (i + 1) came.commit text)
  | inserted {j goes text} (foreseen : blame.future[j]? = some goes)
    (written : newTexts[j]? = some text)
    : RowShows blame oldTexts newTexts (some (.inserted (j + 1))) (.right (j + 1) goes.commit text)
  | ellipsis : RowShows blame oldTexts newTexts none .ellipsis

-----------------------------------------------------------------------------------------
-- The numbers of the lines of a change
-----------------------------------------------------------------------------------------

/-- An unchanged stretch has as many lines as it should. -/
@[simp] theorem length_keptLines (old new count : Nat)
    : (keptLines old new count).length = count := by
  simp [keptLines]

/-- The lines of an unchanged stretch are kept. -/
theorem isKept_of_mem_keptLines {old new count : Nat} {line : ChangeLine}
    (member : line ∈ keptLines old new count) : line.isKept = true := by
  obtain ⟨k, -, rfl⟩ := List.mem_map.mp member
  rfl

/-- The lines of a hunk are not kept. -/
theorem not_isKept_of_mem_hunkLines {hunk : Hunk} {line : ChangeLine}
    (member : line ∈ hunkLines hunk) : line.isKept = false := by
  rcases List.mem_append.mp member with deleted | inserted
  · obtain ⟨number, -, rfl⟩ := List.mem_map.mp deleted
    rfl
  · obtain ⟨number, -, rfl⟩ := List.mem_map.mp inserted
    rfl

/-- Numbers that go on with the unchanged lines are consecutive. -/
theorem filterMap_keptLines {number : ChangeLine → Option Nat} {old new first : Nat}
    (goes : ∀ k, number (.kept (old + k) (new + k)) = some (first + k)) (count : Nat)
    : (keptLines old new count).filterMap number = List.range' first count := by
  rw [keptLines, List.filterMap_map, List.range'_eq_map_range, ← List.filterMap_eq_map]
  exact congrArg (List.filterMap · (List.range count)) (funext goes)

/-- The lines of an unchanged stretch have the old numbers from its first one on. -/
theorem filterMap_oldLine?_keptLines (old new count : Nat)
    : (keptLines old new count).filterMap ChangeLine.oldLine? = List.range' old count :=
  filterMap_keptLines (fun _ => rfl) count

/-- The lines of an unchanged stretch have the new numbers from its first one on. -/
theorem filterMap_newLine?_keptLines (old new count : Nat)
    : (keptLines old new count).filterMap ChangeLine.newLine? = List.range' new count :=
  filterMap_keptLines (fun _ => rfl) count

/-- The old numbers in a hunk are those of the lines that it deletes. -/
theorem filterMap_oldLine?_hunkLines (hunk : Hunk)
    : (hunkLines hunk).filterMap ChangeLine.oldLine?
      = List.range' hunk.oldFirst hunk.oldLength := by
  simp [hunkLines, List.filterMap_append, List.filterMap_map, Function.comp_def,
    ChangeLine.oldLine?]

/-- The new numbers in a hunk are those of the lines that it inserts. -/
theorem filterMap_newLine?_hunkLines (hunk : Hunk)
    : (hunkLines hunk).filterMap ChangeLine.newLine?
      = List.range' hunk.newFirst hunk.newLength := by
  simp [hunkLines, List.filterMap_append, List.filterMap_map, Function.comp_def,
    ChangeLine.newLine?]

/-- Stretches of numbers that follow each other are one. -/
theorem range'_append_three {first middle last finish : Nat} (front : first ≤ middle)
    (back : middle ≤ last) (all : last ≤ finish)
    : List.range' first (middle - first) ++ List.range' middle (last - middle)
        ++ List.range' last (finish - last)
      = List.range' first (finish - first) := by
  obtain ⟨a, rfl⟩ := Nat.exists_eq_add_of_le front
  obtain ⟨b, rfl⟩ := Nat.exists_eq_add_of_le back
  obtain ⟨c, rfl⟩ := Nat.exists_eq_add_of_le all
  rw [Nat.add_sub_cancel_left, Nat.add_sub_cancel_left, Nat.add_sub_cancel_left,
    List.range'_append_1, Nat.add_assoc, List.range'_append_1]
  congr 1
  omega

variable {count after old new : Nat} {hunks : List Hunk}

/-- Every old line that is still to be read is in the change once, in order, by induction on the
hunks.
-/
theorem FitsFrom.oldLines_changeLines (fits : FitsFrom count old new hunks)
    : (changeLines count old new hunks).filterMap ChangeLine.oldLine?
      = List.range' old (count + 1 - old) := by
  induction hunks generalizing old new with
  | nil => exact filterMap_oldLine?_keptLines old new _
  | cons hunk rest ih =>
      obtain ⟨_, start, _, more⟩ := fits
      have inside := more.old_add_deletedCount_le
      have deleted : hunk.oldLength = hunk.oldEnd - hunk.oldFirst := by
        rw [hunk.oldEnd_eq, Nat.add_sub_cancel_left]
      rw [changeLines, List.filterMap_append, List.filterMap_append, filterMap_oldLine?_keptLines,
        filterMap_oldLine?_hunkLines, ih more, deleted]
      exact range'_append_three start hunk.oldFirst_le_oldEnd (by omega)

/-- Every new line that is still to be written is in the change once, in order, by induction on the
hunks.
-/
theorem FitsFrom.newLines_changeLines (fits : FitsFrom count old new hunks)
    (leads : count + new + insertedCount hunks = after + old + deletedCount hunks)
    : (changeLines count old new hunks).filterMap ChangeLine.newLine?
      = List.range' new (after + 1 - new) := by
  induction hunks generalizing old new with
  | nil =>
      have last : old ≤ count + 1 := fits
      simp only [insertedCount, deletedCount, List.foldr_nil] at leads
      rw [changeLines, filterMap_newLine?_keptLines]
      congr 1
      omega
  | cons hunk rest ih =>
      have inside : FitsFrom after new old ((hunk :: rest).map Hunk.swapped) :=
        fits.swapped (by omega)
      obtain ⟨_, start, between, more⟩ := fits
      simp only [insertedCount_cons, deletedCount_cons] at leads
      have oldEnd := hunk.oldEnd_eq
      have newEnd := hunk.newEnd_eq
      have room := inside.2.2.2.old_add_deletedCount_le
      rw [Hunk.oldEnd_swapped] at room
      have kept : hunk.oldFirst - old = hunk.newFirst - new := by omega
      have inserted : hunk.newLength = hunk.newEnd - hunk.newFirst := by omega
      rw [changeLines, List.filterMap_append, List.filterMap_append, filterMap_newLine?_keptLines,
        filterMap_newLine?_hunkLines, ih more (by omega), kept, inserted]
      exact range'_append_three (by omega) (by omega) (by omega)

/-- A kept line is in an unchanged stretch if both of its numbers lie as far from the stretch's
first ones.
-/
theorem kept_mem_keptLines_iff {length line there : Nat}
    : .kept line there ∈ keptLines old new length
      ↔ old ≤ line ∧ line < old + length ∧ there + old = line + new := by
  simp only [keptLines, List.mem_map, List.mem_range, ChangeLine.kept.injEq]
  constructor
  · rintro ⟨k, short, rfl, rfl⟩
    omega
  · rintro ⟨reached, inside, level⟩
    exact ⟨line - old, by omega, by omega, by omega⟩

/-- An unchanged line is paired with the new line to which following it leads, by induction on the
hunks. Lines are followed as if the two sides had begun with the same number.
-/
theorem FitsFrom.kept_mem_changeLines_iff {line there : Nat} (fits : FitsFrom count old new hunks)
    : .kept line there ∈ changeLines count old new hunks
      ↔ old ≤ line ∧ line ≤ count
        ∧ ∃ next, follow hunks line = some next ∧ there + old = next + new := by
  induction hunks generalizing old new with
  | nil =>
      have last : old ≤ count + 1 := fits
      simp only [changeLines, kept_mem_keptLines_iff, follow_nil, Option.some.injEq,
        exists_eq_left']
      omega
  | cons hunk rest ih =>
      have changed : .kept line there ∉ hunkLines hunk := fun member =>
        Bool.noConfusion (not_isKept_of_mem_hunkLines member)
      obtain ⟨_, start, between, more⟩ := id fits
      have inside := more.old_add_deletedCount_le
      have oldEnd := hunk.oldEnd_eq
      have newEnd := hunk.newEnd_eq
      rw [changeLines, List.mem_append, List.mem_append, kept_mem_keptLines_iff, ih more]
      constructor
      · rintro ((⟨reached, before, level⟩ | member) | ⟨behind, present, next, found, level⟩)
        · exact ⟨reached, by omega, line, fits.follow_of_lt (by omega), level⟩
        · exact absurd member changed
        · have passed := more.le_of_follow behind found
          refine ⟨by omega, present, next + hunk.newLength - hunk.oldLength, ?_, by omega⟩
          rw [fits.follow_of_oldEnd_le behind, found]
          rfl
      · rintro ⟨reached, present, next, followed, level⟩
        rcases fits.follow_cases followed with ⟨before, rfl⟩ | ⟨behind, later, found, rfl⟩
        · exact .inl (.inl ⟨reached, by omega, level⟩)
        · have passed := more.le_of_follow behind found
          exact .inr ⟨behind, present, later, found, by omega⟩

-----------------------------------------------------------------------------------------
-- Runs of unchanged lines, each shortened for itself
-----------------------------------------------------------------------------------------

variable {run changed rest : List ChangeLine}

@[simp] theorem shown_nil : shown [] = [] := rfl

/-- Lines of one kind are alike, each and the next. -/
theorem isChain_alike (kept : Bool) (same : ∀ line ∈ run, line.isKept = kept)
    : run.IsChain fun line other => ChangeLine.alike line other := by
  refine List.Pairwise.isChain (List.pairwise_iff_forall_sublist.mpr ?_)
  intro line other both
  have here := same line (both.subset (by simp))
  have there := same other (both.subset (by simp))
  simp [ChangeLine.alike, here, there]

/-- A run of lines of one kind before one of the other kind is shown for itself. -/
theorem shown_append (kept : Bool) (same : ∀ line ∈ run, line.isKept = kept)
    (ends : ∀ line ∈ rest.head?, line.isKept = !kept)
    : shown (run ++ rest) = shorten run ++ shown rest := by
  by_cases empty : run = []
  · subst empty
    rfl
  · have apart : ∀ line ∈ run.getLast?, ∀ other ∈ rest.head?,
        ChangeLine.alike line other = false := by
      intro line last other first
      have here := same line (List.mem_of_getLast? last)
      simp [ChangeLine.alike, here, ends other first]
    rw [shown, List.splitBy_append apart, List.flatMap_append,
      List.splitBy_of_isChain empty (isChain_alike kept same)]
    simp [shown]

/-- What was changed is shown in full. -/
theorem shorten_changed (same : ∀ line ∈ changed, line.isKept = false)
    : shorten changed = changed.map some := by
  refine if_neg fun long => ?_
  obtain ⟨line, rest, rfl⟩ := List.exists_cons_of_length_pos (Nat.zero_lt_of_lt long.2)
  have kept := List.all_eq_true.mp long.1 line List.mem_cons_self
  rw [same line List.mem_cons_self] at kept
  cases kept

/-- Changed lines are all shown, whatever comes behind them: together with the changed lines there
they are one run.
-/
theorem shown_changed_append (same : ∀ line ∈ changed, line.isKept = false)
    : shown (changed ++ rest) = changed.map some ++ shown rest := by
  have split := (List.takeWhile_append_dropWhile (p := fun line => !line.isKept) (l := rest)).symm
  generalize front : rest.takeWhile (fun line => !line.isKept) = more at split
  generalize back : rest.dropWhile (fun line => !line.isKept) = behind at split
  have others : ∀ line ∈ more, line.isKept = false := by
    intro line member
    rw [← front] at member
    simpa using List.mem_takeWhile_imp member
  have ends : ∀ line ∈ behind.head?, line.isKept = !false := by
    intro line first
    rw [← back] at first
    have := List.head?_dropWhile_not (fun line : ChangeLine => !line.isKept) rest
    rw [first] at this
    simpa using this
  have all : ∀ line ∈ changed ++ more, line.isKept = false := fun line member =>
    (List.mem_append.mp member).elim (same line) (others line)
  rw [split, ← List.append_assoc, shown_append false all ends, shown_append false others ends,
    shorten_changed all, shorten_changed others, List.map_append, List.append_assoc]

/-- Unchanged lines are shortened up to the changed ones behind them, and the rest is shown for
itself.
-/
theorem shown_kept_changed_append (kept : ∀ line ∈ run, line.isKept = true)
    (same : ∀ line ∈ changed, line.isKept = false) (nonempty : changed ≠ [])
    : shown (run ++ changed ++ rest) = shorten run ++ changed.map some ++ shown rest := by
  have ends : ∀ line ∈ (changed ++ rest).head?, line.isKept = !true := by
    intro line first
    rw [List.head?_append_of_ne_nil _ nonempty] at first
    exact same line (List.mem_of_mem_head? first)
  rw [List.append_assoc, shown_append true kept ends, shown_changed_append same,
    List.append_assoc]

/-- Shortening leaves lines of a run out, and does nothing else to them. -/
theorem shorten_sublist (run : List ChangeLine) : (shorten run).reduceOption.Sublist run := by
  have whole (lines : List ChangeLine) : (lines.map some).reduceOption = lines := by
    simp [List.reduceOption]
  unfold shorten
  split
  · next long =>
      have ends : (run.drop (run.length - 3)).Sublist (run.drop 3) :=
        List.drop_sublist_drop_left run (by omega)
      have parts := (List.Sublist.refl (run.take 3)).append ends
      rw [List.take_append_drop] at parts
      rw [List.reduceOption_append, List.reduceOption_append, whole, whole]
      simpa [List.reduceOption] using parts
  · rw [whole]

/-- What is shown of a change are some of its lines, each once and in order. -/
theorem shown_sublist (lines : List ChangeLine) : (shown lines).reduceOption.Sublist lines := by
  have runs (groups : List (List ChangeLine))
      : (groups.flatMap shorten).reduceOption.Sublist groups.flatten := by
    induction groups with
    | nil => exact List.Sublist.slnil
    | cons group rest ih =>
        rw [List.flatMap_cons, List.reduceOption_append, List.flatten_cons]
        exact (shorten_sublist group).append ih
  have all := runs (lines.splitBy ChangeLine.alike)
  rwa [List.flatten_splitBy] at all

end Blame

-----------------------------------------------------------------------------------------
-- Rows
-----------------------------------------------------------------------------------------

namespace Sides

open Blame

/-- The row of a line of a change, or the one that stands for lines that are left out. -/
def row (sides : Sides) : Option ChangeLine → DiffRow
  | some (.kept old new) =>
    .both old new (commitAt sides.blame old) (commitAt sides.future new)
      ((sides.newLines[new - 1]?).getD (lineAt sides.oldLines old))
  | some (.deleted old) => sides.leftRow old
  | some (.inserted new) => sides.rightRow new
  | none => .ellipsis

variable (sides : Sides)

/-- An unchanged stretch is written row by row. -/
theorem unchanged_eq (old new count : Nat)
    : sides.unchanged old new count = (keptLines old new count).map (sides.row ∘ some) := by
  rw [keptLines, List.map_map]
  rfl

/-- The first lines of an unchanged stretch are a shorter stretch. -/
theorem take_keptLines (old new : Nat) {part count : Nat} (short : part ≤ count)
    : (keptLines old new count).take part = keptLines old new part := by
  rw [keptLines, ← List.map_take, List.take_range, Nat.min_eq_left short, keptLines]

/-- The other lines of an unchanged stretch are a later one. -/
theorem drop_keptLines (old new gone count : Nat)
    : (keptLines old new count).drop gone = keptLines (old + gone) (new + gone) (count - gone) := by
  apply List.ext_getElem
  · simp
  · intro k _ _
    simp [keptLines, Nat.add_assoc]

/-- An unchanged stretch is a run that is shortened for itself. -/
theorem stretch_eq (old new count : Nat)
    : sides.stretch old new count = (shorten (keptLines old new count)).map sides.row := by
  have kept : (keptLines old new count).all ChangeLine.isKept = true :=
    List.all_eq_true.mpr fun _ member => isKept_of_mem_keptLines member
  unfold stretch shorten
  by_cases long : 9 < count
  · rw [if_neg (by simp only [longestShown]; omega), if_pos (by simp [kept, long]),
      length_keptLines, take_keptLines old new (by omega), drop_keptLines,
      show count - (count - 3) = 3 by omega]
    simp only [List.map_append, List.map_map, unchanged_eq]
    rfl
  · rw [if_pos (by simp only [longestShown]; omega), if_neg (by simp [long]), unchanged_eq,
      List.map_map]

theorem stretch_zero (old new : Nat) : sides.stretch old new 0 = [] := rfl

/-- The rows of a hunk are the deleted lines on the left, and then the inserted ones on the right.
-/
theorem map_row_hunkLines (hunk : Hunk)
    : ((hunkLines hunk).map some).map sides.row
      = (List.range' hunk.oldFirst hunk.oldLength).map sides.leftRow
        ++ (List.range' hunk.newFirst hunk.newLength).map sides.rightRow := by
  simp only [hunkLines, List.map_append, List.map_map]
  rfl

/-- The rows of fitting hunks are those of the lines of the change that are shown, by induction on
the hunks. A hunk is not empty, and so the unchanged lines before it are a run of their own.
-/
theorem rows_eq {count old new : Nat} {hunks : List Hunk} (fits : FitsFrom count old new hunks)
    (oldPositive : 1 ≤ old) (newPositive : 1 ≤ new)
    (long : max sides.blame.size sides.oldLines.size = count)
    : sides.rows old new hunks = (shown (changeLines count old new hunks)).map sides.row := by
  induction hunks generalizing old new with
  | nil =>
      have last : old ≤ count + 1 := fits
      have kept : ∀ line ∈ keptLines old new (count + 1 - old), line.isKept = true :=
        fun _ => isKept_of_mem_keptLines
      have ends : ∀ line ∈ ([] : List ChangeLine).head?, line.isKept = !true := nofun
      have all := shown_append true kept ends
      rw [List.append_nil, shown_nil, List.append_nil] at all
      rw [rows, long, stretch_eq, changeLines, all,
        show count - (old - 1) = count + 1 - old by omega]
  | cons hunk rest ih =>
      obtain ⟨nonempty, start, between, more⟩ := fits
      have place : hunk.oldFirst = max old hunk.oldFirst := by omega
      have level : hunk.newFirst = new + (hunk.oldFirst - old) := by omega
      have oldEnd := hunk.oldEnd_eq
      have newEnd := hunk.newEnd_eq
      have changes : hunkLines hunk ≠ [] := by
        intro empty
        have lengths := congrArg List.length empty
        simp only [hunkLines, List.length_append, List.length_map, List.length_range',
          List.length_nil] at lengths
        omega
      rw [changeLines, shown_kept_changed_append (fun _ => isKept_of_mem_keptLines)
          (fun _ => not_isKept_of_mem_hunkLines) changes,
        List.map_append, List.map_append, map_row_hunkLines, ← stretch_eq,
        ← ih more (by omega) (by omega),
        sides.rows_cons oldPositive newPositive place level (Nat.max_self _).symm rest]
      simp only [Nat.sub_self, stretch_zero, Nat.add_zero, ← oldEnd, ← newEnd, List.append_nil,
        List.append_assoc]

end Sides

-----------------------------------------------------------------------------------------
-- The numbers that rows bear
-----------------------------------------------------------------------------------------

namespace DiffRow

/-- The number of the old line that a row shows. -/
def oldLine? : DiffRow → Option Nat
  | both old .. | left old .. => some old
  | right .. | ellipsis => none

/-- The number of the new line that a row shows. -/
def newLine? : DiffRow → Option Nat
  | both _ new .. | right new .. => some new
  | left .. | ellipsis => none

end DiffRow

namespace Sides

variable (sides : Sides) (lines : List (Option ChangeLine))

/-- Rows bear the numbers of the lines that they show, on either side. -/
theorem filterMap_map_row {number : DiffRow → Option Nat} {lineNumber : ChangeLine → Option Nat}
    (bears : ∀ line, number (sides.row line) = line.bind lineNumber)
    : (lines.map sides.row).filterMap number = lines.reduceOption.filterMap lineNumber := by
  rw [List.filterMap_map, List.reduceOption, List.filterMap_filterMap]
  exact congrArg (List.filterMap · lines) (funext bears)

/-- The old numbers of rows are those of the lines that they show. -/
theorem filterMap_oldLine?_row
    : (lines.map sides.row).filterMap DiffRow.oldLine?
      = lines.reduceOption.filterMap ChangeLine.oldLine? :=
  sides.filterMap_map_row lines (by rintro (_ | _ | _ | _) <;> rfl)

/-- The new numbers of rows are those of the lines that they show. -/
theorem filterMap_newLine?_row
    : (lines.map sides.row).filterMap DiffRow.newLine?
      = lines.reduceOption.filterMap ChangeLine.newLine? :=
  sides.filterMap_map_row lines (by rintro (_ | _ | _ | _) <;> rfl)

/-- Rows on the left have the old numbers of their lines. -/
theorem filterMap_oldLine?_map_leftRow (numbers : List Nat)
    : (numbers.map sides.leftRow).filterMap DiffRow.oldLine? = numbers := by
  rw [List.filterMap_map]
  exact List.filterMap_some

/-- Rows on the right have the new numbers of their lines. -/
theorem filterMap_newLine?_map_rightRow (numbers : List Nat)
    : (numbers.map sides.rightRow).filterMap DiffRow.newLine? = numbers := by
  rw [List.filterMap_map]
  exact List.filterMap_some

/-- The commit of a line stands at the place of the line's number. -/
theorem commitAt_of_getElem? {origins : List Origin} {i : Nat} {origin : Origin}
    (found : origins[i]? = some origin) : commitAt origins.toArray (i + 1) = origin.commit := by
  simp [commitAt, found]

/-- The text of a line stands at the place of the line's number. -/
theorem lineAt_of_getElem? {texts : List String} {i : Nat} {text : String}
    (found : texts[i]? = some text) : lineAt texts.toArray (i + 1) = text := by
  simp [lineAt, found]

end Sides

/-- The deleted lines are those that a hunk deletes. -/
theorem mem_deletedLines_iff {hunks : List Hunk} {line : Nat}
    : line ∈ deletedLines hunks ↔ ∃ hunk ∈ hunks, hunk.Takes line := by
  simp [deletedLines, Hunk.Takes, Hunk.oldEnd_eq]

/-- The inserted lines are those that a hunk inserts. -/
theorem mem_insertedLines_iff {hunks : List Hunk} {line : Nat}
    : line ∈ insertedLines hunks ↔ ∃ hunk ∈ hunks, hunk.Brings line := by
  simp [insertedLines, Hunk.Brings, Hunk.newEnd_eq]

namespace Sides.Show

variable {sides : Sides} {rows : List DiffRow} {hunks : List Hunk} {deleted inserted : List Nat}
variable {count : Nat}

/-- Rows of deleted lines name each line that a hunk takes once, and no other line. -/
theorem count_left (display : sides.Show rows hunks deleted inserted)
    (fits : Blame.Fits count hunks) (line : Nat)
    : ((rows.filter DiffRow.isLeft).filterMap DiffRow.oldLine?).count line
      = if ∃ hunk ∈ hunks, hunk.Takes line then 1 else 0 := by
  have once : deleted.Nodup := display.deletedOnce.imp Nat.ne_of_lt
  rw [display.left, filterMap_oldLine?_map_leftRow, once.count, (display.named count fits).1]
  simp only [mem_deletedLines_iff]

/-- Rows of inserted lines name each line that a hunk brings once, and no other line. -/
theorem count_right (display : sides.Show rows hunks deleted inserted)
    (fits : Blame.Fits count hunks) (line : Nat)
    : ((rows.filter DiffRow.isRight).filterMap DiffRow.newLine?).count line
      = if ∃ hunk ∈ hunks, hunk.Brings line then 1 else 0 := by
  have once : inserted.Nodup := display.insertedOnce.imp Nat.ne_of_lt
  rw [display.right, filterMap_newLine?_map_rightRow, once.count, (display.named count fits).2]
  simp only [mem_insertedLines_iff]

end Sides.Show

namespace Blame

/-- Each line number of a text has its origin and its text where there is an origin for each line.
-/
theorem exists_of_mem_range' {origins : List Origin} {texts : List String} {number : Nat}
    (level : origins.length = texts.length) (there : number ∈ List.range' 1 texts.length)
    : ∃ i origin text,
        number = i + 1 ∧ origins[i]? = some origin ∧ texts[i]? = some text := by
  rw [List.mem_range'_1] at there
  have known : number - 1 < origins.length := by omega
  have written : number - 1 < texts.length := by omega
  exact ⟨number - 1, _, _, by omega, List.getElem?_eq_getElem known,
    List.getElem?_eq_getElem written⟩

/-- A line that is there on its sides is shown by its row. -/
theorem rowShows_row {blame : Blame} {oldText newText : String} {line : ChangeLine}
    (blamed : blame.blame.length = (Text.lines oldText).length)
    (foreseen : blame.future.length = (Text.lines newText).length)
    (before : ∀ old ∈ line.oldLine?, old ∈ List.range' 1 (Text.lines oldText).length)
    (after : ∀ new ∈ line.newLine?, new ∈ List.range' 1 (Text.lines newText).length)
    : blame.RowShows (Text.lines oldText) (Text.lines newText) (some line)
        ((blame.sides oldText newText).row (some line)) := by
  cases line with
  | kept old new =>
      obtain ⟨i, came, _, rfl, brought, _⟩ := exists_of_mem_range' blamed (before old rfl)
      obtain ⟨j, goes, text, rfl, taken, written⟩ := exists_of_mem_range' foreseen (after new rfl)
      have shows : blame.RowShows (Text.lines oldText) _ _ _ := .kept brought taken written
      simpa [Sides.row, sides, Sides.commitAt_of_getElem? brought,
        Sides.commitAt_of_getElem? taken, written] using shows
  | deleted old =>
      obtain ⟨i, came, text, rfl, brought, written⟩ := exists_of_mem_range' blamed (before old rfl)
      have shows : blame.RowShows _ (Text.lines newText) _ _ := .deleted brought written
      simpa [Sides.row, Sides.leftRow, sides, Sides.commitAt_of_getElem? brought,
        Sides.lineAt_of_getElem? written] using shows
  | inserted new =>
      obtain ⟨j, goes, text, rfl, taken, written⟩ := exists_of_mem_range' foreseen (after new rfl)
      have shows : blame.RowShows (Text.lines oldText) _ _ _ := .inserted taken written
      simpa [Sides.row, Sides.rightRow, sides, Sides.commitAt_of_getElem? taken,
        Sides.lineAt_of_getElem? written] using shows

-----------------------------------------------------------------------------------------
-- The rows of a change
-----------------------------------------------------------------------------------------

/-- The rows of a change whose hunks lead from one text to the other show the lines of the change,
where each longest run of unchanged lines is shortened if it is long. The lines of the change are
the lines of both texts, each once and in order, and unchanged ones are paired as following them
through the hunks says. So each line that a hunk deletes or inserts is shown once, and no line is
shown twice.
-/
theorem diffRows_show_change (blame : Blame) (oldText newText : String)
    (fits : Fits (Text.lines oldText).length blame.hunks)
    (leads : (Text.lines newText).length = lineCountAfter (Text.lines oldText).length blame.hunks)
    (blamed : blame.blame.length = (Text.lines oldText).length)
    (foreseen : blame.future.length = (Text.lines newText).length)
    : let change := changeLines (Text.lines oldText).length 1 1 blame.hunks
      let rows := blame.diffRows oldText newText
      List.Forall₂ (blame.RowShows (Text.lines oldText) (Text.lines newText)) (shown change) rows
      ∧ change.filterMap ChangeLine.oldLine? = List.range' 1 (Text.lines oldText).length
      ∧ change.filterMap ChangeLine.newLine? = List.range' 1 (Text.lines newText).length
      ∧ (∀ old new,
          .kept old new ∈ change
          ↔ 1 ≤ old ∧ old ≤ (Text.lines oldText).length ∧ follow blame.hunks old = some new)
      ∧ (∀ line,
          ((rows.filter DiffRow.isLeft).filterMap DiffRow.oldLine?).count line
          = if ∃ hunk ∈ blame.hunks, hunk.Takes line then 1 else 0)
      ∧ (∀ line,
          ((rows.filter DiffRow.isRight).filterMap DiffRow.newLine?).count line
          = if ∃ hunk ∈ blame.hunks, hunk.Brings line then 1 else 0)
      ∧ (rows.filterMap DiffRow.oldLine?).Pairwise (· < ·)
      ∧ (rows.filterMap DiffRow.newLine?).Pairwise (· < ·) := by
  intro change rows
  have oldLines : change.filterMap ChangeLine.oldLine?
      = List.range' 1 (Text.lines oldText).length := FitsFrom.oldLines_changeLines fits
  have newLines : change.filterMap ChangeLine.newLine?
      = List.range' 1 (Text.lines newText).length :=
    FitsFrom.newLines_changeLines fits (by have := fits.lineCountAfter_add; omega)
  have same : rows = (shown change).map (blame.sides oldText newText).row :=
    Sides.rows_eq _ fits (Nat.le_refl 1) (Nat.le_refl 1) (by simp [blamed])
  have subset := shown_sublist change
  obtain ⟨_, _, display⟩ := (blame.sides oldText newText).exists_show_rows blame.hunks
  refine ⟨?_, oldLines, newLines, ?_, display.count_left fits, display.count_right fits, ?_, ?_⟩
  · rw [same, List.forall₂_map_right_iff, List.forall₂_same]
    rintro (_ | line) member
    · exact .ellipsis
    · have there : line ∈ change := subset.subset (List.reduceOption_mem_iff.mpr member)
      apply rowShows_row blamed foreseen
      · intro old number
        exact oldLines ▸ List.mem_filterMap.mpr ⟨line, there, number⟩
      · intro new number
        exact newLines ▸ List.mem_filterMap.mpr ⟨line, there, number⟩
  · intro old new
    rw [FitsFrom.kept_mem_changeLines_iff fits]
    simp
  · rw [same, Sides.filterMap_oldLine?_row]
    exact List.Pairwise.sublist (oldLines ▸ subset.filterMap _) List.pairwise_lt_range'
  · rw [same, Sides.filterMap_newLine?_row]
    exact List.Pairwise.sublist (newLines ▸ subset.filterMap _) List.pairwise_lt_range'

/-- A change at the start and at the end of a text of twelve lines. Of the eleven lines between,
six are shown.
-/
theorem diffRows_show_farChanges
    : let oldText := "a\nb\nc\nd\ne\nf\ng\nh\ni\nj\nk\nl\n"
      let newText := "A\nB\nb\nc\nd\ne\nf\ng\nh\ni\nj\nk\nl\nm\n"
      let blame : Blame := {
        blame := (List.range 12).map fun k => ⟨"a1", k + 1⟩
        hunks := [⟨1, 1, 1, 2⟩, ⟨12, 0, 14, 1⟩]
        future := (List.range 14).map fun k => ⟨"", k + 1⟩
        previous := "a1"
        next := "" }
      List.Forall₂ (blame.RowShows (Text.lines oldText) (Text.lines newText))
        [some (.deleted 1), some (.inserted 1), some (.inserted 2), some (.kept 2 3),
          some (.kept 3 4), some (.kept 4 5), none, none, none, some (.kept 10 11),
          some (.kept 11 12), some (.kept 12 13), some (.inserted 14)]
        (blame.diffRows oldText newText) := by
  intro oldText newText blame
  have oldCount : (Text.lines oldText).length = 12 := by decide
  have newCount : (Text.lines newText).length = 14 := by decide
  have fits : Fits (Text.lines oldText).length blame.hunks := by rw [oldCount]; decide
  obtain ⟨shows, -⟩ := diffRows_show_change blame oldText newText fits
    (by rw [oldCount, newCount]; decide) oldCount.symm newCount.symm
  convert shows using 1
  rw [oldCount]
  decide

end Blame

end SourceView
