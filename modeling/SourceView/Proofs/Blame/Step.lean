import SourceView.Proofs.Blame.Hunks
import SourceView.Proofs.Blame.LineReplay

/-! Where each line goes when fitting hunks are replayed.
Unchanged lines are found where following them leads, inserted lines bear the commit and their own
number, and there are no other lines.
-/

namespace SourceView

open Segment

/-- The lines that a hunk of a commit inserts. -/
def Hunk.lines (hunk : Hunk) (commit : String) : List Origin :=
  ({ count := hunk.newLength, start := hunk.newFirst, commit } : Segment).origins

namespace Blame

-----------------------------------------------------------------------------------------
-- The plain replay of fitting hunks puts pieces of the old version and inserted lines together
-----------------------------------------------------------------------------------------

/-- The lines that are still to be written: the unread ones, which start with number `old`, with
each hunk's lines in place of those that it takes.
-/
def splice (commit : String) : Nat → List Hunk → List Origin → List Origin
  | _, [], unread => unread
  | old, hunk :: rest, unread =>
    unread.take (hunk.oldFirst - old) ++ hunk.lines commit
      ++ splice commit hunk.oldEnd rest (unread.drop (hunk.oldEnd - old))

/-- A fitting hunk reads up to its end and writes what stands before it and its own lines.
Witness: the four cases of which sides of the hunk are there; the start on a side that is not there
is not looked at, but the distance on the other side is the same.
-/
theorem apply_of_fitsFrom {commit : String} {replay : LineReplay} {count : Nat} {hunk : Hunk}
    {rest : List Hunk}
    (fits : FitsFrom count replay.oldLine replay.newLine (hunk :: rest))
    (enough : replay.oldLine + replay.old.length = count + 1)
    : replay.apply commit hunk = {
        old := replay.old.drop (hunk.oldEnd - replay.oldLine)
        oldLine := hunk.oldEnd
        newLine := hunk.newEnd
        new := replay.new ++ replay.old.take (hunk.oldFirst - replay.oldLine)
          ++ hunk.lines commit } := by
  obtain ⟨nonempty, start, between, more⟩ := fits
  have inside := more.old_add_deletedCount_le
  have oldEnd := hunk.oldEnd_eq
  have newEnd := hunk.newEnd_eq
  obtain ⟨gap, oldFirst⟩ : ∃ gap, hunk.oldFirst = replay.oldLine + gap :=
    ⟨hunk.oldFirst - replay.oldLine, by omega⟩
  have newFirst : hunk.newFirst = replay.newLine + gap := by omega
  have before : (replay.old.take gap).length = gap := by
    rw [List.length_take]
    omega
  have taken : ((replay.old.drop gap).take hunk.oldLength).length = hunk.oldLength := by
    rw [List.length_take, List.length_drop]
    omega
  have read : hunk.oldEnd - replay.oldLine = gap + hunk.oldLength := by omega
  have kept : hunk.oldFirst - replay.oldLine = gap := by omega
  rw [read, kept, oldEnd, newEnd, oldFirst, newFirst, ← List.drop_drop]
  by_cases oldEmpty : hunk.oldLength = 0
  · have newStart : hunk.newStart = replay.newLine + gap := by
      rw [← newFirst, Hunk.newFirst, if_neg (nonempty.resolve_left (not_not_intro oldEmpty))]
    have newNonempty := nonempty.resolve_left (not_not_intro oldEmpty)
    simp only [LineReplay.apply, oldEmpty, if_true, newNonempty, if_false, newStart,
      Nat.add_sub_cancel_left, LineReplay.keep, LineReplay.insert, before, Hunk.lines, origins,
      newFirst, List.drop_zero, Nat.add_zero]
  · have oldStart : hunk.oldStart = replay.oldLine + gap := by
      rw [← oldFirst, Hunk.oldFirst, if_neg oldEmpty]
    by_cases newEmpty : hunk.newLength = 0
    · simp only [LineReplay.apply, oldEmpty, if_false, newEmpty, if_true, oldStart,
        Nat.add_sub_cancel_left, LineReplay.keep, LineReplay.delete, before, taken, Hunk.lines,
        origins, List.range_zero, List.map_nil, List.append_nil, Nat.add_zero]
    · have newStart : hunk.newStart = replay.newLine + gap := by
        rw [← newFirst, Hunk.newFirst, if_neg newEmpty]
      simp only [LineReplay.apply, oldEmpty, if_false, newEmpty, oldStart, newStart,
        Nat.add_sub_cancel_left, LineReplay.keep, LineReplay.delete, LineReplay.insert, before,
        taken, Nat.sub_self, List.take_zero, List.length_nil, List.drop_zero, List.append_nil,
        Nat.add_zero, Hunk.lines, origins, newFirst]

/-- Replaying fitting hunks splices them in, by induction on the hunks. -/
theorem finish_foldl_apply {commit : String} {count : Nat} {hunks : List Hunk}
    {replay : LineReplay} (fits : FitsFrom count replay.oldLine replay.newLine hunks)
    (enough : replay.oldLine + replay.old.length = count + 1)
    : (hunks.foldl (LineReplay.apply commit) replay).finish
      = replay.new ++ splice commit replay.oldLine hunks replay.old := by
  induction hunks generalizing replay with
  | nil => rfl
  | cons hunk rest ih =>
      have more := fits.2.2.2
      have inside := more.old_add_deletedCount_le
      have start := fits.2.1
      have oldEnd := hunk.oldEnd_eq
      rw [List.foldl_cons, apply_of_fitsFrom fits enough, ih more]
      · simp only [splice, List.append_assoc]
      · simp only [List.length_drop]
        omega

/-- The lines behind a commit are those before it, with the inserted ones spliced in for the deleted
ones.
-/
theorem flatten_step_eq_splice {segments : List Segment} {hunks : List Hunk} {commit : String}
    (fits : Fits (flatten segments).length hunks)
    : flatten (step segments hunks commit) = splice commit 1 hunks (flatten segments) := by
  have start : FitsFrom (flatten segments).length 1 1 hunks := fits
  rw [flatten_step, LineReplay.step, finish_foldl_apply start (Nat.add_comm _ _), List.nil_append]

-----------------------------------------------------------------------------------------
-- The lines behind a splice
-----------------------------------------------------------------------------------------

variable {commit : String} {count old new : Nat} {hunk : Hunk} {hunks rest : List Hunk}
  {unread : List Origin}

/-- The lines in front of a hunk are all still unread. -/
theorem FitsFrom.length_take_unread (fits : FitsFrom count old new (hunk :: rest))
    (enough : old + unread.length = count + 1)
    : (unread.take (hunk.oldFirst - old)).length = hunk.oldFirst - old := by
  have := fits.2.2.2.old_add_deletedCount_le
  have := hunk.oldEnd_eq
  rw [List.length_take]
  omega

/-- Behind a hunk as many lines are unread as the version has there. -/
theorem FitsFrom.length_drop_unread (fits : FitsFrom count old new (hunk :: rest))
    (enough : old + unread.length = count + 1)
    : hunk.oldEnd + (unread.drop (hunk.oldEnd - old)).length = count + 1 := by
  have := fits.2.2.2.old_add_deletedCount_le
  have := fits.2.1
  have := hunk.oldEnd_eq
  rw [List.length_drop]
  omega

/-- A splice has as many lines as are unread, less the deleted and with the inserted ones. -/
theorem FitsFrom.length_splice (fits : FitsFrom count old new hunks)
    (enough : old + unread.length = count + 1)
    : (splice commit old hunks unread).length + deletedCount hunks
      = unread.length + insertedCount hunks := by
  induction hunks generalizing old new unread with
  | nil => simp [splice, deletedCount, insertedCount]
  | cons hunk rest ih =>
      have behind := fits.length_drop_unread enough
      have := ih fits.2.2.2 behind
      have := fits.2.1
      have := hunk.oldEnd_eq
      simp only [splice, List.length_append, fits.length_take_unread enough, Hunk.lines,
        length_origins, deletedCount_cons, insertedCount_cons]
      omega

/-- An unchanged line is found where following it leads, by induction on the hunks. -/
theorem FitsFrom.getElem?_splice_of_follow (fits : FitsFrom count old new hunks)
    (enough : old + unread.length = count + 1) {line after : Nat} (reached : old ≤ line)
    (followed : follow hunks line = some after)
    : (splice commit old hunks unread)[after - old]? = unread[line - old]? := by
  induction hunks generalizing old new unread after with
  | nil =>
      rw [follow_nil] at followed
      rw [splice, Option.some.inj followed]
  | cons hunk rest ih =>
      have kept := fits.length_take_unread enough
      have start := fits.2.1
      rcases fits.follow_cases followed with ⟨before, rfl⟩ | ⟨behind, next, found, rfl⟩
      · rw [splice, List.append_assoc, List.getElem?_append_left (by omega),
          List.getElem?_take_of_lt (by omega)]
      · have passed := fits.2.2.2.le_of_follow behind found
        have oldEnd := hunk.oldEnd_eq
        have place : next + hunk.newLength - hunk.oldLength - old
            = (unread.take (hunk.oldFirst - old) ++ hunk.lines commit).length
              + (next - hunk.oldEnd) := by
          rw [List.length_append, kept, Hunk.lines, length_origins]
          simp only
          omega
        rw [splice, place, List.getElem?_append_right (Nat.le_add_right _ _),
          Nat.add_sub_cancel_left,
          ih fits.2.2.2 (fits.length_drop_unread enough) behind found, List.getElem?_drop]
        congr 1
        omega

/-- An inserted line bears the commit and its own number, by induction on the hunks. -/
theorem FitsFrom.getElem?_splice_of_brings (fits : FitsFrom count old new hunks)
    (enough : old + unread.length = count + 1) {line : Nat} (member : hunk ∈ hunks)
    (brings : hunk.Brings line)
    : (splice commit old hunks unread)[line - new]? = some ⟨commit, line⟩ := by
  induction hunks generalizing old new unread with
  | nil => cases member
  | cons first rest ih =>
      have kept := fits.length_take_unread enough
      have behind := fits.length_drop_unread enough
      obtain ⟨_, start, between, more⟩ := fits
      have newEnd := first.newEnd_eq
      rcases List.mem_cons.mp member with rfl | later
      · obtain ⟨reached, inside⟩ := brings
        have place : line - new = (unread.take (hunk.oldFirst - old)).length
            + (line - hunk.newFirst) := by
          omega
        rw [splice, List.append_assoc, place, List.getElem?_append_right (Nat.le_add_right _ _),
          Nat.add_sub_cancel_left,
          List.getElem?_append_left (by rw [Hunk.lines, length_origins]; simp only; omega),
          Hunk.lines, getElem?_origins, if_pos (by simp only; omega)]
        simp only [Option.some.injEq, Origin.mk.injEq, true_and]
        omega
      · have reached := Nat.le_trans (more.le_newFirst later) brings.1
        have place : line - new
            = (unread.take (first.oldFirst - old) ++ first.lines commit).length
              + (line - first.newEnd) := by
          rw [List.length_append, kept, Hunk.lines, length_origins]
          simp only
          omega
        rw [splice, place, List.getElem?_append_right (Nat.le_add_right _ _),
          Nat.add_sub_cancel_left]
        exact ih more behind later

-----------------------------------------------------------------------------------------
-- The lines behind a commit, and the lines before it when it is undone
-----------------------------------------------------------------------------------------

section Step

variable {segments : List Segment} {line after : Nat}

/-- A commit leaves as many lines as its hunks say. -/
theorem length_flatten_step (fits : Fits (flatten segments).length hunks)
    : (flatten (step segments hunks commit)).length
      = lineCountAfter (flatten segments).length hunks := by
  rw [flatten_step_eq_splice fits]
  have spliced : (splice commit 1 hunks (flatten segments)).length + deletedCount hunks
      = (flatten segments).length + insertedCount hunks :=
    FitsFrom.length_splice fits (Nat.add_comm _ _)
  have := fits.lineCountAfter_add
  omega

/-- A line that no hunk deletes keeps its origin. -/
theorem getElem?_step_of_follow (fits : Fits (flatten segments).length hunks)
    (positive : 1 ≤ line) (followed : follow hunks line = some after)
    : (flatten (step segments hunks commit))[after - 1]? = (flatten segments)[line - 1]? := by
  rw [flatten_step_eq_splice fits]
  exact FitsFrom.getElem?_splice_of_follow fits (Nat.add_comm _ _) positive followed

/-- A line that a hunk inserts has its origin in the commit. -/
theorem getElem?_step_of_brings (fits : Fits (flatten segments).length hunks)
    (member : hunk ∈ hunks) (brings : hunk.Brings line)
    : (flatten (step segments hunks commit))[line - 1]? = some ⟨commit, line⟩ := by
  rw [flatten_step_eq_splice fits]
  exact FitsFrom.getElem?_splice_of_brings fits (Nat.add_comm _ _) member brings

/-- Undoing a commit leaves as many lines as there were before it. -/
theorem length_flatten_stepReverse (fits : Fits count hunks)
    (reached : (flatten segments).length = lineCountAfter count hunks)
    : (flatten (stepReverse segments hunks commit)).length = count := by
  rw [stepReverse, length_flatten_step (reached ▸ fits.swapped), reached,
    fits.lineCountAfter_swapped]

/-- A line that the commit kept has the origin that it has behind the commit. -/
theorem getElem?_stepReverse_of_follow (fits : Fits count hunks)
    (reached : (flatten segments).length = lineCountAfter count hunks)
    (positive : 1 ≤ line) (followed : follow hunks line = some after)
    : (flatten (stepReverse segments hunks commit))[line - 1]?
      = (flatten segments)[after - 1]? :=
  getElem?_step_of_follow (reached ▸ fits.swapped) (FitsFrom.le_of_follow fits positive followed)
    (fits.follow_swapped positive followed)

/-- A line that the commit deleted comes back as a line of the commit. -/
theorem getElem?_stepReverse_of_takes (fits : Fits count hunks)
    (reached : (flatten segments).length = lineCountAfter count hunks)
    (member : hunk ∈ hunks) (takes : hunk.Takes line)
    : (flatten (stepReverse segments hunks commit))[line - 1]? = some ⟨commit, line⟩ :=
  getElem?_step_of_brings (reached ▸ fits.swapped) (List.mem_map_of_mem member) takes

end Step

end Blame

end SourceView
