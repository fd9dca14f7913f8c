import Mathlib
import SourceView.Proofs.Blame.Attribution
import SourceView.Proofs.Blame.WordReplays
import SourceView.Proofs.Log.Records
import SourceView.Proofs.Page.Rows
import SourceView.Proofs.Text.Lines

/-! The rows of a change written with machine words.
The numbers of the next lines go from row to row and jump over what is left out. They stay words as
long as those behind the last lines are, so that a blame and its rows are never cut short.
-/

namespace SourceView

open Segment Blame

namespace Words

-----------------------------------------------------------------------------------------
-- Rows, one after the other
-----------------------------------------------------------------------------------------

/-- The rows so far, and the numbers of the next line on both sides. -/
structure RowWriter where
  oldLine : Nat := 1
  newLine : Nat := 1
  rows : List DiffRow := []

/-- The commit with a line of this number. -/
def commitAt? (origins : Array Origin) (line : Nat) : Option String := do
  let index ← sub? line 1
  return ((origins[index]?).map Origin.commit).getD ""

/-- The line of this number. -/
def lineAt? (lines : Array String) (line : Nat) : Option String := do
  let index ← sub? line 1
  return lines.getD index ""

/-- Do something a number of times. -/
def repeat? {σ : Type} (act? : σ → Option σ) : Nat → σ → Option σ
  | 0, state => some state
  | count + 1, state => do
    let next ← act? state
    repeat? act? count next

namespace RowWriter

variable (sides : Sides)

/-- The row of a line that is on both sides. -/
def both? (writer : RowWriter) : Option RowWriter := do
  let new ← sub? writer.newLine 1
  let oldText ← lineAt? sides.oldLines writer.oldLine
  let oldCommit ← commitAt? sides.blame writer.oldLine
  let newCommit ← commitAt? sides.future writer.newLine
  let text := (sides.newLines[new]?).getD oldText
  let oldLine ← add? writer.oldLine 1
  let newLine ← add? writer.newLine 1
  return {
    oldLine
    newLine
    rows := writer.rows ++ [.both writer.oldLine writer.newLine oldCommit newCommit text] }

/-- The row of a line that was deleted. -/
def left? (writer : RowWriter) : Option RowWriter := do
  let commit ← commitAt? sides.blame writer.oldLine
  let text ← lineAt? sides.oldLines writer.oldLine
  let oldLine ← add? writer.oldLine 1
  return { writer with oldLine, rows := writer.rows ++ [.left writer.oldLine commit text] }

/-- The row of a line that was inserted. -/
def right? (writer : RowWriter) : Option RowWriter := do
  let commit ← commitAt? sides.future writer.newLine
  let text ← lineAt? sides.newLines writer.newLine
  let newLine ← add? writer.newLine 1
  return { writer with newLine, rows := writer.rows ++ [.right writer.newLine commit text] }

/-- An unchanged stretch. The lines that are left out are skipped. -/
def context? (count : Nat) (writer : RowWriter) : Option RowWriter :=
  if count ≤ Sides.longestShown then repeat? (both? sides) count writer
  else do
    let shown ← repeat? (both? sides) Sides.edge writer
    let hidden ← sub? count (2 * Sides.edge)
    let oldLine ← add? shown.oldLine hidden
    let newLine ← add? shown.newLine hidden
    repeat? (both? sides) Sides.edge {
      oldLine
      newLine
      rows := shown.rows ++ List.replicate Sides.ellipsisRows .ellipsis }

/-- The rows of a hunk, and of what is unchanged before it. -/
def hunk? (writer : RowWriter) (hunk : Hunk) : Option RowWriter := do
  let read ← sub? writer.oldLine 1
  let before ←
    writer.context? sides (Sides.linesBefore hunk.oldStart hunk.oldLength - read)
  let deleted ← repeat? (left? sides) hunk.oldLength before
  let written ← sub? deleted.newLine 1
  let between ←
    deleted.context? sides (Sides.linesBefore hunk.newStart hunk.newLength - written)
  repeat? (right? sides) hunk.newLength between

/-- The rows from where a writer is, up to the end of both texts. -/
def rows? (writer : RowWriter) (hunks : List Hunk) : Option (List DiffRow) := do
  let last ← hunks.foldlM (hunk? sides) writer
  let read ← sub? last.oldLine 1
  let whole ← last.context? sides (max sides.blame.size sides.oldLines.size - read)
  return whole.rows

end RowWriter

/-- The rows of a change between these texts. -/
def diffRows? (blame : Blame) (oldText newText : String) : Option (List DiffRow) :=
  ({} : RowWriter).rows? (blame.sides oldText newText) blame.hunks

-----------------------------------------------------------------------------------------
-- Rows whose numbers are words
-----------------------------------------------------------------------------------------

/-- The commit of a line with a positive number has a value. -/
theorem commitAt?_eq (origins : Array Origin) {line : Nat} (positive : 1 ≤ line)
    : commitAt? origins line = some (Sides.commitAt origins line) := by
  rw [commitAt?, sub?_of_le positive]
  rfl

/-- The text of a line with a positive number has a value. -/
theorem lineAt?_eq (lines : Array String) {line : Nat} (positive : 1 ≤ line)
    : lineAt? lines line = some (Sides.lineAt lines line) := by
  rw [lineAt?, sub?_of_le positive]
  rfl

/-- What is done to each state in turn is done as often, by induction on how often. -/
theorem repeat?_eq {σ : Type} {act? : σ → Option σ} {count : Nat} (state : Nat → σ)
    (acts : ∀ k < count, act? (state k) = some (state (k + 1)))
    : repeat? act? count (state 0) = some (state count) := by
  induction count generalizing state with
  | zero => rfl
  | succ count ih =>
      rw [repeat?, acts 0 (Nat.succ_pos count)]
      exact ih (fun k => state (k + 1)) fun k before => acts (k + 1) (Nat.succ_lt_succ before)

variable {sides : Sides} {old new count : Nat} {rows : List DiffRow}

/-- Unchanged lines can be written while their numbers are words, and are the rows without bounds.
-/
theorem repeat?_both (oldPositive : 1 ≤ old) (newPositive : 1 ≤ new)
    (oldFits : old + count < UInt64.size) (newFits : new + count < UInt64.size)
    : repeat? (RowWriter.both? sides) count ⟨old, new, rows⟩
      = some ⟨old + count, new + count, rows ++ sides.unchanged old new count⟩ := by
  have acts : ∀ k < count,
      RowWriter.both? sides ⟨old + k, new + k, rows ++ sides.unchanged old new k⟩
        = some ⟨old + (k + 1), new + (k + 1), rows ++ sides.unchanged old new (k + 1)⟩ := by
    intro k before
    have one : sub? (new + k) 1 = some (new + k - 1) := sub?_of_le (by omega)
    have oldNext : add? (old + k) 1 = some (old + k + 1) := add?_of_lt (by omega)
    have newNext : add? (new + k) 1 = some (new + k + 1) := add?_of_lt (by omega)
    have oldThere : 1 ≤ old + k := by omega
    have newThere : 1 ≤ new + k := by omega
    simp [RowWriter.both?, one, lineAt?_eq _ oldThere, commitAt?_eq _ oldThere,
      commitAt?_eq _ newThere, oldNext, newNext, Sides.unchanged, List.range_succ, Nat.add_assoc]
  have done := repeat?_eq
    (fun k => (⟨old + k, new + k, rows ++ sides.unchanged old new k⟩ : RowWriter)) acts
  simpa [Sides.unchanged] using done

/-- Deleted lines can be written while their numbers are words, and are the rows without bounds. -/
theorem repeat?_left (positive : 1 ≤ old) (fits : old + count < UInt64.size)
    : repeat? (RowWriter.left? sides) count ⟨old, new, rows⟩
      = some ⟨old + count, new, rows ++ sides.deleted old count⟩ := by
  have acts : ∀ k < count,
      RowWriter.left? sides ⟨old + k, new, rows ++ sides.deleted old k⟩
        = some ⟨old + (k + 1), new, rows ++ sides.deleted old (k + 1)⟩ := by
    intro k before
    have next : add? (old + k) 1 = some (old + k + 1) := add?_of_lt (by omega)
    have there : 1 ≤ old + k := by omega
    simp [RowWriter.left?, lineAt?_eq _ there, commitAt?_eq _ there, next, Sides.deleted,
      List.range_succ, Nat.add_assoc]
  have done := repeat?_eq (fun k => (⟨old + k, new, rows ++ sides.deleted old k⟩ : RowWriter)) acts
  simpa [Sides.deleted] using done

/-- Inserted lines can be written while their numbers are words, and are the rows without bounds. -/
theorem repeat?_right (positive : 1 ≤ new) (fits : new + count < UInt64.size)
    : repeat? (RowWriter.right? sides) count ⟨old, new, rows⟩
      = some ⟨old, new + count, rows ++ sides.inserted new count⟩ := by
  have acts : ∀ k < count,
      RowWriter.right? sides ⟨old, new + k, rows ++ sides.inserted new k⟩
        = some ⟨old, new + (k + 1), rows ++ sides.inserted new (k + 1)⟩ := by
    intro k before
    have next : add? (new + k) 1 = some (new + k + 1) := add?_of_lt (by omega)
    have there : 1 ≤ new + k := by omega
    simp [RowWriter.right?, lineAt?_eq _ there, commitAt?_eq _ there, next, Sides.inserted,
      List.range_succ, Nat.add_assoc]
  have done := repeat?_eq (fun k => (⟨old, new + k, rows ++ sides.inserted new k⟩ : RowWriter)) acts
  simpa [Sides.inserted] using done

/-- An unchanged stretch is written with words, whether it is shown whole or not. -/
theorem context?_eq (oldPositive : 1 ≤ old) (newPositive : 1 ≤ new)
    (oldFits : old + count < UInt64.size) (newFits : new + count < UInt64.size)
    : RowWriter.context? sides count ⟨old, new, rows⟩
      = some ⟨old + count, new + count, rows ++ sides.stretch old new count⟩ := by
  unfold RowWriter.context? Sides.stretch
  split
  · exact repeat?_both oldPositive newPositive oldFits newFits
  · next long =>
      simp only [Sides.longestShown, Nat.not_le] at long
      have edge : Sides.edge = 3 := rfl
      have shown : repeat? (RowWriter.both? sides) Sides.edge ⟨old, new, rows⟩
          = some ⟨old + Sides.edge, new + Sides.edge,
            rows ++ sides.unchanged old new Sides.edge⟩ :=
        repeat?_both oldPositive newPositive (by omega) (by omega)
      have hidden : sub? count (2 * Sides.edge) = some (count - 2 * Sides.edge) :=
        sub?_of_le (by omega)
      have oldNext : add? (old + Sides.edge) (count - 2 * Sides.edge)
          = some (old + (count - Sides.edge)) := by
        rw [add?_of_lt (by omega)]
        congr 1
        omega
      have newNext : add? (new + Sides.edge) (count - 2 * Sides.edge)
          = some (new + (count - Sides.edge)) := by
        rw [add?_of_lt (by omega)]
        congr 1
        omega
      refine Option.bind_eq_some_iff.mpr ⟨_, shown, ?_⟩
      refine Option.bind_eq_some_iff.mpr ⟨_, hidden, ?_⟩
      refine Option.bind_eq_some_iff.mpr ⟨_, oldNext, ?_⟩
      refine Option.bind_eq_some_iff.mpr ⟨_, newNext, ?_⟩
      rw [repeat?_both (by omega) (by omega) (by omega) (by omega)]
      have oldEnd : old + (count - Sides.edge) + Sides.edge = old + count := by omega
      have newEnd : new + (count - Sides.edge) + Sides.edge = new + count := by omega
      rw [oldEnd, newEnd, List.append_assoc, List.append_assoc, List.append_assoc]

-----------------------------------------------------------------------------------------
-- Rows of hunks that fit
-----------------------------------------------------------------------------------------

/-- The rows of a hunk that stands where it says, and of what is unchanged before it. -/
def rowsOfHunk (sides : Sides) (old new : Nat) (hunk : Hunk) : List DiffRow :=
  sides.stretch old new (hunk.oldFirst - old) ++ sides.deleted hunk.oldFirst hunk.oldLength
    ++ sides.inserted hunk.newFirst hunk.newLength

variable {after : Nat} {hunk : Hunk} {hunks rest : List Hunk}

/-- The rows of hunks are those of the first one, and behind it those of the others. -/
theorem rows_cons_of_fits (oldPositive : 1 ≤ old) (newPositive : 1 ≤ new)
    (fits : FitsFrom count old new (hunk :: rest))
    : sides.rows old new (hunk :: rest)
      = rowsOfHunk sides old new hunk ++ sides.rows hunk.oldEnd hunk.newEnd rest := by
  obtain ⟨-, start, level, -⟩ := fits
  have oldPlace : hunk.oldFirst = max old hunk.oldFirst := by omega
  have reached : hunk.newFirst = new + (hunk.oldFirst - old) := by omega
  rw [sides.rows_cons oldPositive newPositive oldPlace reached (Nat.max_self _).symm,
    ← sides.deleted_eq, ← sides.inserted_eq, Nat.sub_self, rowsOfHunk]
  have nothing : sides.stretch (hunk.oldFirst + hunk.oldLength) hunk.newFirst 0 = [] := rfl
  rw [nothing, List.append_nil]
  rfl

/-- A hunk that fits can be written where its lines end with words, and its rows are those without
bounds.
-/
theorem hunk?_eq (oldPositive : 1 ≤ old) (newPositive : 1 ≤ new)
    (fits : FitsFrom count old new (hunk :: rest)) (oldFits : hunk.oldEnd < UInt64.size)
    (newFits : hunk.newEnd < UInt64.size)
    : RowWriter.hunk? sides ⟨old, new, rows⟩ hunk
      = some ⟨hunk.oldEnd, hunk.newEnd, rows ++ rowsOfHunk sides old new hunk⟩ := by
  obtain ⟨-, start, level, -⟩ := fits
  have oldEnd := hunk.oldEnd_eq
  have newEnd := hunk.newEnd_eq
  have before : Sides.linesBefore hunk.oldStart hunk.oldLength - (old - 1)
      = hunk.oldFirst - old := by
    rw [linesBefore_old]
    omega
  have between : Sides.linesBefore hunk.newStart hunk.newLength - (hunk.newFirst - 1) = 0 := by
    rw [linesBefore_new]
    omega
  have oldThere : old + (hunk.oldFirst - old) = hunk.oldFirst := by omega
  have newThere : new + (hunk.oldFirst - old) = hunk.newFirst := by omega
  have unchanged : RowWriter.context? sides (hunk.oldFirst - old) ⟨old, new, rows⟩
      = some ⟨hunk.oldFirst, hunk.newFirst,
        rows ++ sides.stretch old new (hunk.oldFirst - old)⟩ := by
    rw [context?_eq oldPositive newPositive (by omega) (by omega), oldThere, newThere]
  have written : sub? hunk.newFirst 1 = some (hunk.newFirst - 1) := sub?_of_le (by omega)
  refine Option.bind_eq_some_iff.mpr ⟨_, sub?_of_le oldPositive, ?_⟩
  rw [before]
  refine Option.bind_eq_some_iff.mpr ⟨_, unchanged, ?_⟩
  refine Option.bind_eq_some_iff.mpr ⟨_, repeat?_left (by omega) (by omega), ?_⟩
  refine Option.bind_eq_some_iff.mpr ⟨_, written, ?_⟩
  rw [between]
  -- The two sides are level behind the deleted lines, so nothing stands before the inserted ones
  refine Option.bind_eq_some_iff.mpr ⟨_, rfl, ?_⟩
  rw [repeat?_right (by omega) (by omega), rowsOfHunk, ← List.append_assoc, ← List.append_assoc]
  rfl

/-- The rows of hunks that lead from `count` lines to `after` are written with words, if the lines
of the old text and the numbers that they get on the new side are words. The rows go on to the end
of the longer of the old text and its blame. By induction on the hunks.
-/
theorem rows?_eq (oldPositive : 1 ≤ old) (newPositive : 1 ≤ new)
    (fits : FitsFrom count old new hunks)
    (long : count + new + insertedCount hunks ≤ after + old + deletedCount hunks)
    (short : count + 1 < UInt64.size)
    (oldFits : max sides.blame.size sides.oldLines.size + 1 < UInt64.size)
    (newFits : after + 1 + (max sides.blame.size sides.oldLines.size - count) < UInt64.size)
    : RowWriter.rows? sides ⟨old, new, rows⟩ hunks = some (rows ++ sides.rows old new hunks) := by
  induction hunks generalizing old new rows with
  | nil =>
      have start : old ≤ count + 1 := fits
      simp only [insertedCount, deletedCount, List.foldr_nil] at long
      let left := max sides.blame.size sides.oldLines.size - (old - 1)
      have whole : RowWriter.context? sides left ⟨old, new, rows⟩
          = some ⟨old + left, new + left, rows ++ sides.stretch old new left⟩ :=
        context?_eq oldPositive newPositive (by omega) (by omega)
      refine Option.bind_eq_some_iff.mpr ⟨_, sub?_of_le oldPositive, ?_⟩
      exact Option.bind_eq_some_iff.mpr ⟨_, whole, rfl⟩
  | cons hunk rest ih =>
      have more := fits.2.2.2
      have oldEnd := hunk.oldEnd_eq
      have newEnd := hunk.newEnd_eq
      have start := fits.2.1
      have level := fits.2.2.1
      have surplus : count + hunk.newEnd + insertedCount rest
          ≤ after + hunk.oldEnd + deletedCount rest := by
        rw [insertedCount_cons, deletedCount_cons] at long
        omega
      have oldInside := more.old_add_deletedCount_le
      have newInside := (more.swapped surplus).old_add_deletedCount_le
      have here : RowWriter.hunk? sides ⟨old, new, rows⟩ hunk
          = some ⟨hunk.oldEnd, hunk.newEnd, rows ++ rowsOfHunk sides old new hunk⟩ :=
        hunk?_eq oldPositive newPositive fits (by omega) (by omega)
      have later : RowWriter.rows? sides
          ⟨hunk.oldEnd, hunk.newEnd, rows ++ rowsOfHunk sides old new hunk⟩ rest
          = some (rows ++ rowsOfHunk sides old new hunk
            ++ sides.rows hunk.oldEnd hunk.newEnd rest) :=
        ih (by omega) (by omega) more surplus
      rw [rows_cons_of_fits oldPositive newPositive fits, ← List.append_assoc, ← later]
      unfold RowWriter.rows?
      rw [List.foldlM_cons, here]
      rfl

/-- The rows between a text of as many lines as the blame has and another are written with words. -/
theorem diffRows?_eq {result : Blame} {oldText newText : String} (fits : Fits count result.hunks)
    (short : count + 1 < UInt64.size)
    (whole : (Text.lines oldText).length = result.blame.length)
    (oldFits : result.blame.length + 1 < UInt64.size)
    (newFits
      : lineCountAfter count result.hunks + 1 + (result.blame.length - count) < UInt64.size)
    : diffRows? result oldText newText = some (result.diffRows oldText newText) := by
  have long : count + 1 + insertedCount result.hunks
      ≤ lineCountAfter count result.hunks + 1 + deletedCount result.hunks := by
    have := fits.lineCountAfter_add
    omega
  have length : max (result.sides oldText newText).blame.size
      (result.sides oldText newText).oldLines.size = result.blame.length := by
    simp [sides, whole]
  have written : RowWriter.rows? (result.sides oldText newText) {} result.hunks
      = some ([] ++ (result.sides oldText newText).rows 1 1 result.hunks) :=
    rows?_eq (Nat.le_refl 1) (Nat.le_refl 1) fits long short (by rwa [length]) (by rwa [length])
  rw [diffRows?, written, List.nil_append, Blame.diffRows_eq]

-----------------------------------------------------------------------------------------
-- What is asked of a blame, with its rows
-----------------------------------------------------------------------------------------

section Changes

variable {diffs : List Diff} {diff : Diff} {i : Nat}

/-- The blame at a place among the changes has as many lines as the version there. -/
theorem length_blameAfter (fits : FitInTurn 0 diffs) (count : Nat)
    : (blameAfter diffs count).length = lineCountThrough 0 (diffs.take count) := by
  rw [← List.take_append_drop count diffs] at fits
  exact (attributed_nil.replay (fitInTurn_append.mp fits).1).count

/-- A diff leads from the version that those before it lead to, to the next version. -/
theorem fits_of_getElem? (fits : FitInTurn 0 diffs) (found : diffs[i]? = some diff)
    : Fits (lineCountThrough 0 (diffs.take i)) diff.hunks
      ∧ lineCountThrough 0 (diffs.take (i + 1))
        = lineCountAfter (lineCountThrough 0 (diffs.take i)) diff.hunks := by
  have upTo : diffs.take (i + 1) = diffs.take i ++ [diff] := by
    rw [List.take_add_one, found]
    rfl
  rw [← List.take_append_drop (i + 1) diffs, upTo, List.append_assoc, fitInTurn_append] at fits
  exact ⟨fits.2.1, by rw [upTo, lineCountThrough_append]; rfl⟩

/-- The versions that changes lead to are short if they are in turn. -/
theorem ShortInTurn.take (short : ShortInTurn 0 diffs) (count : Nat)
    : lineCountThrough 0 (diffs.take count) + 1 < UInt64.size :=
  short _ (List.take_prefix count diffs)

variable {history : History} (built : history.Built) {commit path : String} {result : Blame}

include built

/-- What is asked of a file is the blame behind one of its changes, with the hunks of that change.
-/
theorem change_of_ofFile (answered : Blame.ofFile history commit path = .ok result)
    : ∃ i diff,
        (history.changes path)[i]? = some diff
        ∧ result.blame = blameAfter (history.changes path) (i + 1)
        ∧ result.hunks = diff.hunks := by
  unfold Blame.ofFile at answered
  rw [fileDiffs_eq built] at answered
  split at answered
  · cases answered
  · cases placed : position history commit with
    | error cause => simp [placed, bind, Except.bind] at answered
    | ok place =>
        simp only [placed, bind, Except.bind] at answered
        generalize bisect _ 0 _ = count at answered
        cases count with
        | zero => cases answered
        | succ i =>
            cases found : (history.changes path)[i]? with
            | none => simp [found] at answered
            | some latest =>
                simp only [found] at answered
                obtain rfl := Except.ok.inj answered
                exact ⟨i, latest, found, rfl, rfl⟩

/-- What is asked of a change is the blame in front of it, with its hunks. -/
theorem change_of_ofDiff (answered : Blame.ofDiff history commit path = .ok result)
    : ∃ i diff,
        (history.changes path)[i]? = some diff
        ∧ result.blame = blameAfter (history.changes path) i
        ∧ result.hunks = diff.hunks := by
  unfold Blame.ofDiff at answered
  rw [fileDiffs_eq built] at answered
  split at answered
  · cases answered
  · cases placed : position history commit with
    | error cause => simp [placed, bind, Except.bind] at answered
    | ok place =>
        simp only [placed, bind, Except.bind] at answered
        cases found : (history.changes path).findIdx? (·.commit = shortHash commit) with
        | none => simp [found] at answered
        | some i =>
            have inside := (List.findIdx?_eq_some_iff_getElem.mp found).1
            simp only [found, List.getElem?_eq_getElem inside] at answered
            obtain rfl := Except.ok.inj answered
            exact ⟨i, _, List.getElem?_eq_getElem inside, rfl, rfl⟩

end Changes

/-- Nothing overflows in a blame and its rows, and nothing is taken from what is less: in a history
whose diffs fit, and in which no version has more than `2 ^ 64 - 2` lines, everything has a value
with words, and it is the one without bounds. The rows of a file beside itself may go on to twice
its number of lines; they are words because a line takes a byte, at least, and no text takes half of
the address space. Witness: the numbers only grow, and the last ones are the numbers behind the last
lines of two versions.
-/
theorem blames_within_words {log : List UInt8} {history : History}
    (read : History.ofLog log = .ok history)
    (fits : ∀ path, FitInTurn 0 (history.changes path))
    (short : ∀ path, ShortInTurn 0 (history.changes path)) (commit path : String)
    : ofFile history commit path = (Blame.ofFile history commit path).map some
      ∧ ofDiff history commit path = (Blame.ofDiff history commit path).map some
      ∧ (∀ result oldText newText,
        Blame.ofDiff history commit path = .ok result
        → (Text.lines oldText).length = result.blame.length
        → diffRows? result oldText newText = some (result.diffRows oldText newText))
      ∧ ∀ result oldText newText,
          Blame.ofFile history commit path = .ok result
          → (Text.lines oldText).length = result.blame.length
          → (Text.Utf8.bytes oldText).length < UInt64.size / 2
          → diffRows? result oldText newText = some (result.diffRows oldText newText) := by
  have built := History.built_of_ofLog read
  refine ⟨ofFile_eq built (fits path) (short path), ofDiff_eq built (fits path) (short path), ?_,
    ?_⟩
  · intro result oldText newText answered whole
    obtain ⟨i, diff, found, blame, hunks⟩ := change_of_ofDiff built answered
    obtain ⟨fitsHere, after⟩ := fits_of_getElem? (fits path) found
    have length := length_blameAfter (fits path) i
    have shortBefore := (short path).take i
    have shortAfter := (short path).take (i + 1)
    rw [← blame] at length
    rw [← hunks] at fitsHere after
    exact diffRows?_eq fitsHere shortBefore whole (by omega) (by omega)
  · intro result oldText newText answered whole held
    obtain ⟨i, diff, found, blame, hunks⟩ := change_of_ofFile built answered
    obtain ⟨fitsHere, after⟩ := fits_of_getElem? (fits path) found
    have length := length_blameAfter (fits path) (i + 1)
    have few := Text.length_lines_le oldText
    have shortBefore := (short path).take i
    have shortAfter := (short path).take (i + 1)
    rw [← blame] at length
    rw [← hunks] at fitsHere after
    exact diffRows?_eq fitsHere shortBefore whole (by omega) (by omega)

/-- A log of two commits: a file of two lines comes, and its second line is replaced. -/
def twoCommitLog : List UInt8 :=
  Text.Utf8.encode
    ("commit 0123456789abcdef\n--- /dev/null\n+++ a\n@@ -0,0 +1,2 @@-\n".toList
      ++ "commit 123456789abcdef0\n--- a\n+++ a\n@@ -2 +2 @@-\n".toList)

/-- The records of the two commits. -/
def twoCommitRecords : List LogRecord := [
  .commit "0123456789abcdef", .oldPath "/dev/null", .newPath "a", .hunk ⟨0, 0, 1, 2⟩,
  .commit "123456789abcdef0", .oldPath "a", .newPath "a", .hunk ⟨2, 1, 2, 1⟩]

set_option maxRecDepth 4000 in
/-- The log of two commits is read as its records. -/
theorem scan_twoCommitLog : (Log.scan twoCommitLog).Found twoCommitRecords where
  records := by cbv
  complete := by cbv

/-- The history of the two commits. -/
def twoCommitHistory : History :=
  ((({} : Log.Reading).follow? twoCommitRecords).map (·.history)).getD {}

/-- The history of two commits is the one of its log. -/
theorem ofLog_twoCommitLog : History.ofLog twoCommitLog = .ok twoCommitHistory := by
  obtain ⟨reading, followed⟩ := Option.isSome_iff_exists.mp
    (show (({} : Log.Reading).follow? twoCommitRecords).isSome = true from rfl)
  exact Log.ofLog_eq_ok_iff.mpr
    ⟨_, reading, scan_twoCommitLog, followed, by rw [twoCommitHistory, followed]; rfl⟩

/-- The two commits have changed one file, each once. -/
theorem changes_twoCommitHistory (path : String)
    : twoCommitHistory.changes path
      = if "a" = path then [
          ⟨"0123456789abcdef", "a", [⟨0, 0, 1, 2⟩]⟩,
          ⟨"123456789abcdef0", "a", [⟨2, 1, 2, 1⟩]⟩]
        else [] := by
  have diffs : twoCommitHistory.diffs.toList = [
      ⟨"0123456789abcdef", "a", [⟨0, 0, 1, 2⟩]⟩,
      ⟨"123456789abcdef0", "a", [⟨2, 1, 2, 1⟩]⟩] := by
    decide +kernel
  rw [History.changes, diffs]
  by_cases same : "a" = path <;> simp [same]

/-- The blame of the second commit's change. -/
def twoCommitChange : Blame where
  blame := [⟨"0123456789abcdef", 1⟩, ⟨"0123456789abcdef", 2⟩]
  future := [⟨"", 1⟩, ⟨"", 2⟩]
  previous := "0123456789abcdef"
  next := ""
  hunks := [⟨2, 1, 2, 1⟩]

/-- The blame of the file behind the second commit. -/
def twoCommitFile : Blame where
  blame := [⟨"0123456789abcdef", 1⟩, ⟨"123456789abcdef0", 2⟩]
  future := [⟨"", 1⟩, ⟨"", 2⟩]
  previous := "0123456789abcdef"
  next := ""
  hunks := [⟨2, 1, 2, 1⟩]

/-- The second of the two commits has an answer to what it changed. -/
theorem ofDiff_twoCommitHistory
    : Blame.ofDiff twoCommitHistory "123456789abcdef0" "a" = .ok twoCommitChange :=
  Outcome.toOption_eq_some_iff.mp (by decide +kernel)

/-- The file has an answer to what it holds at the second of the two commits. -/
theorem ofFile_twoCommitHistory
    : Blame.ofFile twoCommitHistory "123456789abcdef0" "a" = .ok twoCommitFile :=
  Outcome.toOption_eq_some_iff.mp (by decide +kernel)

/-- The blames of the second commit, and their rows, are written with words. -/
theorem rows_of_twoCommits
    : History.ofLog twoCommitLog = .ok twoCommitHistory
      ∧ ofDiff twoCommitHistory "123456789abcdef0" "a" = .ok (some twoCommitChange)
      ∧ diffRows? twoCommitChange "one\ntwo\n" "one\nthree\n"
        = some [
          .both 1 1 "0123456789abcdef" "" "one",
          .left 2 "0123456789abcdef" "two",
          .right 2 "" "three"]
      ∧ ofFile twoCommitHistory "123456789abcdef0" "a" = .ok (some twoCommitFile)
      ∧ diffRows? twoCommitFile "one\nthree\n" "one\nthree\n"
        = some [
          .both 1 1 "0123456789abcdef" "" "one",
          .left 2 "123456789abcdef0" "three",
          .right 2 "" "three"] := by
  have fits : ∀ path, FitInTurn 0 (twoCommitHistory.changes path) := by
    intro path
    rw [changes_twoCommitHistory]
    split
    · decide
    · trivial
  have short : ∀ path, ShortInTurn 0 (twoCommitHistory.changes path) := by
    intro path
    rw [changes_twoCommitHistory]
    split
    · exact shortInTurn_cons.mpr
        ⟨by decide, shortInTurn_cons.mpr ⟨by decide, shortInTurn_nil.mpr (by decide)⟩⟩
    · exact shortInTurn_nil.mpr (by decide)
  obtain ⟨file, change, changeRows, fileRows⟩ :=
    blames_within_words ofLog_twoCommitLog fits short "123456789abcdef0" "a"
  refine ⟨ofLog_twoCommitLog, ?_, ?_, ?_, ?_⟩
  · rw [change, ofDiff_twoCommitHistory]
    rfl
  · rw [changeRows _ _ _ ofDiff_twoCommitHistory (by decide +kernel)]
    decide +kernel
  · rw [file, ofFile_twoCommitHistory]
    rfl
  · rw [fileRows _ _ _ ofFile_twoCommitHistory (by decide +kernel) (by decide +kernel)]
    decide +kernel

end Words

end SourceView
