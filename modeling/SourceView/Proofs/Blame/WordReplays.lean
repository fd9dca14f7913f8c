import SourceView.Proofs.Blame.Queries
import SourceView.Proofs.Blame.Words

/-! Blames computed with machine words.
Diffs that fit, and lead to versions that are short enough, are replayed and undone with words as
they are without bounds, and so the lines of a version are told.
-/

namespace SourceView

open Segment Blame

namespace Words

-----------------------------------------------------------------------------------------
-- Replaying and undoing diffs
-----------------------------------------------------------------------------------------

/-- The version that diffs lead to. -/
def replay? (segments : List Segment) (diffs : List Diff) : Option (List Segment) :=
  diffs.foldlM (fun segments diff => step? segments diff.hunks diff.commit) segments

/-- The version that diffs lead back to, the last one first. -/
def replayBack? (segments : List Segment) (diffs : List Diff) : Option (List Segment) :=
  diffs.foldrM (fun diff segments => step? segments (diff.hunks.map Hunk.swapped) diff.commit)
    segments

/-- Diffs lead from a version of `count` lines to versions whose lines, and the one behind them,
have words for numbers.
-/
def ShortInTurn (count : Nat) (diffs : List Diff) : Prop :=
  ∀ earlier, earlier <+: diffs → lineCountThrough count earlier + 1 < UInt64.size

variable {count : Nat} {segments : List Segment} {diff : Diff} {diffs later : List Diff}

/-- Where nothing changes, only the version itself has to be short. -/
theorem shortInTurn_nil : ShortInTurn count [] ↔ count + 1 < UInt64.size := by
  simp [ShortInTurn, lineCountThrough]

/-- Versions are short in turn if the first one is and those from the next one on are. -/
theorem shortInTurn_cons
    : ShortInTurn count (diff :: later)
      ↔ count + 1 < UInt64.size ∧ ShortInTurn (lineCountAfter count diff.hunks) later := by
  constructor
  · intro short
    exact ⟨short [] List.nil_prefix,
      fun earlier part => short (diff :: earlier) (List.prefix_cons_inj diff |>.mpr part)⟩
  · rintro ⟨here, more⟩ earlier part
    cases earlier with
    | nil => exact here
    | cons first rest =>
        obtain ⟨rfl, shorter⟩ := List.cons_prefix_cons.mp part
        exact more rest shorter

/-- The versions behind a change are short if all are. -/
theorem ShortInTurn.tail (short : ShortInTurn count (diff :: later))
    : ShortInTurn (lineCountAfter count diff.hunks) later :=
  (shortInTurn_cons.mp short).2

/-- The first of short versions is short. -/
theorem ShortInTurn.start (short : ShortInTurn count diffs) : count + 1 < UInt64.size :=
  short [] List.nil_prefix

/-- Versions that are short in turn are short in each of two parts. -/
theorem ShortInTurn.append {first : List Diff} (short : ShortInTurn count (first ++ later))
    : ShortInTurn count first ∧ ShortInTurn (lineCountThrough count first) later := by
  constructor
  · exact fun earlier part => short earlier (part.trans (List.prefix_append _ _))
  · intro earlier part
    rw [← lineCountThrough_append]
    exact short (first ++ earlier) ((List.prefix_append_right_inj first).mpr part)

/-- A commit leaves as many lines as its hunks say. -/
theorem lineCount_step {hunks : List Hunk} {commit : String}
    (fits : Fits (lineCount segments) hunks)
    : lineCount (step segments hunks commit) = lineCountAfter (lineCount segments) hunks := by
  rw [← length_flatten] at fits
  rw [← length_flatten, length_flatten_step fits, length_flatten]

/-- Replaying goes through with words, by induction on the diffs. -/
theorem replay?_eq (tellable : Tellable segments)
    (fits : FitInTurn (lineCount segments) diffs) (short : ShortInTurn (lineCount segments) diffs)
    : replay? segments diffs = some (replay segments diffs)
      ∧ Tellable (replay segments diffs)
      ∧ lineCount (replay segments diffs) = lineCountThrough (lineCount segments) diffs := by
  induction diffs generalizing segments with
  | nil => exact ⟨rfl, tellable, rfl⟩
  | cons diff later ih =>
      obtain ⟨fitsHere, fitsLater⟩ := fits
      have reached : lineCount (step segments diff.hunks diff.commit)
          = lineCountAfter (lineCount segments) diff.hunks := lineCount_step fitsHere
      have next : lineCount (step segments diff.hunks diff.commit) + 1 < UInt64.size := by
        rw [reached]
        exact short.tail.start
      have tail := short.tail
      rw [← reached] at fitsLater tail
      obtain ⟨replayed, told, count⟩ := ih (tellable.step next) fitsLater tail
      refine ⟨?_, told, ?_⟩
      · rw [replay?, List.foldlM_cons, step?_eq tellable _ _ next]
        exact replayed
      · rw [reached] at count
        exact count

/-- Undoing goes through with words, by induction on the diffs. -/
theorem replayBack?_eq (tellable : Tellable segments) (fits : FitInTurn count diffs)
    (short : ShortInTurn count diffs)
    (reached : lineCount segments = lineCountThrough count diffs)
    : replayBack? segments diffs = some (replayBack segments diffs)
      ∧ Tellable (replayBack segments diffs)
      ∧ lineCount (replayBack segments diffs) = count := by
  induction diffs generalizing count with
  | nil => exact ⟨rfl, tellable, reached⟩
  | cons diff later ih =>
      obtain ⟨fitsHere, fitsLater⟩ := fits
      obtain ⟨undone, told, here⟩ := ih fitsLater short.tail reached
      rw [← length_flatten] at here
      have back : lineCount (stepReverse (replayBack segments later) diff.hunks diff.commit)
          = count := by
        rw [← length_flatten]
        exact length_flatten_stepReverse fitsHere here
      have next : lineCount (stepReverse (replayBack segments later) diff.hunks diff.commit) + 1
          < UInt64.size := by
        rw [back]
        exact short.start
      refine ⟨?_, told.step next, back⟩
      have stepped := step?_eq told (diff.hunks.map Hunk.swapped) diff.commit next
      rw [replayBack?, List.foldrM_cons]
      exact Option.bind_eq_some_iff.mpr ⟨_, undone, stepped⟩

-----------------------------------------------------------------------------------------
-- Forgetting where lines came from, and telling it
-----------------------------------------------------------------------------------------

/-- How many lines a version has, one run after the other. -/
def lineCount? (segments : List Segment) : Option Nat :=
  segments.foldlM (fun total segment => add? total segment.count) 0

/-- One run of as many lines, of which no commit is known. -/
def wipe? (segments : List Segment) : Option (List Segment) := do
  let total ← lineCount? segments
  return if total = 0 then [] else [{ count := total, start := 1, commit := "" }]

/-- The origin of each line of a run. -/
def origins? (segment : Segment) : Option (List Origin) :=
  (List.range segment.count).mapM fun k => do
    let line ← add? segment.start k
    return { commit := segment.commit, line }

/-- The origin of each line of a version. -/
def flatten? (segments : List Segment) : Option (List Origin) := do
  let lines ← segments.mapM origins?
  return lines.flatten

/-- Where there is a value for every item, they are listed. -/
theorem mapM_eq_some_map {α β : Type} {items : List α} {read? : α → Option β} {read : α → β}
    (known : ∀ item ∈ items, read? item = some (read item))
    : items.mapM read? = some (items.map read) := by
  induction items with
  | nil => rfl
  | cons item rest ih =>
      obtain ⟨here, more⟩ := List.forall_mem_cons.mp known
      rw [List.mapM_cons, here, ih more]
      rfl

/-- The counts of runs add up to a word if their sum is one, by induction on the runs. -/
theorem foldlM_add? (segments : List Segment) (total : Nat)
    (fits : total + lineCount segments < UInt64.size)
    : segments.foldlM (fun total segment => add? total segment.count) total
      = some (total + lineCount segments) := by
  induction segments generalizing total with
  | nil => rfl
  | cons segment rest ih =>
      rw [lineCount_cons] at fits
      have here : add? total segment.count = some (total + segment.count) :=
        add?_of_lt (by omega)
      rw [List.foldlM_cons, here, lineCount_cons, ← Nat.add_assoc]
      exact ih _ (by omega)

/-- Wiping runs that words can tell has a value, and it is the one without bounds. -/
theorem wipe?_eq (tellable : Tellable segments) : wipe? segments = some (wipe segments) := by
  have short := tellable.short
  have counted : lineCount? segments = some (lineCount segments) := by
    rw [lineCount?, foldlM_add? segments 0 (by omega), Nat.zero_add]
  exact Option.bind_eq_some_iff.mpr ⟨_, counted, rfl⟩

/-- Two runs that have too many lines together. -/
example : wipe? [⟨UInt64.size - 1, 1, "a"⟩, ⟨1, 1, "b"⟩] = none := rfl

/-- Wiped runs can be told with words if the runs can. -/
theorem Tellable.wipe (tellable : Tellable segments) : Tellable (wipe segments) := by
  have short := tellable.short
  unfold Segment.wipe
  dsimp only
  split
  · exact ⟨solid_nil, by simp [lineCount, UInt64.size], List.forall_mem_nil _⟩
  · next present =>
      refine ⟨List.forall_mem_singleton.mpr (Nat.pos_of_ne_zero present), short,
        List.forall_mem_singleton.mpr ?_⟩
      dsimp only
      omega

/-- Wiping keeps the number of lines. -/
theorem lineCount_wipe (segments : List Segment)
    : lineCount (wipe segments) = lineCount segments := by
  rw [← length_flatten, flatten_wipe, length_origins]

/-- The lines of runs that words can tell can be listed, and are those without bounds. -/
theorem flatten?_eq (tellable : Tellable segments)
    : flatten? segments = some (flatten segments) := by
  have told : segments.mapM origins? = some (segments.map origins) := by
    refine mapM_eq_some_map fun segment member => mapM_eq_some_map fun k inside => ?_
    have numbers := tellable.numbers segment member
    have before := List.mem_range.mp inside
    have line : add? segment.start k = some (segment.start + k) := add?_of_lt (by omega)
    rw [line]
    rfl
  have lines : (segments.map origins).flatten = flatten segments := List.flatMap_def.symm
  exact Option.bind_eq_some_iff.mpr ⟨_, told, congrArg some lines⟩

-----------------------------------------------------------------------------------------
-- What is asked of a blame
-----------------------------------------------------------------------------------------

/-- The blame of the version after the first `count` diffs. -/
def blameAfter? (diffs : List Diff) (count : Nat) : Option (List Origin) := do
  let segments ← replay? [] (diffs.take count)
  flatten? segments

/-- The future of the version after the first `count` diffs. -/
def futureAfter? (diffs : List Diff) (count : Nat) : Option (List Origin) := do
  let newest ← replay? [] diffs
  let wiped ← wipe? newest
  let segments ← replayBack? wiped (diffs.drop count)
  flatten? segments

/-- The blame of a file as of a commit, which need not have changed it. -/
def ofFile (history : History) (commit path : String) : Except BlameError (Option Blame) := do
  let diffs ← fileDiffs history path
  let place ← position history commit
  let count := bisect (fun i => ((diffs[i]?).map (isUpTo history place)).getD false) 0 diffs.length
  match count with
  | 0 => .error (.fileDoesNotExist path commit)
  | i + 1 =>
    match diffs[i]? with
    | none => .error (.fileDoesNotExist path commit)
    | some latest =>
      return do
        let blame ← blameAfter? diffs count
        let future ← futureAfter? diffs count
        return {
          blame
          future
          previous := if latest.commit = shortHash commit then commitBefore diffs i
            else latest.commit
          next := commitAt diffs count
          hunks := latest.hunks }

/-- The blame of both sides of a commit's change to a file. -/
def ofDiff (history : History) (commit path : String) : Except BlameError (Option Blame) := do
  let diffs ← fileDiffs history path
  let _ ← position history commit
  match diffs.findIdx? (·.commit = shortHash commit) with
  | none => .error (.commitDidNotChangeFile commit path)
  | some i =>
    return do
      let blame ← blameAfter? diffs i
      let future ← futureAfter? diffs (i + 1)
      return {
        blame
        future
        previous := commitBefore diffs i
        next := commitAt diffs (i + 1)
        hunks := ((diffs[i]?).map Diff.hunks).getD [] }

/-- A version without lines can be told with words. -/
theorem tellable_nil : Tellable [] :=
  ⟨solid_nil, by simp [lineCount, UInt64.size], List.forall_mem_nil _⟩

section Answers

variable (fits : FitInTurn 0 diffs) (short : ShortInTurn 0 diffs)

include fits short

/-- The blame at any place among the changes has a value, and it is the one without bounds. -/
theorem blameAfter?_eq (count : Nat) : blameAfter? diffs count = some (blameAfter diffs count) := by
  rw [← List.take_append_drop count diffs] at fits short
  obtain ⟨replayed, told, -⟩ := replay?_eq tellable_nil (fitInTurn_append.mp fits).1 short.append.1
  exact Option.bind_eq_some_iff.mpr ⟨_, replayed, flatten?_eq told⟩

/-- The future at any place among the changes has a value, and it is the one without bounds. -/
theorem futureAfter?_eq (count : Nat)
    : futureAfter? diffs count = some (futureAfter diffs count) := by
  obtain ⟨newest, told, counted⟩ := replay?_eq tellable_nil fits short
  have reached : lineCount (wipe (replay [] diffs))
      = lineCountThrough (lineCountThrough 0 (diffs.take count)) (diffs.drop count) := by
    rw [lineCount_wipe, counted, ← lineCountThrough_append, List.take_append_drop]
    rfl
  rw [← List.take_append_drop count diffs] at fits short
  obtain ⟨undone, back, -⟩ := replayBack?_eq told.wipe (fitInTurn_append.mp fits).2 short.append.2
    reached
  refine Option.bind_eq_some_iff.mpr ⟨_, newest, ?_⟩
  refine Option.bind_eq_some_iff.mpr ⟨_, wipe?_eq told, ?_⟩
  exact Option.bind_eq_some_iff.mpr ⟨_, undone, flatten?_eq back⟩

end Answers

section Queries

variable {history : History} (built : history.Built) {commit path : String}
  (fits : FitInTurn 0 (history.changes path)) (short : ShortInTurn 0 (history.changes path))

include built fits short

/-- The blame of a file is computed with words as it is without bounds. -/
theorem ofFile_eq : ofFile history commit path = (Blame.ofFile history commit path).map some := by
  unfold ofFile Blame.ofFile
  rw [fileDiffs_eq built]
  split
  · rfl
  · cases position history commit with
    | error cause => rfl
    | ok place =>
        simp only [bind, Except.bind]
        generalize bisect _ 0 _ = count
        cases count with
        | zero => rfl
        | succ i =>
            cases found : (history.changes path)[i]? with
            | none => simp [found, Except.map]
            | some latest =>
                simp only [found, blameAfter?_eq fits short, futureAfter?_eq fits short]
                rfl

/-- The blame of a change is computed with words as it is without bounds. -/
theorem ofDiff_eq : ofDiff history commit path = (Blame.ofDiff history commit path).map some := by
  unfold ofDiff Blame.ofDiff
  rw [fileDiffs_eq built]
  split
  · rfl
  · cases position history commit with
    | error cause => rfl
    | ok place =>
        simp only [bind, Except.bind]
        cases (history.changes path).findIdx? (·.commit = shortHash commit) with
        | none => rfl
        | some i =>
            simp only [blameAfter?_eq fits short, futureAfter?_eq fits short]
            rfl

end Queries

end Words

end SourceView
