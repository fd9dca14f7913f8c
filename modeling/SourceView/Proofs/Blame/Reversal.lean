import SourceView.Proofs.Blame.Tracking

/-! Undoing the diffs of a file, the last one first.
Undoing a diff brings every line back that the diff kept, and those that it deleted as lines of the
commit that is undone. Undoing all diffs of a file from the first one on leaves nothing.
-/

namespace SourceView

open Segment

namespace Segment

-----------------------------------------------------------------------------------------
-- Versions without empty runs
-----------------------------------------------------------------------------------------

/-- Every run has a line. -/
def Solid (segments : List Segment) : Prop :=
  ∀ segment ∈ segments, 0 < segment.count

theorem solid_nil : Solid [] :=
  List.forall_mem_nil _

/-- Runs of which none is empty stay so when others are put behind them. -/
theorem Solid.append {front back : List Segment} (first : Solid front) (last : Solid back)
    : Solid (front ++ back) := by
  intro segment member
  rcases List.mem_append.mp member with inFront | inBack
  · exact first segment inFront
  · exact last segment inBack

/-- Splitting leaves no empty run, by induction on the runs: a run is taken apart only where some of
its lines are on either side.
-/
theorem Solid.split {segments : List Segment} (solid : Solid segments) (n : Nat)
    : Solid (Segment.split n segments).1 ∧ Solid (Segment.split n segments).2 := by
  induction segments generalizing n with
  | nil => exact ⟨solid_nil, solid_nil⟩
  | cons segment rest ih =>
      obtain ⟨here, more⟩ := List.forall_mem_cons.mp solid
      unfold Segment.split
      split
      · exact ⟨solid_nil, solid⟩
      split
      case isTrue wanted part =>
        refine ⟨List.forall_mem_cons.mpr ⟨?_, solid_nil⟩, List.forall_mem_cons.mpr ⟨?_, more⟩⟩
        · exact Nat.pos_of_ne_zero wanted
        · exact Nat.sub_pos_of_lt part
      case isFalse =>
        obtain ⟨taken, behind⟩ := ih more (n - segment.count)
        exact ⟨List.forall_mem_cons.mpr ⟨here, taken⟩, behind⟩

/-- Where no run is empty, runs without lines are no runs. -/
theorem Solid.eq_nil {segments : List Segment} (solid : Solid segments)
    (empty : flatten segments = []) : segments = [] := by
  cases segments with
  | nil => rfl
  | cons segment rest =>
      have here := solid segment List.mem_cons_self
      have lines := congrArg List.length empty
      rw [flatten_cons, List.length_append, length_origins, List.length_nil] at lines
      omega

namespace Replay

/-- A version half replayed has no empty run on either side. -/
structure Solid (replay : Replay) : Prop where
  old : Segment.Solid replay.old
  new : Segment.Solid replay.new

/-- Each step of a replay leaves no empty run on either side. -/
theorem solid_preserved : Preserved Solid where
  keep n solid := ⟨(solid.old.split n).2, solid.new.append (solid.old.split n).1⟩
  delete n solid := ⟨(solid.old.split n).2, solid.new⟩
  insert _ inserts solid :=
    ⟨solid.old, solid.new.append (List.forall_mem_singleton.mpr (Nat.pos_of_ne_zero inserts))⟩

end Replay

/-- A commit leaves no empty run. -/
theorem Solid.step {segments : List Segment} (solid : Solid segments) (hunks : List Hunk)
    (commit : String) : Solid (step segments hunks commit) := by
  have start : Replay.Solid { old := segments } := ⟨solid, solid_nil⟩
  have replayed := Replay.solid_preserved.foldl_apply start commit hunks
  exact replayed.new.append replayed.old

end Segment

namespace Blame

/-- Replaying changes leaves no empty run, by induction on the changes. -/
theorem solid_replay {segments : List Segment} (solid : Solid segments) (diffs : List Diff)
    : Solid (replay segments diffs) := by
  induction diffs generalizing segments with
  | nil => exact solid
  | cons diff later ih => exact ih (solid.step diff.hunks diff.commit)

/-- Undoing changes leaves no empty run, by induction on the changes. -/
theorem solid_replayBack {segments : List Segment} (solid : Solid segments) (diffs : List Diff)
    : Solid (replayBack segments diffs) := by
  induction diffs with
  | nil => exact solid
  | cons diff later ih => exact ih.step (diff.hunks.map Hunk.swapped) diff.commit

-----------------------------------------------------------------------------------------
-- Undoing diffs
-----------------------------------------------------------------------------------------

/-- Undoing diffs leads back to as many lines as there were, by induction on the diffs. The commits
that lines come back with need not be those of the diffs.
-/
theorem length_flatten_replayBack_replay {segments : List Segment} {diffs undone : List Diff}
    (fits : FitInTurn (flatten segments).length diffs)
    (same : undone.map Diff.hunks = diffs.map Diff.hunks)
    : (flatten (replayBack (replay segments diffs) undone)).length
      = (flatten segments).length := by
  induction diffs generalizing segments undone with
  | nil =>
      rw [List.map_nil, List.map_eq_nil_iff] at same
      rw [same]
      rfl
  | cons diff later ih =>
      obtain ⟨back, rest, rfl, hunks, others⟩ := List.map_eq_cons_iff.mp same
      obtain ⟨first, more⟩ := fits
      have reached : (flatten (step segments diff.hunks diff.commit)).length = _ :=
        length_flatten_step first
      rw [← reached] at more
      have known := (ih more others).trans reached
      rw [replayBack, List.foldr_cons, hunks]
      exact length_flatten_stepReverse first known

/-- A line comes back as it was if a diff that is undone kept it, and otherwise as a line of the
commit that is undone: behind the diff it is where following it leads.
-/
theorem getElem?_stepReverse_step {segments : List Segment} {hunks : List Hunk}
    (commit undone : String) (fits : Fits (flatten segments).length hunks) (index : Nat)
    : (flatten (stepReverse (step segments hunks commit) hunks undone))[index]?
      = if ∃ hunk ∈ hunks, hunk.Takes (index + 1) then some ⟨undone, index + 1⟩
        else (flatten segments)[index]? := by
  have reached : (flatten (step segments hunks commit)).length = _ := length_flatten_step fits
  have positive : 1 ≤ index + 1 := Nat.le_add_left 1 index
  split
  · next taken =>
      obtain ⟨hunk, member, takes⟩ := taken
      exact getElem?_stepReverse_of_takes fits reached member takes
  · next kept =>
      obtain ⟨after, followed⟩ := exists_follow_eq_some kept
      exact (getElem?_stepReverse_of_follow fits reached positive followed).trans
        (getElem?_step_of_follow fits positive followed)

/-- Undoing fitting hunks brings a version back, with the lines that they deleted as lines of the
commit that is undone. Undoing diffs that fit in turn from nothing on leads back to nothing.
-/
theorem stepReverse_undoes_step
    : (∀ (segments : List Segment) (hunks : List Hunk) (commit undone : String),
        Fits (lineCount segments) hunks
        → flatten (stepReverse (step segments hunks commit) hunks undone)
          = (flatten segments).mapIdx fun index origin =>
              if ∃ hunk ∈ hunks, hunk.Takes (index + 1) then ⟨undone, index + 1⟩ else origin)
      ∧ ∀ diffs undone : List Diff,
          FitInTurn 0 diffs
          → undone.map Diff.hunks = diffs.map Diff.hunks
          → replayBack (replay [] diffs) undone = [] := by
  refine ⟨?_, ?_⟩
  · intro segments hunks commit undone fits
    rw [← length_flatten] at fits
    have count : (flatten (stepReverse (step segments hunks commit) hunks undone)).length
        = (flatten segments).length :=
      length_flatten_stepReverse fits (length_flatten_step fits)
    apply List.ext_getElem?
    intro index
    rw [List.getElem?_mapIdx]
    by_cases present : index < (flatten segments).length
    · rw [getElem?_stepReverse_step commit undone fits index, List.getElem?_eq_getElem present,
        Option.map_some]
      exact (apply_ite some _ _ _).symm
    · rw [List.getElem?_eq_none (by omega), List.getElem?_eq_none (by omega), Option.map_none]
  · intro diffs undone fits same
    have back : (flatten (replayBack (replay [] diffs) undone)).length = 0 :=
      length_flatten_replayBack_replay fits same
    have solid : Solid (replayBack (replay [] diffs) undone) :=
      solid_replayBack (solid_replay solid_nil diffs) undone
    exact solid.eq_nil (List.length_eq_zero_iff.mp back)

/-- Runs of two commits with an empty run between them. -/
def crossedRuns : List Segment :=
  [⟨3, 1, "a"⟩, ⟨0, 9, "e"⟩, ⟨2, 4, "b"⟩]

/-- A hunk that reaches from one run into another, and one that only inserts. -/
def crossingHunks : List Hunk :=
  [⟨2, 3, 2, 1⟩, ⟨5, 0, 4, 2⟩]

/-- Diffs that write a file, change it at both ends and empty it. -/
def passingDiffs : List Diff :=
  [
    { commit := "a", path := "f", hunks := [⟨0, 0, 1, 3⟩] },
    { commit := "b", path := "f", hunks := [⟨1, 0, 2, 2⟩, ⟨3, 1, 4, 0⟩] },
    { commit := "c", path := "f", hunks := [⟨1, 4, 0, 0⟩] }]

/-- The lines that are deleted in the middle of two runs come back there, and a file that was
written and emptied comes back to nothing.
-/
theorem undone_crossingHunks
    : Fits (lineCount crossedRuns) crossingHunks
      ∧ flatten (stepReverse (step crossedRuns crossingHunks "c") crossingHunks "d")
        = [⟨"a", 1⟩, ⟨"d", 2⟩, ⟨"d", 3⟩, ⟨"d", 4⟩, ⟨"b", 5⟩]
      ∧ FitInTurn 0 passingDiffs
      ∧ replayBack (replay [] passingDiffs) passingDiffs = [] := by
  obtain ⟨undone, gone⟩ := stepReverse_undoes_step
  have fits : Fits (lineCount crossedRuns) crossingHunks := by decide
  have inTurn : FitInTurn 0 passingDiffs := by decide
  refine ⟨fits, ?_, inTurn, gone passingDiffs passingDiffs inTurn rfl⟩
  rw [undone crossedRuns crossingHunks "c" "d" fits]
  decide

end Blame

end SourceView
