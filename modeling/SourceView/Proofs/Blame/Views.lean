import SourceView.Proofs.Blame.Attribution

/-! A change of a file beside the versions on its two sides.
The view of a change and the view of a file look for the change in different ways, but they cut the
changes of the file at the same place.
-/

namespace SourceView

open Blame Segment

-----------------------------------------------------------------------------------------
-- The commits between two changes
-----------------------------------------------------------------------------------------

namespace History.Regular

variable {history : History} (regular : history.Regular) {commit path : String}

include regular

/-- The last change before a commit stands behind all others before it. -/
theorem place_le_of_getLast? {previous diff : Diff}
    (last : (history.changesBefore commit path).getLast? = some previous)
    (before : diff ∈ history.changesBefore commit path)
    : history.place diff.commit ≤ history.place previous.commit := by
  obtain ⟨front, split⟩ := List.getLast?_eq_some_iff.mp last
  have ordered := (regular.changes_ordered path).filter
    fun diff => decide (history.place diff.commit < history.place commit)
  rw [← changesBefore, split, List.pairwise_append] at ordered
  rw [split] at before
  rcases List.mem_append.mp before with earlier | same
  · exact Nat.le_of_lt (ordered.2.2 diff earlier previous (List.mem_singleton_self _))
  · exact Nat.le_of_eq (by rw [List.mem_singleton.mp same])

/-- From the previous change on, a file does not change up to the commit that changes it next. -/
theorem changesUpTo_eq_changesBefore {previous : Diff} {other : String}
    (last : (history.changesBefore commit path).getLast? = some previous)
    (behind : history.place previous.commit ≤ history.place other)
    (ahead : history.place other < history.place commit)
    : history.changesUpTo other path = history.changesBefore commit path := by
  refine List.filter_congr fun diff member => decide_eq_decide.mpr ⟨?_, ?_⟩
  · intro upTo
    exact Nat.lt_of_le_of_lt upTo ahead
  · intro before
    have listed : diff ∈ history.changesBefore commit path :=
      List.mem_filter.mpr ⟨member, decide_eq_true before⟩
    exact Nat.le_trans (regular.place_le_of_getLast? last listed) behind

end History.Regular

-----------------------------------------------------------------------------------------
-- The two views
-----------------------------------------------------------------------------------------

namespace Blame

section Views

variable {history : History} (regular : history.Regular) {commit path : String} {diff : Diff}
  (member : diff ∈ history.changes path) (named : shortHash commit = diff.commit)

include regular member named

/-- The log has the commit of each change. -/
theorem knows_of_mem_changes : history.Knows commit := by
  obtain ⟨known, short⟩ := regular.built.shortHash_of_mem_changes member
  rwa [History.Knows, short, ← named] at known

/-- A change is the last one up to its own commit, and the first one that bears its commit. -/
theorem lookups_find_change
    : (history.changesUpTo commit path).getLast? = some diff
      ∧ (history.changes path).find? (·.commit = shortHash commit) = some diff := by
  obtain ⟨earlier, later, split⟩ := List.append_of_mem member
  have here : history.place diff.commit = history.place commit := by
    rw [← named, History.place_shortHash]
  obtain ⟨before, upTo, -⟩ := regular.changes_split split here
  refine ⟨by simp [upTo], ?_⟩
  refine List.find?_eq_some_iff_append.mpr ⟨decide_eq_true named.symm, earlier, later, split, ?_⟩
  intro other listed
  -- A change before this one has a lower place, and so another commit.
  rw [← before] at listed
  have lower := of_decide_eq_true (List.mem_filter.mp listed).2
  rw [Bool.not_eq_true', decide_eq_false_iff_not]
  intro same
  rw [same, History.place_shortHash] at lower
  exact Nat.lt_irrefl _ lower

/-- The view of the file as of a commit that changed it. -/
theorem ofFile_of_change
    : ofFile history commit path
      = .ok {
        blame := flatten (replay [] (history.changesUpTo commit path))
        future := futureOf history commit path
        previous := lastCommit (history.changesBefore commit path)
        next := firstCommit (history.changesAfter commit path)
        hunks := diff.hunks } := by
  rw [ofFile_eq regular, if_neg (List.ne_nil_of_mem member),
    if_pos (knows_of_mem_changes regular member named),
    (lookups_find_change regular member named).1]

/-- The view of the change that a commit made. -/
theorem ofDiff_of_change
    : ofDiff history commit path
      = .ok {
        blame := flatten (replay [] (history.changesBefore commit path))
        future := futureOf history commit path
        previous := lastCommit (history.changesBefore commit path)
        next := firstCommit (history.changesAfter commit path)
        hunks := diff.hunks } := by
  rw [ofDiff_eq regular, if_neg (List.ne_nil_of_mem member),
    if_pos (knows_of_mem_changes regular member named),
    (lookups_find_change regular member named).2]

end Views

/-- The view of a file as of a commit between two changes of it. -/
theorem exists_ofFile_between {history : History} (regular : history.Regular)
    {commit path other : String} {previous : Diff}
    (last : (history.changesBefore commit path).getLast? = some previous)
    (known : history.Knows other)
    (behind : history.place previous.commit ≤ history.place other)
    (ahead : history.place other < history.place commit)
    : ∃ between,
        ofFile history other path = .ok between
        ∧ between.blame = flatten (replay [] (history.changesBefore commit path)) := by
  have same := regular.changesUpTo_eq_changesBefore last behind ahead
  have member : previous ∈ history.changes path :=
    (List.mem_filter.mp (List.mem_of_getLast? last)).1
  rw [ofFile_eq regular, if_neg (List.ne_nil_of_mem member), if_pos known, same, last]
  exact ⟨_, rfl, rfl⟩

/-- The view of a change and the view of the file as of its commit show the same future, hunks and
neighbours, and what the change shows as the old lines is the file as of each commit from its
previous change on. Witness: both views come from the changes before, up to and after the commit.
-/
theorem views_of_change_agree {history : History} (regular : history.Regular)
    {commit path : String} {diff : Diff} (member : diff ∈ history.changes path)
    (named : shortHash commit = diff.commit)
    : ∃ change file,
        ofDiff history commit path = .ok change
        ∧ ofFile history commit path = .ok file
        ∧ change.future = file.future
        ∧ change.hunks = file.hunks
        ∧ change.previous = file.previous
        ∧ change.next = file.next
        ∧ (history.changesBefore commit path = [] → change.blame = [])
        ∧ ∀ previous other,
            (history.changesBefore commit path).getLast? = some previous
            → history.Knows other
            → history.place previous.commit ≤ history.place other
            → history.place other < history.place commit
            → ∃ between,
                ofFile history other path = .ok between ∧ change.blame = between.blame := by
  refine ⟨_, _, ofDiff_of_change regular member named, ofFile_of_change regular member named,
    rfl, rfl, rfl, rfl, ?_, ?_⟩
  · intro first
    rw [first]
    rfl
  · intro previous other last known behind ahead
    obtain ⟨between, answered, blame⟩ := exists_ofFile_between regular last known behind ahead
    exact ⟨between, answered, blame.symm⟩

/-- The third commit shows as the old lines what the file is as of the second. -/
theorem views_of_threeCommits_agree
    : ∃ change file,
        ofDiff threeCommitHistory "c3" "b.rs" = .ok change
        ∧ ofFile threeCommitHistory "c3" "b.rs" = .ok file
        ∧ change.future = file.future
        ∧ change.blame = [⟨"c1", 1⟩, ⟨"c2", 2⟩, ⟨"c2", 3⟩, ⟨"c1", 3⟩] := by
  have changes : threeCommitHistory.changes "b.rs" = [
      ⟨"c1", "b.rs", [⟨0, 0, 1, 3⟩]⟩,
      ⟨"c2", "b.rs", [⟨2, 1, 2, 2⟩]⟩,
      ⟨"c3", "b.rs", [⟨1, 1, 0, 0⟩]⟩] := by
    rw [History.changes, diffs_threeCommitHistory]
    decide
  have member : ⟨"c3", "b.rs", [⟨1, 1, 0, 0⟩]⟩ ∈ threeCommitHistory.changes "b.rs" := by
    simp [changes]
  have named : shortHash "c3" = "c3" := by decide
  obtain ⟨change, file, changed, answered, future, -, -, -, -, between⟩ :=
    views_of_change_agree threeCommitHistory_wellFormed.toRegular member named
  have last : (threeCommitHistory.changesBefore "c3" "b.rs").getLast?
      = some ⟨"c2", "b.rs", [⟨2, 1, 2, 2⟩]⟩ := by
    rw [History.changesBefore, changes]
    decide +kernel
  obtain ⟨second, found, blame⟩ := between _ "c2" last (by decide +kernel) (Nat.le_refl _)
    (by decide +kernel)
  refine ⟨change, file, changed, answered, future, ?_⟩
  obtain rfl := Except.ok.inj (ofFile_threeCommitHistory.symm.trans found)
  exact blame

end Blame

end SourceView
