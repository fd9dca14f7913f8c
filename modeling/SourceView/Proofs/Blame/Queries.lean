import SourceView.Proofs.History.Order

/-! What is asked of a blame, by the changes of a file up to, before and after a commit.
The search for the last change that is not behind the commit halves the changes, and finds it
because they stand in the order of their commits.
-/

namespace SourceView.Blame

open Segment

-----------------------------------------------------------------------------------------
-- The search by halving
-----------------------------------------------------------------------------------------

/-- Halving counts the items from the start on that have a property, if no item has it behind one
that has not, by induction on the halvings.
-/
theorem bisect_eq {holds : Nat → Bool} {count base size : Nat} (lower : base ≤ count)
    (upper : count ≤ base + size) (below : ∀ i < count, holds i = true)
    (above : ∀ i, count ≤ i → i < base + size → holds i = false)
    : bisect holds base size = count := by
  fun_induction bisect holds base size with
  | case1 base size small found =>
      have inside : base < count := by
        refine Nat.lt_of_not_le fun beyond => ?_
        have := above base beyond (by omega)
        simp [this] at found
      omega
  | case2 base size small missed =>
      refine Nat.le_antisymm lower (Nat.le_of_not_lt fun inside => missed ⟨by omega, ?_⟩)
      exact below base inside
  | case3 base size large ih =>
      by_cases found : holds (base + size / 2) = true
      · have inside : base + size / 2 < count := by
          refine Nat.lt_of_not_le fun beyond => ?_
          have := above _ beyond (by omega)
          simp [this] at found
        simp only [found, if_true, dite_true] at ih ⊢
        exact ih (by omega) (by omega) fun i behind before => above i behind (by omega)
      · have beyond : count ≤ base + size / 2 :=
          Nat.le_of_not_lt fun inside => found (below _ inside)
        simp only [found, Bool.false_eq_true, if_false, dite_false] at ih ⊢
        exact ih lower (by omega) fun i behind before => above i behind (by omega)

/-- Halving finds where the items that pass a test end, if those that do not stand behind them. -/
theorem bisect_append {α : Type} {first rest : List α} {passes : α → Bool}
    (low : ∀ item ∈ first, passes item = true) (high : ∀ item ∈ rest, passes item = false)
    : bisect (fun i => (((first ++ rest)[i]?).map passes).getD false) 0 (first ++ rest).length
      = first.length := by
  apply bisect_eq (Nat.zero_le _)
  · rw [Nat.zero_add, List.length_append]
    exact Nat.le_add_right _ _
  · intro i inside
    rw [List.getElem?_append_left inside, List.getElem?_eq_getElem inside, Option.map_some,
      Option.getD_some]
    exact low _ (List.getElem_mem inside)
  · intro i behind before
    rw [Nat.zero_add, List.length_append] at before
    have inside : i - first.length < rest.length := by omega
    rw [List.getElem?_append_right behind, List.getElem?_eq_getElem inside, Option.map_some,
      Option.getD_some]
    exact high _ (List.getElem_mem inside)

-----------------------------------------------------------------------------------------
-- What the queries look up
-----------------------------------------------------------------------------------------

/-- The place of the first item that passes a test, from the item itself. -/
theorem findIdx?_of_find?_eq_some {α : Type} {items : List α} {passes : α → Bool} {item : α}
    (found : items.find? passes = some item)
    : passes item = true
      ∧ ∃ earlier later,
          items = earlier ++ item :: later ∧ items.findIdx? passes = some earlier.length := by
  obtain ⟨here, earlier, later, split, before⟩ := List.find?_eq_some_iff_append.mp found
  have unlike : earlier.findIdx? passes = none :=
    List.findIdx?_eq_none_iff.mpr fun other member => by simpa using before other member
  refine ⟨here, earlier, later, split, ?_⟩
  rw [split, List.findIdx?_append, unlike]
  simp [List.findIdx?_cons, here]

/-- The commit of the last diff, or none. -/
def lastCommit (diffs : List Diff) : String :=
  (diffs.getLast?.map Diff.commit).getD ""

/-- The commit of the first diff, or none. -/
def firstCommit (diffs : List Diff) : String :=
  (diffs.head?.map Diff.commit).getD ""

section Cut

variable {diffs earlier later : List Diff}

/-- The commit before a place among the changes is the last one in front of it, or none. -/
theorem commitBefore_of_cut (cut : earlier ++ later = diffs)
    : commitBefore diffs earlier.length = lastCommit earlier := by
  subst cut
  rcases List.eq_nil_or_concat earlier with rfl | ⟨front, last, rfl⟩
  · rfl
  · simp [commitBefore, commitAt, lastCommit]

/-- The commit at a place among the changes is the first one behind it, or none. -/
theorem commitAt_of_cut (cut : earlier ++ later = diffs)
    : commitAt diffs earlier.length = firstCommit later := by
  rw [← cut, commitAt, firstCommit, List.getElem?_append_right (Nat.le_refl _), Nat.sub_self,
    List.head?_eq_getElem?]

/-- The blame at a place among the changes comes from those in front of it. -/
theorem blameAfter_of_cut (cut : earlier ++ later = diffs)
    : blameAfter diffs earlier.length = flatten (replay [] earlier) := by
  rw [← cut, blameAfter, List.take_left]

/-- The future at a place among the changes comes from all of them, and from undoing those behind
it.
-/
theorem futureAfter_of_cut (cut : earlier ++ later = diffs)
    : futureAfter diffs earlier.length
      = flatten (replayBack (wipe (replay [] diffs)) later) := by
  rw [← cut, futureAfter, List.drop_left]

end Cut

/-- The changes of a file are found if there are any. -/
theorem fileDiffs_eq {history : History} (built : history.Built) (path : String)
    : fileDiffs history path
      = if history.changes path = [] then .error (.noSuchFile path)
        else .ok (history.changes path) := by
  have indexed := built.indexed.files path
  have places : History.placesOf history.heads (·.2 = path)
      = History.placesOf history.diffs.toList (·.path = path) := by
    simp [History.placesOf, History.heads, Option.any_map]
  have listed : (History.placesOf history.heads (·.2 = path)).filterMap history.diff?
      = history.changes path := by
    rw [places, History.changes, ← History.filterMap_placesOf]
    simp only [Array.getElem?_toList]
    rfl
  have same : History.placesOf history.heads (·.2 = path) = []
      ↔ history.changes path = [] := by
    rw [places, History.placesOf_eq_nil_iff, History.changes, List.filter_eq_nil_iff]
    simp
  simp only [History.placesUnder, same] at indexed
  rw [fileDiffs, History.fileDiffs?, indexed]
  by_cases empty : history.changes path = []
  · simp [empty]
  · simp [empty, listed]

/-- A commit is found at its place in the log if the log has it. -/
theorem position_eq {history : History} (regular : history.Regular) (commit : String)
    : position history commit
      = if history.Knows commit then .ok (history.place commit)
        else .error (.unknownCommit commit) := by
  rw [position, regular.position?_eq]
  by_cases known : history.Knows commit <;> simp [known]

/-- A change is one of those up to a bound if its commit stands there. -/
theorem isUpTo_eq {history : History} (regular : history.Regular) {path : String} {diff : Diff}
    (member : diff ∈ history.changes path) (bound : Nat)
    : isUpTo history bound diff = decide (history.place diff.commit ≤ bound) := by
  rw [isUpTo, regular.position?_eq, if_pos (regular.built.shortHash_of_mem_changes member).1]

/-- The search by halves finds how many changes there are up to a commit. -/
theorem bisect_changes {history : History} (regular : history.Regular) (commit path : String)
    : bisect
        (fun i =>
          (((history.changes path)[i]?).map (isUpTo history (history.place commit))).getD false)
        0 (history.changes path).length
      = (history.changesUpTo commit path).length := by
  have cut := regular.changesUpTo_append_changesAfter commit path
  have upTo : ∀ diff ∈ history.changesUpTo commit path,
      isUpTo history (history.place commit) diff = true := by
    intro diff member
    obtain ⟨member, low⟩ := List.mem_filter.mp member
    rwa [isUpTo_eq regular member]
  have after : ∀ diff ∈ history.changesAfter commit path,
      isUpTo history (history.place commit) diff = false := by
    intro diff member
    obtain ⟨member, high⟩ := List.mem_filter.mp member
    rw [isUpTo_eq regular member, decide_eq_false_iff_not, Nat.not_le]
    exact of_decide_eq_true high
  rw [← cut]
  exact bisect_append upTo after

-----------------------------------------------------------------------------------------
-- The answers
-----------------------------------------------------------------------------------------

/-- The future of the lines of a version, as it is found by replaying. -/
def futureOf (history : History) (commit path : String) : List Origin :=
  flatten (replayBack (wipe (replay [] (history.changes path))) (history.changesAfter commit path))

/-- The change before a commit is the one before the latest if the commit made the latest itself. -/
theorem lastCommit_changesBefore {history : History} (regular : history.Regular)
    {commit path : String} {earlier : List Diff} {latest : Diff}
    (upTo : history.changesUpTo commit path = earlier ++ [latest])
    (cut : earlier ++ latest :: history.changesAfter commit path = history.changes path)
    : lastCommit (history.changesBefore commit path)
      = if latest.commit = shortHash commit
        then commitBefore (history.changes path) earlier.length else latest.commit := by
  rw [regular.changesBefore_eq upTo]
  split
  · exact (commitBefore_of_cut cut).symm
  · simp [lastCommit]

/-- The blame of a file is that of the last change up to the commit. -/
theorem ofFile_eq {history : History} (regular : history.Regular) (commit path : String)
    : ofFile history commit path
      = if history.changes path = [] then .error (.noSuchFile path)
        else if history.Knows commit then
          match (history.changesUpTo commit path).getLast? with
          | none => .error (.fileDoesNotExist path commit)
          | some latest =>
            .ok {
              blame := flatten (replay [] (history.changesUpTo commit path))
              future := futureOf history commit path
              previous := lastCommit (history.changesBefore commit path)
              next := firstCommit (history.changesAfter commit path)
              hunks := latest.hunks }
        else .error (.unknownCommit commit) := by
  by_cases empty : history.changes path = []
  · simp only [ofFile, fileDiffs_eq regular.built, empty, if_true]
    rfl
  by_cases unknown : ¬history.Knows commit
  · simp only [ofFile, fileDiffs_eq regular.built, position_eq regular, empty, unknown, if_false]
    rfl
  have known := Decidable.not_not.mp unknown
  have cut := regular.changesUpTo_append_changesAfter commit path
  simp only [ofFile, fileDiffs_eq regular.built, position_eq regular, empty, known, if_true,
    if_false, bind, Except.bind, bisect_changes regular]
  rcases List.eq_nil_or_concat (history.changesUpTo commit path) with
    none | ⟨earlier, latest, upTo⟩
  · rw [none]
    rfl
  · rw [List.concat_eq_append] at upTo
    have cutHere : earlier ++ latest :: history.changesAfter commit path
        = history.changes path := by
      rw [← cut, upTo, List.append_assoc]
      rfl
    have length : (history.changesUpTo commit path).length = earlier.length + 1 := by simp [upTo]
    have found : (history.changes path)[earlier.length]? = some latest := by
      rw [← cutHere, List.getElem?_append_right (Nat.le_refl _), Nat.sub_self]
      rfl
    simp only [blameAfter_of_cut cut, futureAfter_of_cut cut, commitAt_of_cut cut,
      lastCommit_changesBefore regular upTo cutHere]
    have last : (history.changesUpTo commit path).getLast? = some latest := by simp [upTo]
    simp only [length, found, last]
    rfl

/-- The blame of a change is that of the version before it and that of the version after it. -/
theorem ofDiff_eq {history : History} (regular : history.Regular) (commit path : String)
    : ofDiff history commit path
      = if history.changes path = [] then .error (.noSuchFile path)
        else if history.Knows commit then
          match (history.changes path).find? (·.commit = shortHash commit) with
          | none => .error (.commitDidNotChangeFile commit path)
          | some diff =>
            .ok {
              blame := flatten (replay [] (history.changesBefore commit path))
              future := futureOf history commit path
              previous := lastCommit (history.changesBefore commit path)
              next := firstCommit (history.changesAfter commit path)
              hunks := diff.hunks }
        else .error (.unknownCommit commit) := by
  by_cases empty : history.changes path = []
  · simp only [ofDiff, fileDiffs_eq regular.built, empty, if_true]
    rfl
  by_cases unknown : ¬history.Knows commit
  · simp only [ofDiff, fileDiffs_eq regular.built, position_eq regular, empty, unknown, if_false]
    rfl
  have known := Decidable.not_not.mp unknown
  simp only [ofDiff, fileDiffs_eq regular.built, position_eq regular, empty, known, if_true,
    if_false, bind, Except.bind]
  cases found : (history.changes path).find? (·.commit = shortHash commit) with
  | none =>
      rw [List.find?_eq_none] at found
      have missing : (history.changes path).findIdx? (·.commit = shortHash commit) = none :=
        List.findIdx?_eq_none_iff.mpr fun diff member => Bool.eq_false_iff.mpr (found diff member)
      rw [missing]
  | some diff =>
      obtain ⟨here, earlier, later, split, index⟩ := findIdx?_of_find?_eq_some found
      obtain ⟨beforeHere, upToHere, afterHere⟩ := regular.changes_split split
        (show _ = history.place commit by rw [of_decide_eq_true here, History.place_shortHash])
      have cut := regular.changesUpTo_append_changesAfter commit path
      have future : futureAfter (history.changes path) (earlier.length + 1)
          = futureOf history commit path := by
        rw [futureOf, ← futureAfter_of_cut cut, upToHere, List.length_append]
        rfl
      have next : commitAt (history.changes path) (earlier.length + 1)
          = firstCommit (history.changesAfter commit path) := by
        rw [← commitAt_of_cut cut, upToHere, List.length_append]
        rfl
      have there : (history.changes path)[earlier.length]? = some diff := by simp [split]
      rw [index, beforeHere, ← blameAfter_of_cut split.symm, ← future, ← next,
        ← commitBefore_of_cut split.symm]
      simp only [there]
      rfl

end SourceView.Blame
