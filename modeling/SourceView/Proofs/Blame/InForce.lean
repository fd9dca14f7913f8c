import SourceView.Proofs.Blame.Views
import SourceView.Proofs.History.Indexes

/-! The version of a file that is in force at a commit, which need not have changed the file.
It is the one behind the last commit that changed the file, looking back along the log from the
commit. What changed the file before and what changes it next are found along the log as well.
-/

namespace SourceView

open Blame Segment

-----------------------------------------------------------------------------------------
-- Looking along the log
-----------------------------------------------------------------------------------------

namespace History

/-- A commit changed a file. -/
def changed (history : History) (path commit : String) : Bool :=
  decide ((commit, path) ∈ history.heads)

/-- The last of the first `count` commits that changed a file, if any did. -/
def lastChanger? (history : History) (count : Nat) (path : String) : Option String :=
  (history.hashes.toList.take count).reverse.find? (history.changed path)

/-- The first commit behind the first `count` that changed a file, if any did. -/
def nextChanger? (history : History) (count : Nat) (path : String) : Option String :=
  (history.hashes.toList.drop count).find? (history.changed path)

/-- A commit has changed a file if it is the commit of one of the file's changes. -/
theorem changed_iff {history : History} {path commit : String}
    : history.changed path commit = true
      ↔ ∃ diff ∈ history.changes path, diff.commit = commit := by
  simp only [changed, decide_eq_true_eq, heads, changes, List.mem_map, List.mem_filter,
    Prod.mk.injEq]
  constructor
  · rintro ⟨diff, member, same, samePath⟩
    exact ⟨diff, ⟨member, samePath⟩, same⟩
  · rintro ⟨diff, ⟨member, samePath⟩, same⟩
    exact ⟨diff, member, same, samePath⟩

/-- A list whose first part passes a test that the rest fails is cut by the test. -/
theorem filter_of_cut {α : Type} {first rest : List α} {passes : α → Bool}
    (low : ∀ item ∈ first, passes item = true) (high : ∀ item ∈ rest, passes item = false)
    : (first ++ rest).filter passes = first
      ∧ (first ++ rest).filter (fun item => !passes item) = rest := by
  constructor
  · rw [List.filter_append, List.filter_eq_self.mpr low,
      List.filter_eq_nil_iff.mpr (by simpa using high), List.append_nil]
  · rw [List.filter_append, List.filter_eq_nil_iff.mpr (by simpa using low),
      List.filter_eq_self.mpr (by simpa using high), List.nil_append]

/-- Of distinct items, those that come before a place are as many as the place says. -/
theorem filter_idxOf {items : List String} (distinct : items.Nodup) (count : Nat)
    : items.filter (fun item => items.idxOf item < count) = items.take count
      ∧ items.filter (fun item => !decide (items.idxOf item < count)) = items.drop count := by
  have low : ∀ item ∈ items.take count, decide (items.idxOf item < count) = true := by
    intro item member
    obtain ⟨index, inside, rfl⟩ := List.mem_iff_getElem.mp member
    rw [List.length_take] at inside
    rw [List.getElem_take, distinct.idxOf_getElem]
    exact decide_eq_true (by omega)
  have high : ∀ item ∈ items.drop count, decide (items.idxOf item < count) = false := by
    intro item member
    obtain ⟨index, inside, rfl⟩ := List.mem_iff_getElem.mp member
    rw [List.getElem_drop, distinct.idxOf_getElem]
    exact decide_eq_false (by omega)
  have cut := filter_of_cut low high
  rwa [List.take_append_drop] at cut

namespace Regular

variable {history : History} (regular : history.Regular) {commit path : String}

include regular

/-- The commits of a file's changes are those of the log that changed it, in the same order. -/
theorem map_commit_changes (path : String)
    : (history.changes path).map Diff.commit
      = history.hashes.toList.filter (history.changed path) := by
  have ordered : ((history.changes path).map Diff.commit).Pairwise fun commit later =>
      history.hashes.toList.idxOf commit < history.hashes.toList.idxOf later := by
    rw [List.pairwise_map]
    refine (regular.changes_ordered path).imp_of_mem fun {diff later} member laterMember => ?_
    rw [place, place, (regular.built.shortHash_of_mem_changes member).2,
      (regular.built.shortHash_of_mem_changes laterMember).2]
    exact id
  have logOrdered : history.hashes.toList.Pairwise fun commit later =>
      history.hashes.toList.idxOf commit < history.hashes.toList.idxOf later := by
    refine List.pairwise_iff_getElem.mpr fun index later inside laterInside before => ?_
    rwa [regular.distinct.idxOf_getElem, regular.distinct.idxOf_getElem]
  have same : ∀ commit,
      commit ∈ (history.changes path).map Diff.commit
      ↔ commit ∈ history.hashes.toList.filter (history.changed path) := by
    intro commit
    rw [List.mem_map, List.mem_filter, changed_iff, Array.mem_toList_iff]
    refine ⟨fun found => ⟨?_, found⟩, And.right⟩
    obtain ⟨diff, member, rfl⟩ := found
    obtain ⟨known, short⟩ := regular.built.shortHash_of_mem_changes member
    rwa [Knows, short] at known
  have distinct : ((history.changes path).map Diff.commit).Nodup :=
    ordered.imp fun before same =>
      Nat.ne_of_lt before (congrArg (List.idxOf · history.hashes.toList) same)
  have perm := (List.perm_ext_iff_of_nodup distinct (regular.distinct.filter _)).mpr same
  refine perm.eq_of_pairwise ?_ ordered (logOrdered.filter _)
  intro commit later _ _ before behind
  exact absurd before (Nat.lt_asymm behind)

/-- Changes of a file that are chosen by the places of their commits are found along the log. -/
theorem map_commit_filter (path : String) (passes : Nat → Bool)
    : ((history.changes path).filter fun diff => passes (history.place diff.commit)).map
        Diff.commit
      = (history.hashes.toList.filter
          fun commit => passes (history.hashes.toList.idxOf commit)).filter
        (history.changed path) := by
  have places : ∀ diff ∈ history.changes path,
      passes (history.place diff.commit)
      = passes (history.hashes.toList.idxOf diff.commit) := by
    intro diff member
    rw [place, (regular.built.shortHash_of_mem_changes member).2]
  calc ((history.changes path).filter fun diff => passes (history.place diff.commit)).map
        Diff.commit
      = ((history.changes path).map Diff.commit).filter
          fun commit => passes (history.hashes.toList.idxOf commit) := by
        rw [List.filter_congr places, List.filter_map]
        rfl
    _ = _ := by
        rw [regular.map_commit_changes, List.filter_filter, List.filter_filter]
        exact List.filter_congr fun _ _ => Bool.and_comm _ _

/-- What a file's changes up to a commit, before it and after it are along the log. -/
theorem map_commit_changesUpTo (commit path : String)
    : (history.changesUpTo commit path).map Diff.commit
      = (history.hashes.toList.take (history.place commit + 1)).filter (history.changed path) := by
  rw [changesUpTo, regular.map_commit_filter path fun place => place ≤ history.place commit,
    ← (filter_idxOf regular.distinct _).1]
  simp only [Nat.lt_succ_iff]

/-- The commits of the changes before a commit are those before it in the log that have changed the
file.
-/
theorem map_commit_changesBefore (commit path : String)
    : (history.changesBefore commit path).map Diff.commit
      = (history.hashes.toList.take (history.place commit)).filter (history.changed path) := by
  rw [changesBefore, regular.map_commit_filter path fun place => place < history.place commit,
    ← (filter_idxOf regular.distinct _).1]

/-- The commits of the changes after a commit are those behind it in the log that have changed the
file.
-/
theorem map_commit_changesAfter (commit path : String)
    : (history.changesAfter commit path).map Diff.commit
      = (history.hashes.toList.drop (history.place commit + 1)).filter (history.changed path) := by
  rw [changesAfter, regular.map_commit_filter path fun place => history.place commit < place,
    ← (filter_idxOf regular.distinct _).2]
  simp only [Nat.lt_succ_iff, ← Nat.not_lt, decide_not, Bool.not_not]

/-- A commit has one place in the log. -/
theorem place_eq {place : Nat} (stands : history.hashes[place]? = some (shortHash commit))
    : history.Knows commit ∧ history.place commit = place := by
  refine ⟨Array.mem_of_getElem? stands, ?_⟩
  rw [← Array.getElem?_toList, List.getElem?_eq_some_iff] at stands
  obtain ⟨inside, there⟩ := stands
  rw [History.place, ← there]
  exact regular.distinct.idxOf_getElem place inside

/-- A file is known if some commit changed it. -/
theorem changes_ne_nil (tracked : path ∈ history.paths) : history.changes path ≠ [] := by
  have known : (history.fileDiffs? path).isSome := by
    rw [fileDiffs?, Option.isSome_map, ← Std.TreeMap.contains_eq_isSome_getElem?,
      Std.TreeMap.contains_iff_mem]
    exact Std.TreeMap.mem_keys.mp tracked
  obtain ⟨ids, listed⟩ := Option.isSome_iff_exists.mp known
  intro unchanged
  have indexed := fileDiffs_eq regular.built path
  rw [fileDiffs, listed, if_pos unchanged] at indexed
  cases indexed

/-- The last change up to a commit is that of the last commit that changed the file. -/
theorem lastChanger?_upTo (commit path : String)
    : history.lastChanger? (history.place commit + 1) path
      = (history.changesUpTo commit path).getLast?.map Diff.commit := by
  rw [lastChanger?, ← List.getLast?_filter, ← regular.map_commit_changesUpTo, List.getLast?_map]

/-- The last commit of the log before a commit that has changed the file is that of the last change
before it.
-/
theorem lastChanger?_before (commit path : String)
    : (history.lastChanger? (history.place commit) path).getD ""
      = lastCommit (history.changesBefore commit path) := by
  rw [lastChanger?, ← List.getLast?_filter, ← regular.map_commit_changesBefore, List.getLast?_map,
    lastCommit]

/-- The first commit of the log behind a commit that has changed the file is that of the first
change after it.
-/
theorem nextChanger?_after (commit path : String)
    : (history.nextChanger? (history.place commit + 1) path).getD ""
      = firstCommit (history.changesAfter commit path) := by
  rw [nextChanger?, ← List.head?_filter, ← regular.map_commit_changesAfter, List.head?_map,
    firstCommit]

/-- A file has not changed since the last commit up to a commit that changed it. -/
theorem changes_of_getLast? {latest : Diff}
    (last : (history.changesUpTo commit path).getLast? = some latest)
    : history.changesUpTo latest.commit path = history.changesUpTo commit path
      ∧ history.changesAfter latest.commit path = history.changesAfter commit path := by
  obtain ⟨earlier, upTo⟩ := List.getLast?_eq_some_iff.mp last
  have split : history.changes path
      = earlier ++ latest :: history.changesAfter commit path := by
    rw [← regular.changesUpTo_append_changesAfter commit path, upTo, List.append_assoc]
    rfl
  obtain ⟨-, here, after⟩ := regular.changes_split split rfl
  exact ⟨here.trans upTo.symm, after⟩

end Regular

end History

-----------------------------------------------------------------------------------------
-- The version in force
-----------------------------------------------------------------------------------------

namespace Blame

/-- The view of a file as of a commit is that of the version behind the last commit up to it that
changed the file. There is none exactly if no commit up to it did. The commits that changed the file
before and that change it next are the nearest ones in the log on either side. Witness: the changes
of the file, cut at the commit, are in the order of the log.
-/
theorem file_shows_version_in_force {history : History} (regular : history.Regular)
    {commit path : String} {place : Nat} (tracked : path ∈ history.paths)
    (stands : history.hashes[place]? = some (shortHash commit))
    : (ofFile history commit path = .error (.fileDoesNotExist path commit)
        ↔ ∀ other ∈ history.hashes.toList.take (place + 1), history.changed path other = false)
      ∧ ∀ changer,
          history.lastChanger? (place + 1) path = some changer
          → ∃ file changed diff,
              ofFile history commit path = .ok file
              ∧ ofFile history changer path = .ok changed
              ∧ diff ∈ history.diffs
              ∧ diff.commit = changer
              ∧ diff.path = path
              ∧ file.hunks = diff.hunks
              ∧ file.next = (history.nextChanger? (place + 1) path).getD ""
              ∧ file.previous = (history.lastChanger? place path).getD ""
              ∧ file.blame = changed.blame
              ∧ file.future = changed.future := by
  obtain ⟨known, rfl⟩ := regular.place_eq stands
  have answer := ofFile_eq regular commit path
  rw [if_neg (regular.changes_ne_nil tracked), if_pos known] at answer
  rw [regular.lastChanger?_upTo, regular.lastChanger?_before, regular.nextChanger?_after]
  have none_iff : (∀ other ∈ history.hashes.toList.take (history.place commit + 1),
      history.changed path other = false) ↔ (history.changesUpTo commit path).getLast? = none := by
    rw [List.getLast?_eq_none_iff, ← List.map_eq_nil_iff (f := Diff.commit),
      regular.map_commit_changesUpTo, List.filter_eq_nil_iff]
    simp only [Bool.not_eq_true]
  cases last : (history.changesUpTo commit path).getLast? with
  | none =>
      rw [last] at answer none_iff
      exact ⟨⟨fun _ => none_iff.mpr rfl, fun _ => answer⟩, nofun⟩
  | some latest =>
      rw [last] at answer none_iff
      refine ⟨⟨fun failed => ?_, fun unchanged => ?_⟩, ?_⟩
      · cases answer.symm.trans failed
      · cases none_iff.mp unchanged
      · rintro changer ⟨⟩
        have member : latest ∈ history.changes path :=
          (List.mem_filter.mp (List.mem_of_getLast? last)).1
        have short := (regular.built.shortHash_of_mem_changes member).2
        obtain ⟨upTo, after⟩ := regular.changes_of_getLast? last
        obtain ⟨listed, samePath⟩ := List.mem_filter.mp member
        refine ⟨_, _, latest, answer, ofFile_of_change regular member short,
          Array.mem_toList_iff.mp listed, rfl, of_decide_eq_true samePath, rfl, rfl, rfl, ?_, ?_⟩
        · rw [upTo]
        · rw [futureOf, futureOf, after]

/-- A history in which the second of three commits left a file alone. -/
def pausedHistory : History :=
  .ofRecords [
    (1, .commit "c1"), (2, .oldPath "/dev/null"), (3, .newPath "f"), (4, .hunk ⟨0, 0, 1, 3⟩),
    (5, .commit "c2"),
    (6, .commit "c3"), (7, .oldPath "f"), (8, .newPath "f"), (9, .hunk ⟨1, 1, 0, 0⟩)]

/-- The history in which a commit leaves the file alone is regular. -/
theorem regular_pausedHistory : pausedHistory.Regular where
  built := History.built_ofRecords _
  distinct := by decide +kernel
  once := by decide +kernel

/-- As of the second commit the file is what the first one made it, until the third changes it. -/
theorem version_of_pausedHistory
    : ∃ file changed,
        ofFile pausedHistory "c2" "f" = .ok file
        ∧ ofFile pausedHistory "c1" "f" = .ok changed
        ∧ file.previous = "c1"
        ∧ file.next = "c3"
        ∧ file.blame = changed.blame := by
  have tracked : "f" ∈ pausedHistory.paths := by decide +kernel
  have stands : pausedHistory.hashes[1]? = some (shortHash "c2") := by decide +kernel
  have last : pausedHistory.lastChanger? 2 "f" = some "c1" := by decide +kernel
  obtain ⟨file, changed, -, answered, found, -, -, -, -, next, previous, blame, -⟩ :=
    (file_shows_version_in_force regular_pausedHistory tracked stands).2 "c1" last
  refine ⟨file, changed, answered, found, ?_, ?_, blame⟩
  · rw [previous]
    decide +kernel
  · rw [next]
    decide +kernel

end Blame

end SourceView
