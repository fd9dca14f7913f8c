import SourceView.Proofs.Blame.Queries
import SourceView.Proofs.Blame.Tracking
import SourceView.Proofs.Outcome

/-! Where the lines of a file came from and where they go, in a history whose diffs fit.
Both sides of an answer are about the same lines, so that the link from a line to a commit leads
to an answer about that very line.
-/

namespace SourceView

/-- Distinct commits with names, each of which changed each file at most once, where the changes
of a file fit one after the other from no lines on.
-/
structure History.WellFormed (history : History) : Prop extends History.Regular history where
  named : "" ∉ history.hashes
  fits : ∀ path, Blame.FitInTurn 0 (history.changes path)

namespace Blame

open Segment

-----------------------------------------------------------------------------------------
-- Answers by the changes of a file
-----------------------------------------------------------------------------------------

section Answers

variable {history : History} (regular : history.Regular) {commit path : String} {result : Blame}

include regular

/-- The blame of a version comes from the changes up to it, and its future from all changes. -/
theorem ofFile_eq_ok (answered : ofFile history commit path = .ok result)
    : result.blame = flatten (replay [] (history.changesUpTo commit path))
      ∧ result.future = futureOf history commit path := by
  rw [ofFile_eq regular] at answered
  by_cases empty : history.changes path = []
  · simp [empty] at answered
  by_cases known : history.Knows commit
  · rw [if_neg empty, if_pos known] at answered
    cases latest : (history.changesUpTo commit path).getLast? with
    | none => simp [latest] at answered
    | some diff =>
        rw [latest] at answered
        obtain rfl := Except.ok.inj answered
        exact ⟨rfl, rfl⟩
  · simp [empty, known] at answered

/-- The blame before a change comes from the changes before it, and its future from all changes. -/
theorem ofDiff_eq_ok (answered : ofDiff history commit path = .ok result)
    : result.blame = flatten (replay [] (history.changesBefore commit path))
      ∧ result.future = futureOf history commit path := by
  rw [ofDiff_eq regular] at answered
  by_cases empty : history.changes path = []
  · simp [empty] at answered
  by_cases known : history.Knows commit
  · rw [if_neg empty, if_pos known] at answered
    cases found : (history.changes path).find? (·.commit = shortHash commit) with
    | none => simp [found] at answered
    | some diff =>
        rw [found] at answered
        obtain rfl := Except.ok.inj answered
        exact ⟨rfl, rfl⟩
  · simp [empty, known] at answered

/-- A commit that changed a file has an answer for the file. -/
theorem exists_ofFile_eq_ok {diff : Diff} (member : diff ∈ history.changes path)
    : ∃ result, ofFile history diff.commit path = .ok result := by
  have known := (regular.built.shortHash_of_mem_changes member).1
  have upTo : diff ∈ history.changesUpTo diff.commit path :=
    List.mem_filter.mpr ⟨member, decide_eq_true (Nat.le_refl _)⟩
  have last := List.getLast?_eq_some_getLast (List.ne_nil_of_mem upTo)
  rw [ofFile_eq regular, if_neg (List.ne_nil_of_mem member), if_pos known, last]
  exact ⟨_, rfl⟩

/-- Each change of a file has an answer to the question what it changed. -/
theorem exists_ofDiff_eq_ok {diff : Diff} (member : diff ∈ history.changes path)
    : ∃ result, ofDiff history diff.commit path = .ok result := by
  obtain ⟨known, short⟩ := regular.built.shortHash_of_mem_changes member
  rw [ofDiff_eq regular, if_neg (List.ne_nil_of_mem member), if_pos known]
  cases found : (history.changes path).find? (·.commit = shortHash diff.commit) with
  | none =>
      rw [List.find?_eq_none] at found
      exact absurd (decide_eq_true short.symm) (found diff member)
  | some other => exact ⟨_, rfl⟩

end Answers

-----------------------------------------------------------------------------------------
-- Lines in histories whose diffs fit
-----------------------------------------------------------------------------------------

section WellFormed

variable {history : History} (wellFormed : history.WellFormed) {commit path : String}

include wellFormed

/-- The changes up to a version fit one behind the other, and those after it fit behind them. -/
theorem fitInTurn_cut
    : FitInTurn 0 (history.changesUpTo commit path)
      ∧ FitInTurn (lineCountThrough 0 (history.changesUpTo commit path))
          (history.changesAfter commit path) := by
  rw [← fitInTurn_append, wellFormed.changesUpTo_append_changesAfter]
  exact wellFormed.fits path

/-- Replaying the first changes of a file accounts for the version that they lead to. -/
theorem attributed_of_split {earlier later : List Diff}
    (split : history.changes path = earlier ++ later)
    : Attributed earlier (replay [] earlier) := by
  have fits := wellFormed.fits path
  rw [split, fitInTurn_append] at fits
  exact attributed_nil.replay fits.1

/-- Replaying the changes up to a version brings each line with its origin. -/
theorem attributed_upTo (commit path : String)
    : Attributed (history.changesUpTo commit path)
        (replay [] (history.changesUpTo commit path)) :=
  attributed_of_split wellFormed
    (wellFormed.changesUpTo_append_changesAfter commit path).symm

/-- Replaying the changes before a version brings each line with its origin. -/
theorem attributed_before (commit path : String)
    : Attributed (history.changesBefore commit path)
        (replay [] (history.changesBefore commit path)) := by
  obtain ⟨later, split⟩ := wellFormed.changesBefore_prefix commit path
  exact attributed_of_split wellFormed split.symm

/-- The future of a version gives the fate of each of its lines in the changes after it. -/
theorem futureOf_eq_fates
    : futureOf history commit path
      = fates (lineCountThrough 0 (history.changesUpTo commit path))
          (history.changesAfter commit path) := by
  apply flatten_replayBack_eq_fates (fitInTurn_cut wellFormed).2
  have whole : Attributed (history.changes path) (replay [] (history.changes path)) :=
    attributed_of_split wellFormed (List.append_nil _).symm
  rw [flatten_wipe_eq_fates, ← length_flatten, whole.count, ← lineCountThrough_append,
    wellFormed.changesUpTo_append_changesAfter]

/-- Only lines of the version have a future, and it is their fate. -/
theorem getElem?_futureOf_eq_some {index : Nat} {origin : Origin}
    (found : (futureOf history commit path)[index]? = some origin)
    : index < lineCountThrough 0 (history.changesUpTo commit path)
      ∧ fate (history.changesAfter commit path) (index + 1) = origin := by
  rw [futureOf_eq_fates wellFormed] at found
  have inside := (List.getElem?_eq_some_iff.mp found).1
  rw [length_fates] at inside
  have there := getElem?_fates (history.changesAfter commit path) (Nat.le_add_left 1 index) inside
  rw [Nat.add_sub_cancel, found] at there
  exact ⟨inside, (Option.some.inj there).symm⟩

/-- Each line of the version has its fate for its future. -/
theorem getElem?_futureOf {line : Nat} (positive : 1 ≤ line)
    (inside : line ≤ lineCountThrough 0 (history.changesUpTo commit path))
    : (futureOf history commit path)[line - 1]?
      = some (fate (history.changesAfter commit path) line) := by
  rw [futureOf_eq_fates wellFormed, getElem?_fates _ positive inside]

/-- A line that a commit deletes is the same line before that commit. -/
theorem taken_same_line {index line : Nat} {taker : String}
    (found : (futureOf history commit path)[index]? = some ⟨taker, line⟩) (named : taker ≠ "")
    : history.place commit < history.place taker
      ∧ 1 ≤ line
      ∧ ∃ taken origin,
          ofDiff history taker path = .ok taken
          ∧ taken.blame[line - 1]? = some origin
          ∧ (flatten (replay [] (history.changesUpTo commit path)))[index]? = some origin := by
  obtain ⟨inside, ends⟩ := getElem?_futureOf_eq_some wellFormed found
  rcases fate_cases (history.changesAfter commit path) (index + 1) with
    ⟨newest, -, stays⟩ | ⟨between, diff, rest, before, split, followed, -, goes⟩
  · rw [stays, Origin.mk.injEq] at ends
    exact absurd ends.1.symm named
  rw [goes, Origin.mk.injEq] at ends
  obtain ⟨rfl, rfl⟩ := ends
  have whole : history.changes path
      = (history.changesUpTo commit path ++ between) ++ diff :: rest := by
    rw [← wellFormed.changesUpTo_append_changesAfter commit path, split, List.append_assoc]
  have later : diff ∈ history.changesAfter commit path := by simp [split]
  obtain ⟨taken, answered⟩ :=
    exists_ofDiff_eq_ok wellFormed.toRegular (List.mem_filter.mp later).1
  have account := attributed_upTo wellFormed commit path
  rw [← account.count] at inside
  have came := (account.getElem?_eq_some_iff index _).mp (List.getElem?_eq_getElem inside)
  obtain ⟨positive, same⟩ :=
    ((attributed_of_split wellFormed whole).origin _ _).mp (came.append followed)
  have before := (wellFormed.changes_split whole rfl).1
  refine ⟨of_decide_eq_true (List.mem_filter.mp later).2, positive, taken, _, answered, ?_,
    List.getElem?_eq_getElem inside⟩
  rwa [(ofDiff_eq_ok wellFormed.toRegular answered).1, before]

/-- A line that a commit brought is the same line behind that commit. -/
theorem brought_same_line {index line : Nat} {bringer : String}
    (found : (flatten (replay [] (history.changesUpTo commit path)))[index]?
      = some ⟨bringer, line⟩)
    : history.place bringer ≤ history.place commit
      ∧ 1 ≤ line
      ∧ ∃ brought goal,
          ofFile history bringer path = .ok brought
          ∧ brought.blame[line - 1]? = some ⟨bringer, line⟩
          ∧ brought.future[line - 1]? = some goal
          ∧ (futureOf history commit path)[index]? = some goal := by
  have account := attributed_upTo wellFormed commit path
  have inside := (List.getElem?_eq_some_iff.mp found).1
  rw [account.count] at inside
  obtain ⟨earlier, diff, later, split, rfl, ⟨hunk, member, brings⟩, followed⟩ :=
    (account.getElem?_eq_some_iff index _).mp found
  have whole : history.changes path
      = earlier ++ diff :: (later ++ history.changesAfter commit path) := by
    rw [← wellFormed.changesUpTo_append_changesAfter commit path, split]
    simp
  obtain ⟨-, upTo, after⟩ := wellFormed.changes_split whole rfl
  have before : diff ∈ history.changesUpTo commit path := by simp [split]
  obtain ⟨brought, answered⟩ :=
    exists_ofFile_eq_ok wellFormed.toRegular (List.mem_filter.mp before).1
  obtain ⟨blame, future⟩ := ofFile_eq_ok wellFormed.toRegular answered
  have broughtAccount := attributed_upTo wellFormed diff.commit path
  rw [upTo] at broughtAccount
  obtain ⟨positive, same⟩ :=
    (broughtAccount.origin _ _).mp (.of_brings earlier member brings)
  have broughtInside := (List.getElem?_eq_some_iff.mp same).1
  rw [broughtAccount.count, ← upTo] at broughtInside
  refine ⟨of_decide_eq_true (List.mem_filter.mp before).2, positive, brought, _, answered, ?_, ?_,
    getElem?_futureOf wellFormed (Nat.le_add_left 1 index) inside⟩
  · rwa [blame, upTo]
  · rw [future, getElem?_futureOf wellFormed positive (by omega), after,
      fate_append_of_followThrough followed]

end WellFormed

-----------------------------------------------------------------------------------------
-- Every line of an answer
-----------------------------------------------------------------------------------------

/-- A log of three commits: a file of three lines comes, its second line becomes two, and its first
line goes.
-/
def threeCommits : List (Nat × LogRecord) := [
  (1, .commit "c1"), (2, .oldPath "/dev/null"), (3, .newPath "b.rs"), (4, .hunk ⟨0, 0, 1, 3⟩),
  (5, .commit "c2"), (6, .oldPath "b.rs"), (7, .newPath "b.rs"), (8, .hunk ⟨2, 1, 2, 2⟩),
  (9, .commit "c3"), (10, .oldPath "b.rs"), (11, .newPath "b.rs"), (12, .hunk ⟨1, 1, 0, 0⟩)]

/-- The history of the three commits. -/
def threeCommitHistory : History :=
  match ({} : Log.Reading).addAll threeCommits with
  | .ok reading => reading.history
  | .error _ => {}

/-- The three commits write a file, change its second line and delete its first one. -/
theorem diffs_threeCommitHistory
    : threeCommitHistory.diffs.toList = [
        ⟨"c1", "b.rs", [⟨0, 0, 1, 3⟩]⟩,
        ⟨"c2", "b.rs", [⟨2, 1, 2, 2⟩]⟩,
        ⟨"c3", "b.rs", [⟨1, 1, 0, 0⟩]⟩] := by
  decide +kernel

/-- The history of three commits is well-formed. -/
theorem threeCommitHistory_wellFormed : threeCommitHistory.WellFormed where
  built := by
    rw [threeCommitHistory]
    split
    · rename_i reading added
      have start : History.BuiltSoFar {} := ⟨.empty, nofun⟩
      exact (start.addAll added).built
    · exact .empty
  distinct := by decide +kernel
  once := by decide +kernel
  named := by decide +kernel
  fits := by
    intro path
    rw [History.changes, diffs_threeCommitHistory]
    by_cases same : "b.rs" = path
    · subst same
      decide +kernel
    · simp [same, FitInTurn]

/-- The second of the three commits has four lines, and the first one is deleted by the third
commit.
-/
theorem ofFile_threeCommitHistory
    : ofFile threeCommitHistory "c2" "b.rs"
      = .ok {
        blame := [⟨"c1", 1⟩, ⟨"c2", 2⟩, ⟨"c2", 3⟩, ⟨"c1", 3⟩]
        future := [⟨"c3", 1⟩, ⟨"", 1⟩, ⟨"", 2⟩, ⟨"", 3⟩]
        previous := "c1"
        next := "c3"
        hunks := [⟨2, 1, 2, 2⟩] } :=
  Outcome.toOption_eq_some_iff.mp (by decide +kernel)

/-- Each line of a version either stays to the newest version or goes to the first change that
deletes it. Witness: replaying all changes, wiping and replaying back finds what following the line
forwards finds.
-/
theorem future_follows_lines {history : History} (wellFormed : history.WellFormed)
    {commit path : String} {result : Blame}
    (answered
      : ofFile history commit path = .ok result ∨ ofDiff history commit path = .ok result)
    : result.future.length = lineCountThrough 0 (history.changesUpTo commit path)
      ∧ ∀ index < result.future.length,
          (∃ newest,
            followThrough (history.changesAfter commit path) (index + 1) = some newest
            ∧ result.future[index]? = some ⟨"", newest⟩)
          ∨ ∃ between diff rest before,
              history.changesAfter commit path = between ++ diff :: rest
              ∧ followThrough between (index + 1) = some before
              ∧ (∃ hunk ∈ diff.hunks, hunk.Takes before)
              ∧ result.future[index]? = some ⟨diff.commit, before⟩ := by
  have future : result.future = futureOf history commit path := by
    rcases answered with answered | answered
    · exact (ofFile_eq_ok wellFormed.toRegular answered).2
    · exact (ofDiff_eq_ok wellFormed.toRegular answered).2
  have length : result.future.length = lineCountThrough 0 (history.changesUpTo commit path) := by
    rw [future, futureOf_eq_fates wellFormed, length_fates]
  refine ⟨length, ?_⟩
  intro index inside
  rw [length] at inside
  have found := getElem?_futureOf wellFormed (Nat.le_add_left 1 index) inside
  rw [← future, Nat.add_sub_cancel] at found
  rcases fate_cases (history.changesAfter commit path) (index + 1) with
    ⟨newest, followed, ends⟩ | ⟨between, diff, rest, before, split, followed, takes, ends⟩
  · exact .inl ⟨newest, followed, by rw [found, ends]⟩
  · exact .inr ⟨between, diff, rest, before, split, followed, takes, by rw [found, ends]⟩

/-- Of the lines behind the second commit, the first goes with the third commit. -/
theorem future_of_threeCommits
    : ∃ result,
        ofFile threeCommitHistory "c2" "b.rs" = .ok result
        ∧ result.future[0]? = some ⟨"c3", 1⟩
        ∧ result.future.length
          = lineCountThrough 0 (threeCommitHistory.changesUpTo "c2" "b.rs") :=
  ⟨_, ofFile_threeCommitHistory, rfl,
    (future_follows_lines threeCommitHistory_wellFormed (.inl ofFile_threeCommitHistory)).1⟩

/-- Each line of a version came from the change that inserted it, and so did each line of the
version before a change. Witness: replaying accounts for the changes up to the commit, and for those
before it.
-/
theorem blame_follows_lines {history : History} (wellFormed : history.WellFormed)
    (commit path : String)
    : (∀ result,
        ofFile history commit path = .ok result
        → result.blame.length = lineCountThrough 0 (history.changesUpTo commit path)
          ∧ ∀ index origin,
              result.blame[index]? = some origin
              ↔ CameFrom (history.changesUpTo commit path) (index + 1) origin)
      ∧ ∀ result,
          ofDiff history commit path = .ok result
          → result.blame.length = lineCountThrough 0 (history.changesBefore commit path)
            ∧ ∀ index origin,
                result.blame[index]? = some origin
                ↔ CameFrom (history.changesBefore commit path) (index + 1) origin := by
  constructor
  · intro result answered
    have account := attributed_upTo wellFormed commit path
    rw [(ofFile_eq_ok wellFormed.toRegular answered).1]
    exact ⟨account.count, account.getElem?_eq_some_iff⟩
  · intro result answered
    have account := attributed_before wellFormed commit path
    rw [(ofDiff_eq_ok wellFormed.toRegular answered).1]
    exact ⟨account.count, account.getElem?_eq_some_iff⟩

/-- Behind the second commit, the last line is the one that the first commit inserted last. -/
theorem blame_of_threeCommits
    : ∃ result,
        ofFile threeCommitHistory "c2" "b.rs" = .ok result
        ∧ result.blame[3]? = some ⟨"c1", 3⟩
        ∧ CameFrom (threeCommitHistory.changesUpTo "c2" "b.rs") 4 ⟨"c1", 3⟩ := by
  have answered := ofFile_threeCommitHistory
  have lines := (blame_follows_lines threeCommitHistory_wellFormed "c2" "b.rs").1 _ answered
  exact ⟨_, answered, rfl, (lines.2 3 ⟨"c1", 3⟩).mp rfl⟩

/-- The link from a line to the commit that deletes it leads to the same line before that commit,
and the link to the commit that brought it leads to the same line behind that commit.
-/
theorem links_lead_to_same_line {history : History} (wellFormed : history.WellFormed)
    {commit path : String} {result : Blame} (answered : ofFile history commit path = .ok result)
    (index : Nat)
    : (∀ taker line,
        result.future[index]? = some ⟨taker, line⟩
        → taker ≠ ""
        → history.place commit < history.place taker
          ∧ 1 ≤ line
          ∧ ∃ taken origin,
              ofDiff history taker path = .ok taken
              ∧ taken.blame[line - 1]? = some origin
              ∧ result.blame[index]? = some origin)
      ∧ ∀ bringer line,
          result.blame[index]? = some ⟨bringer, line⟩
          → history.place bringer ≤ history.place commit
            ∧ 1 ≤ line
            ∧ ∃ brought goal,
                ofFile history bringer path = .ok brought
                ∧ brought.blame[line - 1]? = some ⟨bringer, line⟩
                ∧ brought.future[line - 1]? = some goal
                ∧ result.future[index]? = some goal := by
  obtain ⟨blame, future⟩ := ofFile_eq_ok wellFormed.toRegular answered
  rw [blame, future]
  constructor
  · intro taker line found named
    exact taken_same_line wellFormed found named
  · intro bringer line found
    exact brought_same_line wellFormed found

/-- The first line behind the second commit leads to the first line before the third. -/
theorem links_of_threeCommits
    : ∃ taken,
        ofDiff threeCommitHistory "c3" "b.rs" = .ok taken
        ∧ taken.blame[0]? = some ⟨"c1", 1⟩ := by
  have links := links_lead_to_same_line threeCommitHistory_wellFormed ofFile_threeCommitHistory 0
  obtain ⟨-, -, taken, origin, answered, before, here⟩ := links.1 "c3" 1 rfl (by decide)
  obtain rfl := Option.some.inj here
  exact ⟨taken, answered, before⟩

end Blame

end SourceView
