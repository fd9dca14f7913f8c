import SourceView.Blame.Basic
import SourceView.Proofs.History.Built

/-! The changes of a file in the order of the commits.
Where commits are distinct, the diffs of a file stand in the order of their commits, so that any
commit cuts them into those up to it and those after it.
-/

namespace SourceView.History

-----------------------------------------------------------------------------------------
-- The order of commits, and the changes of a file
-----------------------------------------------------------------------------------------

/-- Where in the order a commit stands, or behind all if it is not there. -/
def place (history : History) (commit : String) : Nat :=
  history.hashes.toList.idxOf (shortHash commit)

/-- A commit that a history has, by any text that begins with its short hash. -/
def Knows (history : History) (commit : String) : Prop :=
  shortHash commit ∈ history.hashes

instance (history : History) (commit : String) : Decidable (history.Knows commit) :=
  inferInstanceAs (Decidable (_ ∈ _))

/-- Distinct commits, each of which changed each file at most once. -/
structure Regular (history : History) : Prop where
  built : history.Built
  distinct : history.hashes.toList.Nodup
  once : history.heads.Nodup

/-- The diffs of a file, in the order in which they came. -/
def changes (history : History) (path : String) : List Diff :=
  history.diffs.toList.filter (·.path = path)

/-- The diffs of a file up to a commit. -/
def changesUpTo (history : History) (commit path : String) : List Diff :=
  (history.changes path).filter fun diff => history.place diff.commit ≤ history.place commit

/-- The diffs of a file before a commit. -/
def changesBefore (history : History) (commit path : String) : List Diff :=
  (history.changes path).filter fun diff => history.place diff.commit < history.place commit

/-- The diffs of a file after a commit. -/
def changesAfter (history : History) (commit path : String) : List Diff :=
  (history.changes path).filter fun diff => history.place commit < history.place diff.commit

/-- A commit stands where its short hash does. -/
theorem place_shortHash (history : History) (commit : String)
    : history.place (shortHash commit) = history.place commit := by
  rw [place, place, shortHash_shortHash]

/-- Commits that stand at one place have the same short hash. -/
theorem Knows.shortHash_eq {history : History} {commit other : String}
    (known : history.Knows commit) (same : history.place commit = history.place other)
    : shortHash commit = shortHash other := by
  have inside := List.idxOf_lt_length_of_mem (Array.mem_toList_iff.mpr known)
  have otherInside : history.place other < history.hashes.toList.length := same ▸ inside
  rw [← List.getElem_idxOf inside, ← List.getElem_idxOf otherInside]
  congr 1

/-- A commit that is known has a place in the order, by induction on how the history was put
together.
-/
theorem Built.exists_position? {history : History} (built : history.Built) {commit : String}
    (known : history.Knows commit)
    : ∃ place, history.position? commit = some place := by
  induction built with
  | empty => exact absurd known (by simp [Knows])
  | @commit history _ hash ih =>
      simp only [position?, pushCommit, Std.TreeMap.getElem?_insert,
        Std.LawfulEqOrd.compare_eq_iff_eq]
      rcases Array.mem_push.mp known with before | same
      · obtain ⟨place, found⟩ := ih before
        split
        · exact ⟨_, rfl⟩
        · exact ⟨place, found⟩
      · exact ⟨_, if_pos same.symm⟩
  | diff _ pushed ih =>
      obtain ⟨_, -, -, rfl⟩ := pushDiff?_eq_some pushed
      exact ih known
  | hunk _ _ _ ih => exact ih known

/-- Where commits are distinct, the place of a commit is the one at which it was added. -/
theorem Built.position?_eq {history : History} (built : history.Built)
    (distinct : history.hashes.toList.Nodup) (commit : String)
    : history.position? commit
      = if history.Knows commit then some (history.place commit) else none := by
  have positions := built.indexed.positions (shortHash commit)
  split
  case isTrue known =>
    have member := Array.mem_toList_iff.mpr known
    have inside := List.idxOf_lt_length_of_mem member
    refine (positions (history.place commit)).mpr ⟨?_, ?_⟩
    · rw [← Array.getElem?_toList, place, List.getElem?_eq_getElem inside, List.getElem_idxOf]
    · intro later behind found
      rw [← Array.getElem?_toList, List.getElem?_eq_some_iff] at found
      obtain ⟨there, same⟩ := found
      have := distinct.idxOf_getElem later there
      rw [same] at this
      exact Nat.ne_of_lt behind this
  case isFalse unknown =>
    refine Option.eq_none_iff_forall_ne_some.mpr fun place found => unknown ?_
    exact Array.mem_of_getElem? ((positions place).mp found).1

/-- A commit is found at its place if the history knows it. -/
theorem Regular.position?_eq {history : History} (regular : history.Regular) (commit : String)
    : history.position? commit
      = if history.Knows commit then some (history.place commit) else none :=
  regular.built.position?_eq regular.distinct commit

/-- Diffs stand in the order of their commits. Witness: a commit that is added stands last, and a
diff that is added belongs to the last commit.
-/
theorem Built.heads_ordered {history : History} (built : history.Built)
    (distinct : history.hashes.toList.Nodup)
    : history.heads.Pairwise fun head later =>
        history.hashes.toList.idxOf head.1 ≤ history.hashes.toList.idxOf later.1 := by
  induction built with
  | empty => exact List.Pairwise.nil
  | @commit history built hash ih =>
      simp only [pushCommit, Array.toList_push, List.nodup_append] at distinct
      have known := built.indexed.known
      rw [heads_pushCommit]
      refine (ih distinct.1).imp_of_mem fun {head later} member laterMember ordered => ?_
      simp only [pushCommit, Array.toList_push]
      rw [List.idxOf_append, List.idxOf_append,
        if_pos (Array.mem_toList_iff.mpr (known head member)),
        if_pos (Array.mem_toList_iff.mpr (known later laterMember))]
      exact ordered
  | @diff history path id next built pushed ih =>
      obtain ⟨last, back, rfl, rfl⟩ := pushDiff?_eq_some pushed
      rw [heads_pushDiff]
      refine List.pairwise_append.mpr ⟨ih distinct, List.pairwise_singleton _ _, ?_⟩
      intro head member later laterMember
      obtain rfl := List.mem_singleton.mp laterMember
      have inside := List.idxOf_lt_length_of_mem
        (Array.mem_toList_iff.mpr (built.indexed.known head member))
      rw [Array.back?_eq_getElem?, ← Array.getElem?_toList, List.getElem?_eq_some_iff] at back
      obtain ⟨there, same⟩ := back
      have lastPlace := distinct.idxOf_getElem (history.hashes.size - 1) there
      rw [same] at lastPlace
      simp only [lastPlace, Array.length_toList] at inside ⊢
      omega
  | hunk built known hunk ih =>
      rw [heads_pushHunk]
      exact ih distinct

/-- The commit of a change is known, and is a short hash. -/
theorem Built.shortHash_of_mem_changes {history : History} (built : history.Built) {path : String}
    {diff : Diff} (member : diff ∈ history.changes path)
    : history.Knows diff.commit ∧ shortHash diff.commit = diff.commit := by
  have known : diff.commit ∈ history.hashes :=
    built.indexed.known _ (List.mem_map_of_mem (List.mem_filter.mp member).1)
  have short := built.indexed.short _ known
  exact ⟨by rwa [Knows, short], short⟩

/-- The diffs of a file stand in the order of their commits, of which none changed it twice. -/
theorem Regular.changes_ordered {history : History} (regular : history.Regular) (path : String)
    : (history.changes path).Pairwise fun diff later =>
        history.place diff.commit < history.place later.commit := by
  have apart := (regular.built.heads_ordered regular.distinct).and regular.once
  rw [heads, List.pairwise_map] at apart
  refine (apart.filter _).imp_of_mem fun {diff later} member laterMember ordered => ?_
  obtain ⟨known, short⟩ := regular.built.shortHash_of_mem_changes member
  obtain ⟨-, laterShort⟩ := regular.built.shortHash_of_mem_changes laterMember
  refine Nat.lt_of_le_of_ne ?_ fun same => ordered.2 ?_
  · rw [place, place, short, laterShort]
    exact ordered.1
  · have sameCommit := known.shortHash_eq same
    rw [short, laterShort] at sameCommit
    have diffPath := of_decide_eq_true (List.mem_filter.mp member).2
    have laterPath := of_decide_eq_true (List.mem_filter.mp laterMember).2
    exact Prod.ext sameCommit (diffPath.trans laterPath.symm)

-----------------------------------------------------------------------------------------
-- Cutting the changes of a file at a commit
-----------------------------------------------------------------------------------------

/-- A list in which nothing that passes a test stands behind what does not is its part that passes
and then the rest.
-/
theorem filter_append_filter_not {α : Type} {items : List α} {before : α → α → Prop}
    {passes : α → Bool} (ordered : items.Pairwise before)
    (earlier : ∀ {item later}, before item later → passes later → passes item)
    : items.filter passes ++ items.filter (fun item => !passes item) = items := by
  induction items with
  | nil => rfl
  | cons item rest ih =>
      obtain ⟨first, tail⟩ := List.pairwise_cons.mp ordered
      by_cases passed : passes item
      · simpa [passed] using ih tail
      · have failed : ∀ later ∈ rest, ¬passes later :=
          fun later member passedLater => passed (earlier (first later member) passedLater)
        have empty : rest.filter passes = [] := List.filter_eq_nil_iff.mpr failed
        have all : rest.filter (fun later => !passes later) = rest := by
          simpa [List.filter_eq_self] using failed
        simp [passed, empty, all]

/-- The changes of a file are those up to a commit and then those after it. -/
theorem Regular.changesUpTo_append_changesAfter {history : History} (regular : history.Regular)
    (commit path : String)
    : history.changesUpTo commit path ++ history.changesAfter commit path
      = history.changes path := by
  rw [changesUpTo, changesAfter]
  simp only [← Nat.not_le, decide_not]
  apply filter_append_filter_not (regular.changes_ordered path)
  intro diff later ordered low
  rw [decide_eq_true_eq] at low ⊢
  omega

/-- The changes before a commit are the first ones. -/
theorem Regular.changesBefore_prefix {history : History} (regular : history.Regular)
    (commit path : String)
    : history.changesBefore commit path <+: history.changes path := by
  refine ⟨_, filter_append_filter_not (regular.changes_ordered path) ?_⟩
  intro diff later ordered low
  rw [decide_eq_true_eq] at low ⊢
  omega

/-- A change of a file cuts its changes into those before its commit and those after it. -/
theorem Regular.changes_split {history : History} (regular : history.Regular)
    {commit path : String} {earlier later : List Diff} {diff : Diff}
    (split : history.changes path = earlier ++ diff :: later)
    (here : history.place diff.commit = history.place commit)
    : history.changesBefore commit path = earlier
      ∧ history.changesUpTo commit path = earlier ++ [diff]
      ∧ history.changesAfter commit path = later := by
  rw [changesBefore, changesUpTo, changesAfter, ← here]
  have ordered := regular.changes_ordered path
  rw [split, List.pairwise_append, List.pairwise_cons] at ordered
  obtain ⟨-, ⟨behind, -⟩, before⟩ := ordered
  have below : ∀ other ∈ earlier, history.place other.commit < history.place diff.commit :=
    fun other member => before other member diff (by simp)
  refine ⟨?_, ?_, ?_⟩
  · have empty : (diff :: later).filter
        (fun other => history.place other.commit < history.place diff.commit) = [] := by
      simp only [List.filter_eq_nil_iff, decide_eq_true_eq, List.forall_mem_cons]
      exact ⟨Nat.lt_irrefl _, fun other member => Nat.lt_asymm (behind other member)⟩
    rw [split, List.filter_append, empty, List.append_nil]
    simpa only [List.filter_eq_self, decide_eq_true_eq] using below
  · have empty : later.filter
        (fun other => history.place other.commit ≤ history.place diff.commit) = [] := by
      simp only [List.filter_eq_nil_iff, decide_eq_true_eq]
      exact fun other member => Nat.not_le_of_lt (behind other member)
    rw [split, List.filter_append, List.filter_cons_of_pos (by simp), empty,
      List.append_cancel_right_eq]
    simp only [List.filter_eq_self, decide_eq_true_eq]
    exact fun other member => Nat.le_of_lt (below other member)
  · have empty : earlier.filter
        (fun other => history.place diff.commit < history.place other.commit) = [] := by
      simp only [List.filter_eq_nil_iff, decide_eq_true_eq]
      exact fun other member => Nat.lt_asymm (below other member)
    rw [split, List.filter_append, empty, List.nil_append,
      List.filter_cons_of_neg (by simp)]
    simpa only [List.filter_eq_self, decide_eq_true_eq] using behind

/-- The changes before a commit are those up to it, without the one that the commit made itself.
Witness: the last of those up to it stands there or before it, and all others stand before that.
-/
theorem Regular.changesBefore_eq {history : History} (regular : history.Regular)
    {commit path : String} {earlier : List Diff} {latest : Diff}
    (upTo : history.changesUpTo commit path = earlier ++ [latest])
    : history.changesBefore commit path
      = if latest.commit = shortHash commit then earlier else earlier ++ [latest] := by
  have split : history.changes path
      = earlier ++ latest :: history.changesAfter commit path := by
    rw [← regular.changesUpTo_append_changesAfter commit path, upTo, List.append_assoc]
    rfl
  have latestMember : latest ∈ history.changesUpTo commit path := by simp [upTo]
  obtain ⟨member, low⟩ := List.mem_filter.mp latestMember
  obtain ⟨known, short⟩ := regular.built.shortHash_of_mem_changes member
  by_cases same : latest.commit = shortHash commit
  · rw [if_pos same]
    exact (regular.changes_split split (by rw [same, place_shortHash])).1
  · have before : history.place latest.commit < history.place commit := by
      refine Nat.lt_of_le_of_ne (of_decide_eq_true low) fun there => same ?_
      rw [← known.shortHash_eq there, short]
    have upToLatest := (regular.changes_split split rfl).2.1
    rw [if_neg same, ← upTo, changesBefore, changesUpTo]
    refine List.filter_congr fun diff diffMember => decide_eq_decide.mpr ⟨Nat.le_of_lt, ?_⟩
    intro diffLow
    have diffUpTo : diff ∈ history.changesUpTo latest.commit path := by
      rw [upToLatest, ← upTo]
      exact List.mem_filter.mpr ⟨diffMember, decide_eq_true diffLow⟩
    exact Nat.lt_of_le_of_lt (of_decide_eq_true (List.mem_filter.mp diffUpTo).2) before

end SourceView.History
