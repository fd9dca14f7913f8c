import SourceView.Proofs.History.Order

/-! The indexes of a history beside its diffs.
Whatever was added, and in whatever order, a diff is found under its own commit and under its own
file and nowhere else, and a commit is found where it was added last.
-/

namespace SourceView.History

-----------------------------------------------------------------------------------------
-- The places of diffs of a kind, in order
-----------------------------------------------------------------------------------------

section Places

variable {α : Type} {items : List α} {kind : α → Bool} {place : Nat}

/-- The places of a kind are in ascending order. -/
theorem placesOf_ascending (items : List α) (kind : α → Bool)
    : (placesOf items kind).Pairwise (· < ·) :=
  List.pairwise_lt_range.filter _

/-- A place is one of a kind if there stands an item of the kind. -/
theorem mem_placesOf
    : place ∈ placesOf items kind ↔ ∃ item, items[place]? = some item ∧ kind item = true := by
  rw [placesOf, List.mem_filter, Option.any_eq_true, List.mem_range]
  refine ⟨And.right, fun found => ⟨?_, found⟩⟩
  obtain ⟨item, there, -⟩ := found
  exact (List.getElem?_eq_some_iff.mp there).1

/-- The place of an item of a kind is listed once. -/
theorem count_placesOf {item : α} (found : items[place]? = some item) (holds : kind item = true)
    : (placesOf items kind).count place = 1 := by
  have distinct : (placesOf items kind).Nodup := (placesOf_ascending items kind).imp Nat.ne_of_lt
  exact distinct.count.trans (if_pos (mem_placesOf.mpr ⟨item, found, holds⟩))

end Places

-----------------------------------------------------------------------------------------
-- What is found in the indexes
-----------------------------------------------------------------------------------------

section Indexes

variable {history : History} (built : history.Built)

/-- At the place of a diff stand its commit and its file. -/
theorem getElem?_heads (history : History) (id : Nat)
    : history.heads[id]? = (history.diff? id).map fun diff => (diff.commit, diff.path) := by
  rw [heads, List.getElem?_map, Array.getElem?_toList, diff?]

/-- A handle is one of a kind if its diff is of the kind. -/
theorem mem_placesOf_heads {kind : String × String → Bool} {id : Nat}
    : id ∈ placesOf history.heads kind
      ↔ ∃ diff, history.diff? id = some diff ∧ kind (diff.commit, diff.path) = true := by
  rw [mem_placesOf, getElem?_heads]
  cases history.diff? id <;> simp

/-- The handle of a diff of a kind is listed once. -/
theorem count_placesOf_heads {kind : String × String → Bool} {id : Nat} {diff : Diff}
    (found : history.diff? id = some diff) (holds : kind (diff.commit, diff.path) = true)
    : (placesOf history.heads kind).count id = 1 := by
  have head : history.heads[id]? = some (diff.commit, diff.path) := by
    rw [getElem?_heads, found, Option.map_some]
  exact count_placesOf head holds

include built

/-- A commit that the history knows has the places of its diffs, and no other commit has any. -/
theorem Built.commitDiffs?_eq_ite (commit : String)
    : history.commitDiffs? commit
      = if history.Knows commit then some (placesOf history.heads (·.1 = shortHash commit))
        else none :=
  built.indexed.commits (shortHash commit)

/-- A file that was changed has the places of its diffs, and no other file has any. -/
theorem Built.fileDiffs?_eq_ite (path : String)
    : history.fileDiffs? path
      = if placesOf history.heads (·.2 = path) = [] then none
        else some (placesOf history.heads (·.2 = path)) :=
  built.indexed.files path

/-- A diff belongs to a commit that is known, by its short hash. -/
theorem Built.knows_of_diff? {id : Nat} {diff : Diff} (found : history.diff? id = some diff)
    : history.Knows diff.commit ∧ shortHash diff.commit = diff.commit := by
  have member : diff ∈ history.changes diff.path :=
    List.mem_filter.mpr
      ⟨Array.mem_toList_iff.mpr (Array.mem_of_getElem? found), decide_eq_true rfl⟩
  exact built.shortHash_of_mem_changes member

/-- The diffs that are listed for a commit are those with its short hash. -/
theorem Built.commitDiffs?_eq_some {commit : String} {ids : List Nat}
    (listed : history.commitDiffs? commit = some ids)
    : ids = placesOf history.heads (·.1 = shortHash commit) := by
  rw [built.commitDiffs?_eq_ite] at listed
  split at listed
  · exact (Option.some.inj listed).symm
  · cases listed

/-- The diffs that are listed for a file are those with its path. -/
theorem Built.fileDiffs?_eq_some {path : String} {ids : List Nat}
    (listed : history.fileDiffs? path = some ids)
    : ids = placesOf history.heads (·.2 = path) := by
  rw [built.fileDiffs?_eq_ite] at listed
  split at listed
  · cases listed
  · exact (Option.some.inj listed).symm

/-- A diff is listed under its commit, which is known even if it has no diff. -/
theorem Built.commitDiffs?_of_diff? {id : Nat} {diff : Diff}
    (found : history.diff? id = some diff)
    : ∃ ids, history.commitDiffs? diff.commit = some ids ∧ ids.count id = 1 := by
  obtain ⟨known, short⟩ := built.knows_of_diff? found
  refine ⟨_, (built.commitDiffs?_eq_ite _).trans (if_pos known), ?_⟩
  exact count_placesOf_heads found (decide_eq_true short.symm)

/-- A diff is listed under its file, which is known because of it. -/
theorem Built.fileDiffs?_of_diff? {id : Nat} {diff : Diff}
    (found : history.diff? id = some diff)
    : ∃ ids, history.fileDiffs? diff.path = some ids ∧ ids.count id = 1 := by
  have counted : (placesOf history.heads (·.2 = diff.path)).count id = 1 :=
    count_placesOf_heads found (decide_eq_true rfl)
  have present : placesOf history.heads (·.2 = diff.path) ≠ [] := by
    intro empty
    rw [empty] at counted
    cases counted
  exact ⟨_, (built.fileDiffs?_eq_ite _).trans (if_neg present), counted⟩

/-- A commit stands at the last place of its short hash. -/
theorem Built.position?_eq_some_iff {commit : String} {place : Nat}
    : history.position? commit = some place
      ↔ history.hashes[place]? = some (shortHash commit)
        ∧ ∀ later, place < later → history.hashes[later]? ≠ some (shortHash commit) :=
  built.indexed.positions (shortHash commit) place

/-- Both indexes of commits know those that the history has. -/
theorem Built.knows_iff (commit : String)
    : ((history.commitDiffs? commit).isSome ↔ shortHash commit ∈ history.hashes)
      ∧ ((history.position? commit).isSome ↔ shortHash commit ∈ history.hashes) := by
  constructor
  · rw [built.commitDiffs?_eq_ite, Option.isSome_ite]
    rfl
  · constructor
    · intro known
      obtain ⟨place, found⟩ := Option.isSome_iff_exists.mp known
      exact Array.mem_of_getElem? (built.position?_eq_some_iff.mp found).1
    · intro known
      obtain ⟨place, found⟩ := built.exists_position? known
      exact Option.isSome_iff_exists.mpr ⟨place, found⟩

/-- Along the list of a file, commits come in their order if they are distinct. -/
theorem Built.fileDiffs?_ordered (distinct : history.hashes.toList.Nodup) {path : String}
    {ids : List Nat} (listed : history.fileDiffs? path = some ids)
    : ids.Pairwise fun id later =>
        ∃ diff laterDiff place laterPlace,
          history.diff? id = some diff
          ∧ history.diff? later = some laterDiff
          ∧ history.position? diff.commit = some place
          ∧ history.position? laterDiff.commit = some laterPlace
          ∧ place ≤ laterPlace := by
  obtain rfl := built.fileDiffs?_eq_some listed
  refine (placesOf_ascending _ _).imp_of_mem fun {id later} member laterMember before => ?_
  obtain ⟨diff, found, -⟩ := mem_placesOf_heads.mp member
  obtain ⟨laterDiff, laterFound, -⟩ := mem_placesOf_heads.mp laterMember
  obtain ⟨known, short⟩ := built.knows_of_diff? found
  obtain ⟨laterKnown, laterShort⟩ := built.knows_of_diff? laterFound
  refine ⟨diff, laterDiff, history.place diff.commit, history.place laterDiff.commit, found,
    laterFound, (built.position?_eq distinct _).trans (if_pos known),
    (built.position?_eq distinct _).trans (if_pos laterKnown), ?_⟩
  have head : history.heads[id]? = some (diff.commit, diff.path) := by
    rw [getElem?_heads, found, Option.map_some]
  have laterHead : history.heads[later]? = some (laterDiff.commit, laterDiff.path) := by
    rw [getElem?_heads, laterFound, Option.map_some]
  obtain ⟨inside, here⟩ := List.getElem?_eq_some_iff.mp head
  obtain ⟨laterInside, there⟩ := List.getElem?_eq_some_iff.mp laterHead
  have ordered := List.pairwise_iff_getElem.mp (built.heads_ordered distinct) id later inside
    laterInside before
  rwa [here, there, ← short, ← laterShort] at ordered

end Indexes

-----------------------------------------------------------------------------------------
-- Agreement
-----------------------------------------------------------------------------------------

/-- The indexes of a history list each diff where it belongs and nowhere else, and tell of each
commit where it was added last.
-/
structure Consistent (history : History) : Prop where
  /-- A diff is listed once under its commit and once under its file. -/
  listed
    : ∀ id diff,
        history.diff? id = some diff
        → (∃ ids, history.commitDiffs? diff.commit = some ids ∧ ids.count id = 1)
          ∧ ∃ ids, history.fileDiffs? diff.path = some ids ∧ ids.count id = 1
  /-- Under a commit, its own diffs are listed in the order in which they came. -/
  commits
    : ∀ commit ids,
        history.commitDiffs? commit = some ids
        → ids.Pairwise (· < ·)
          ∧ ∀ id ∈ ids,
              ∃ diff, history.diff? id = some diff ∧ diff.commit = shortHash commit
  /-- Under a file, its own diffs are listed in the order in which they came. -/
  files
    : ∀ path ids,
        history.fileDiffs? path = some ids
        → ids.Pairwise (· < ·)
          ∧ ∀ id ∈ ids, ∃ diff, history.diff? id = some diff ∧ diff.path = path
  /-- The indexes of commits know the same commits. -/
  known
    : ∀ commit,
        ((history.commitDiffs? commit).isSome ↔ shortHash commit ∈ history.hashes)
        ∧ ((history.position? commit).isSome ↔ shortHash commit ∈ history.hashes)
  /-- A commit stands where it was added last. -/
  last
    : ∀ commit place,
        history.position? commit = some place
        ↔ history.hashes[place]? = some (shortHash commit)
          ∧ ∀ later, place < later → history.hashes[later]? ≠ some (shortHash commit)
  /-- Where commits are distinct, those that changed a file are listed in their order. -/
  ordered
    : history.hashes.toList.Nodup
      → ∀ path ids,
          history.fileDiffs? path = some ids
          → ids.Pairwise fun id later =>
              ∃ diff laterDiff place laterPlace,
                history.diff? id = some diff
                ∧ history.diff? later = some laterDiff
                ∧ history.position? diff.commit = some place
                ∧ history.position? laterDiff.commit = some laterPlace
                ∧ place ≤ laterPlace

/-- The indexes of a history that was put together agree. -/
theorem Built.consistent {history : History} (built : history.Built) : history.Consistent where
  listed _ _ found := ⟨built.commitDiffs?_of_diff? found, built.fileDiffs?_of_diff? found⟩
  commits commit ids listed := by
    obtain rfl := built.commitDiffs?_eq_some listed
    refine ⟨placesOf_ascending _ _, fun id member => ?_⟩
    obtain ⟨diff, found, same⟩ := mem_placesOf_heads.mp member
    exact ⟨diff, found, of_decide_eq_true same⟩
  files path ids listed := by
    obtain rfl := built.fileDiffs?_eq_some listed
    refine ⟨placesOf_ascending _ _, fun id member => ?_⟩
    obtain ⟨diff, found, same⟩ := mem_placesOf_heads.mp member
    exact ⟨diff, found, of_decide_eq_true same⟩
  known := built.knows_iff
  last _ _ := built.position?_eq_some_iff
  ordered distinct _ _ := built.fileDiffs?_ordered distinct

/-- A hunk is added to its diff, and the other diffs stay as they are. -/
theorem diff?_pushHunk (history : History) (id other : Nat) (hunk : Hunk)
    : (history.pushHunk id hunk).diff? other
      = if id = other then
          (history.diff? other).map fun diff => { diff with hunks := diff.hunks ++ [hunk] }
        else history.diff? other := by
  rw [diff?, pushHunk, Array.getElem?_modify, diff?]

/-- However a history was put together, its indexes agree with its diffs, and a hunk that is added
to a diff changes nothing but the hunks of this diff.
-/
theorem indexes_agree {history : History} (built : history.Built)
    : history.Consistent
      ∧ ∀ id diff hunk,
          history.diff? id = some diff
          → (history.pushHunk id hunk).hashes = history.hashes
            ∧ (history.pushHunk id hunk).positions = history.positions
            ∧ (history.pushHunk id hunk).commits = history.commits
            ∧ (history.pushHunk id hunk).files = history.files
            ∧ (history.pushHunk id hunk).diff? id
              = some { diff with hunks := diff.hunks ++ [hunk] }
            ∧ ∀ other, other ≠ id → (history.pushHunk id hunk).diff? other = history.diff? other
    := by
  refine ⟨built.consistent, fun id diff hunk found => ⟨rfl, rfl, rfl, rfl, ?_, ?_⟩⟩
  · rw [diff?_pushHunk, if_pos rfl, found, Option.map_some]
  · intro other apart
    rw [diff?_pushHunk, if_neg (Ne.symm apart)]

/-- The history of the records of a log, or an empty one if they cannot stand so. -/
def ofRecords (records : List (Nat × LogRecord)) : History :=
  match ({} : Log.Reading).addAll records with
  | .ok reading => reading.history
  | .error _ => {}

/-- The history of any records was put together. -/
theorem built_ofRecords (records : List (Nat × LogRecord)) : (ofRecords records).Built := by
  rw [ofRecords]
  split
  · rename_i reading added
    have start : BuiltSoFar {} := ⟨.empty, nofun⟩
    exact (start.addAll added).built
  · exact .empty

/-- A history in which a commit is added again behind another one, and changes a file both times. -/
def repeatedHistory : History :=
  ofRecords [
    (1, .commit "a"), (2, .oldPath "f"), (3, .newPath "f"), (4, .hunk ⟨0, 0, 1, 3⟩),
    (5, .commit "b"),
    (6, .commit "a"), (7, .oldPath "f"), (8, .newPath "f"), (9, .hunk ⟨1, 1, 0, 0⟩)]

/-- The commit stands where it was added again, and has both of its diffs. -/
theorem indexes_of_repeatedHistory
    : repeatedHistory.Built
      ∧ repeatedHistory.diff? 1 = some ⟨"a", "f", [⟨1, 1, 0, 0⟩]⟩
      ∧ repeatedHistory.position? "a" = some 2
      ∧ (∃ ids, repeatedHistory.commitDiffs? "a" = some ids ∧ ids.count 1 = 1)
      ∧ (repeatedHistory.pushHunk 1 ⟨2, 1, 1, 0⟩).diff? 1
        = some ⟨"a", "f", [⟨1, 1, 0, 0⟩, ⟨2, 1, 1, 0⟩]⟩ := by
  have built : repeatedHistory.Built := built_ofRecords _
  obtain ⟨consistent, changes⟩ := indexes_agree built
  have found : repeatedHistory.diff? 1 = some ⟨"a", "f", [⟨1, 1, 0, 0⟩]⟩ := by decide +kernel
  obtain ⟨-, -, -, -, pushed, -⟩ := changes 1 _ ⟨2, 1, 1, 0⟩ found
  refine ⟨built, found, (consistent.last "a" 2).mpr ⟨by decide +kernel, ?_⟩,
    (consistent.listed 1 _ found).1, pushed⟩
  intro later behind
  have count : repeatedHistory.hashes.size = 3 := by decide +kernel
  rw [Array.getElem?_eq_none (by omega)]
  exact nofun

end SourceView.History
