import SourceView.History.Log

/-! Histories that were put together one commit, diff and hunk after the other.
Their indexes hold the places of the diffs of each commit and each file, and nothing else.
-/

namespace SourceView.History

-----------------------------------------------------------------------------------------
-- Putting a history together
-----------------------------------------------------------------------------------------

/-- A history that was put together by adding to an empty one. -/
inductive Built : History → Prop
  | empty : Built {}
  | commit {history} (built : Built history) (hash : String) : Built (history.pushCommit hash)
  | diff {history path id next} (built : Built history)
    (pushed : history.pushDiff? path = some (id, next))
    : Built next
  | hunk {history id} (built : Built history) (known : id < history.diffCount) (hunk : Hunk)
    : Built (history.pushHunk id hunk)

/-- The commit and the file of each diff, in order. -/
def heads (history : History) : List (String × String) :=
  history.diffs.toList.map fun diff => (diff.commit, diff.path)

/-- A commit adds no diff. -/
@[simp] theorem heads_pushCommit (history : History) (hash : String)
    : (history.pushCommit hash).heads = history.heads := rfl

/-- A hunk adds no diff. -/
@[simp] theorem heads_pushHunk (history : History) (id : Nat) (hunk : Hunk)
    : (history.pushHunk id hunk).heads = history.heads := by
  apply List.ext_getElem?
  intro place
  simp only [heads, pushHunk, Array.toList_modify, List.getElem?_map, List.getElem?_modify]
  cases history.diffs.toList[place]? with
  | none => rfl
  | some diff =>
      by_cases here : id = place <;> simp [here]

/-- A diff is added for the last commit, behind all others. -/
theorem pushDiff?_eq_some {history next : History} {path : String} {id : Nat}
    (pushed : history.pushDiff? path = some (id, next))
    : ∃ commit,
        history.hashes.back? = some commit
        ∧ id = history.diffs.size
        ∧ next = { history with
            diffs := history.diffs.push { commit, path }
            commits := history.commits.alter commit (withPlace id)
            files := history.files.alter path (withPlace id) } := by
  simp only [pushDiff?, Option.bind_eq_bind, Option.bind_eq_some_iff, Option.pure_def,
    Option.some.injEq, Prod.mk.injEq] at pushed
  obtain ⟨commit, last, rfl, rfl⟩ := pushed
  exact ⟨commit, last, rfl, rfl⟩

/-- A diff that is added has its commit and its file behind all others. -/
theorem heads_pushDiff {history : History} {commit path : String} {commits files}
    : ({ history with diffs := history.diffs.push { commit, path }, commits, files }
        : History).heads
      = history.heads ++ [(commit, path)] := by
  simp [heads]

/-- Each diff has its commit and its file. -/
theorem length_heads (history : History) : history.heads.length = history.diffs.size := by
  simp [heads]

-----------------------------------------------------------------------------------------
-- The places of diffs of a kind
-----------------------------------------------------------------------------------------

/-- The places at which items of a kind stand in a list. -/
def placesOf {α : Type} (items : List α) (kind : α → Bool) : List Nat :=
  (List.range items.length).filter fun place => items[place]?.any kind

/-- An item that is added stands behind all others, if it is of the kind. -/
theorem placesOf_concat {α : Type} (items : List α) (item : α) (kind : α → Bool)
    : placesOf (items ++ [item]) kind
      = placesOf items kind ++ if kind item then [items.length] else [] := by
  have before : ∀ place ∈ List.range items.length,
      (items ++ [item])[place]?.any kind = items[place]?.any kind := by
    intro place member
    rw [List.getElem?_append_left (List.mem_range.mp member)]
  simp only [placesOf, List.length_append, List.length_singleton, List.range_succ,
    List.filter_append, List.filter_congr before]
  simp [List.filter_cons]

/-- At the places of a kind stands what is of the kind, by induction on the list. -/
theorem map_placesOf {α : Type} (items : List α) (kind : α → Bool)
    : (placesOf items kind).map (fun place => items[place]?) = (items.filter kind).map some := by
  induction items with
  | nil => rfl
  | cons item rest ih =>
      have shifted : (List.map (· + 1) (List.range rest.length)).filter
          (fun place => (item :: rest)[place]?.any kind) = (placesOf rest kind).map (· + 1) := by
        simp [placesOf, List.filter_map, Function.comp_def]
      have later : ((placesOf rest kind).map (· + 1)).map
          (fun place => (item :: rest)[place]?) = (rest.filter kind).map some := by
        rw [← ih, List.map_map]
        rfl
      rw [placesOf, List.length_cons, List.range_succ_eq_map, List.filter_cons, List.filter_cons]
      rw [show List.map Nat.succ (List.range rest.length)
        = List.map (· + 1) (List.range rest.length) from rfl, shifted]
      by_cases holds : kind item <;> simp only [holds, List.getElem?_cons_zero, Option.any_some,
        if_true, if_false, Bool.false_eq_true, List.map_cons, later]

/-- Where everything that is looked up is there, looking up leaves nothing out. -/
theorem filterMap_eq_of_map_eq {α β : Type} {keys : List α} {find? : α → Option β} {found : List β}
    (same : keys.map find? = found.map some)
    : keys.filterMap find? = found := by
  have kept : keys.filterMap find? = (keys.map find?).filterMap id := by
    rw [List.filterMap_map]
    rfl
  rw [kept, same, List.filterMap_map]
  exact List.filterMap_some

/-- At the places of a kind stand the items of the kind. -/
theorem filterMap_placesOf {α : Type} (items : List α) (kind : α → Bool)
    : (placesOf items kind).filterMap (fun place => items[place]?) = items.filter kind :=
  filterMap_eq_of_map_eq (map_placesOf items kind)

/-- A kind has no places if no item is of it. -/
theorem placesOf_eq_nil_iff {α : Type} {items : List α} {kind : α → Bool}
    : placesOf items kind = [] ↔ ∀ item ∈ items, kind item = false := by
  constructor
  · intro empty
    have filtered := filterMap_placesOf items kind
    rw [empty, List.filterMap_nil, eq_comm, List.filter_eq_nil_iff] at filtered
    simpa using filtered
  · intro unlike
    simp only [placesOf, List.filter_eq_nil_iff, Option.any_eq_true, not_exists, not_and]
    intro place _ item found
    simp [unlike item (List.mem_of_getElem? found)]

-----------------------------------------------------------------------------------------
-- What the indexes of a history hold
-----------------------------------------------------------------------------------------

/-- The places under a key of an index, in order. -/
def placesUnder (index : Std.TreeMap String (Array Nat)) (key : String) : Option (List Nat) :=
  index[key]?.map Array.toList

/-- Indexing one more place under a key puts it behind the places there. -/
theorem placesUnder_alter_withPlace (index : Std.TreeMap String (Array Nat)) (key other : String)
    (place : Nat)
    : placesUnder (index.alter key (withPlace place)) other
      = if key = other then some ((placesUnder index key).getD [] ++ [place])
        else placesUnder index other := by
  rw [placesUnder, Std.TreeMap.getElem?_alter]
  simp only [Std.LawfulEqOrd.compare_eq_iff_eq]
  split
  · cases found : index[key]? <;> simp [placesUnder, withPlace, found]
  · rfl

/-- The indexes agree with the commits and the diffs. -/
structure Indexed (history : History) : Prop where
  /-- A file is known by the places of its diffs, if it has any. -/
  files
    : ∀ path,
        placesUnder history.files path
        = if placesOf history.heads (·.2 = path) = [] then none
          else some (placesOf history.heads (·.2 = path))
  /-- A commit is known by the places of its diffs. -/
  commits
    : ∀ commit,
        placesUnder history.commits commit
        = if commit ∈ history.hashes then some (placesOf history.heads (·.1 = commit)) else none
  /-- A commit stands at the last of the places where it was added. -/
  positions
    : ∀ (commit : String) (place : Nat),
        history.positions[commit]? = some place
        ↔ history.hashes[place]? = some commit
          ∧ ∀ later, place < later → history.hashes[later]? ≠ some commit
  short : ∀ commit ∈ history.hashes, shortHash commit = commit
  known : ∀ head ∈ history.heads, head.1 ∈ history.hashes

/-- A short hash is not shortened again. -/
theorem shortHash_shortHash (hash : String) : shortHash (shortHash hash) = shortHash hash := by
  simp [shortHash, List.take_take]

/-- The indexes of an empty history agree. -/
theorem indexed_empty : Indexed {} where
  files := by simp [placesUnder, heads, placesOf]
  commits := by simp [placesUnder]
  positions := by simp
  short := by simp
  known := by simp [heads]

/-- A commit that is not in the log has no diffs. -/
theorem Indexed.placesOf_eq_nil {history : History} (indexed : Indexed history) {commit : String}
    (unknown : commit ∉ history.hashes)
    : placesOf history.heads (·.1 = commit) = [] := by
  refine placesOf_eq_nil_iff.mpr fun head member => decide_eq_false ?_
  intro same
  subst same
  exact unknown (indexed.known head member)

/-- A commit that is added brings no diff of its own: an index entry that was there is kept, and a
new one is as empty as what it lists.
-/
theorem Indexed.commits_pushCommit {history : History} (indexed : Indexed history)
    (hash commit : String)
    : placesUnder (history.pushCommit hash).commits commit
      = if commit ∈ (history.pushCommit hash).hashes then
          some (placesOf (history.pushCommit hash).heads (·.1 = commit))
        else none := by
  have before := indexed.commits commit
  have fresh : commit ∉ history.hashes → placesOf history.heads (·.1 = commit) = [] :=
    indexed.placesOf_eq_nil
  simp only [placesUnder] at before
  simp only [placesUnder, History.pushCommit, Std.TreeMap.getElem?_alter,
    Std.LawfulEqOrd.compare_eq_iff_eq, Array.mem_push]
  by_cases same : shortHash hash = commit
  · subst same
    simp only [if_true, Option.map_some, or_true, Option.some.injEq]
    by_cases known : shortHash hash ∈ history.hashes
    · rw [if_pos known, Option.map_eq_some_iff] at before
      obtain ⟨places, found, listed⟩ := before
      rw [found, Option.getD_some, listed]
      rfl
    · rw [if_neg known, Option.map_eq_none_iff] at before
      rw [before, Option.getD_none]
      exact (fresh known).symm
  · rw [if_neg same, before]
    simp [Ne.symm same, heads]

/-- An item that is added stands at no place of another one. -/
theorem getElem?_push_eq_some_iff_of_ne {items : Array String} {added item : String}
    (apart : added ≠ item) (place : Nat)
    : (items.push added)[place]? = some item ↔ items[place]? = some item := by
  rw [Array.getElem?_push]
  split
  case isTrue last =>
    rw [last, Array.getElem?_eq_none (Nat.le_refl _)]
    simp [apart]
  case isFalse => rfl

/-- A commit that is added is the last one with its hash. -/
theorem Indexed.positions_pushCommit {history : History} (indexed : Indexed history)
    (hash commit : String) (place : Nat)
    : (history.pushCommit hash).positions[commit]? = some place
      ↔ (history.pushCommit hash).hashes[place]? = some commit
        ∧ ∀ later, place < later → (history.pushCommit hash).hashes[later]? ≠ some commit := by
  simp only [History.pushCommit, Std.TreeMap.getElem?_insert, Std.LawfulEqOrd.compare_eq_iff_eq]
  by_cases same : shortHash hash = commit
  · subst same
    simp only [if_true, Option.some.injEq, Array.getElem?_push]
    constructor
    · intro last
      subst last
      refine ⟨if_pos rfl, ?_⟩
      intro later behind
      rw [if_neg (by omega), Array.getElem?_eq_none (by omega)]
      exact nofun
    · intro stands
      obtain ⟨found, last⟩ := stands
      by_cases end_ : place = history.hashes.size
      · exact end_.symm
      · rw [if_neg end_] at found
        obtain ⟨inside, _⟩ := Array.getElem?_eq_some_iff.mp found
        exact absurd (if_pos rfl) (last history.hashes.size inside)
  · simp only [if_neg same, ne_eq, getElem?_push_eq_some_iff_of_ne same]
    exact indexed.positions commit place

/-- A commit keeps the indexes in agreement. -/
theorem Indexed.pushCommit {history : History} (indexed : Indexed history) (hash : String)
    : Indexed (history.pushCommit hash) where
  files := indexed.files
  commits := indexed.commits_pushCommit hash
  positions := indexed.positions_pushCommit hash
  short := by
    intro commit member
    rcases Array.mem_push.mp member with old | rfl
    · exact indexed.short commit old
    · exact shortHash_shortHash hash
  known := fun head member => Array.mem_push_of_mem _ (indexed.known head member)

/-- A diff that is added stands behind the other diffs, under its commit and under its file. -/
theorem Indexed.pushDiff {history next : History} {path : String} {id : Nat}
    (indexed : Indexed history) (pushed : history.pushDiff? path = some (id, next))
    : Indexed next := by
  obtain ⟨last, back, rfl, rfl⟩ := pushDiff?_eq_some pushed
  have lastKnown : last ∈ history.hashes := Array.mem_of_back? back
  constructor
  · intro other
    rw [placesUnder_alter_withPlace, heads_pushDiff, placesOf_concat, length_heads,
      indexed.files other, indexed.files path]
    by_cases same : path = other
    · subst same
      by_cases first : placesOf history.heads (·.2 = path) = [] <;> simp [first]
    · simp [same]
  · intro commit
    rw [placesUnder_alter_withPlace, heads_pushDiff, placesOf_concat, length_heads,
      indexed.commits commit, indexed.commits last, if_pos lastKnown]
    by_cases same : last = commit
    · subst same
      simp [lastKnown]
    · simp [same]
  · exact indexed.positions
  · exact indexed.short
  · intro head member
    rw [heads_pushDiff, List.mem_append, List.mem_singleton] at member
    rcases member with old | rfl
    · exact indexed.known head old
    · exact lastKnown

/-- A hunk keeps the indexes in agreement. -/
theorem Indexed.pushHunk {history : History} (indexed : Indexed history) (id : Nat) (hunk : Hunk)
    : Indexed (history.pushHunk id hunk) where
  files := by
    rw [heads_pushHunk]
    exact indexed.files
  commits := by
    rw [heads_pushHunk]
    exact indexed.commits
  positions := indexed.positions
  short := indexed.short
  known := by
    rw [heads_pushHunk]
    exact indexed.known

/-- The indexes of a history agree with it however it was put together. -/
theorem Built.indexed {history : History} (built : Built history) : Indexed history := by
  induction built with
  | empty => exact indexed_empty
  | commit _ hash ih => exact ih.pushCommit hash
  | diff _ pushed ih => exact ih.pushDiff pushed
  | hunk _ _ hunk ih => exact ih.pushHunk _ hunk

-----------------------------------------------------------------------------------------
-- Histories of logs
-----------------------------------------------------------------------------------------

/-- The history read so far was put together, and a diff that takes hunks is one of it. -/
structure BuiltSoFar (reading : Log.Reading) : Prop where
  built : reading.history.Built
  taking : ∀ id, reading.diff = some id → id < reading.history.diffCount

/-- A record of a log keeps the history one that was put together, by cases on the record. -/
theorem BuiltSoFar.add {reading next : Log.Reading} (soFar : BuiltSoFar reading) {number : Nat}
    {record : LogRecord} (added : reading.add number record = .ok next)
    : BuiltSoFar next := by
  cases record with
  | commit hash =>
      obtain rfl := Except.ok.inj added
      exact ⟨soFar.built.commit hash, nofun⟩
  | oldPath path =>
      obtain rfl := Except.ok.inj added
      exact ⟨soFar.built, soFar.taking⟩
  | newPath path =>
      simp only [Log.Reading.add] at added
      split at added
      · cases added
      · rename_i id history pushed
        obtain rfl := Except.ok.inj added
        obtain ⟨commit, -, rfl, rfl⟩ := pushDiff?_eq_some pushed
        refine ⟨soFar.built.diff pushed, ?_⟩
        intro _ same
        cases same
        simp [diffCount]
  | hunk hunk =>
      simp only [Log.Reading.add] at added
      split at added
      · cases added
      · rename_i id opened
        obtain rfl := Except.ok.inj added
        refine ⟨soFar.built.hunk (soFar.taking id opened) hunk, ?_⟩
        intro other otherOpened
        simpa [diffCount, History.pushHunk] using soFar.taking other otherOpened

/-- Records are taken in by adding to the history, by induction on the records. -/
theorem BuiltSoFar.addAll {reading final : Log.Reading} (soFar : BuiltSoFar reading)
    {records : List (Nat × LogRecord)} (added : reading.addAll records = .ok final)
    : BuiltSoFar final := by
  induction records generalizing reading with
  | nil =>
      obtain rfl := Except.ok.inj added
      exact soFar
  | cons head rest ih =>
      obtain ⟨number, record⟩ := head
      cases first : reading.add number record with
      | error cause => simp [Log.Reading.addAll, first] at added
      | ok next =>
          simp only [Log.Reading.addAll, first] at added
          exact ih (soFar.add first) added

/-- A history that was read from a log was put together by adding to an empty one. -/
theorem built_of_ofLog {log : List UInt8} {history : History} (read : ofLog log = .ok history)
    : history.Built := by
  simp only [ofLog] at read
  split at read
  · cases read
  · rename_i reading added
    split at read
    · cases read
    · obtain rfl := Except.ok.inj read
      have start : BuiltSoFar {} := ⟨.empty, nofun⟩
      exact (start.addAll added).built

end SourceView.History
