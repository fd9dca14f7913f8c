import Mathlib
import SourceView.Api.Blame
import SourceView.Proofs.Blame.Queries
import SourceView.Proofs.Log.Records
import SourceView.Proofs.Page.Rows

/-! What the page of a commit shows.
A page has one part for each diff of the commit, but what a part shows is looked up again by the
path. A commit that has two diffs of one file shows the first of them twice.
-/

namespace SourceView

-----------------------------------------------------------------------------------------
-- The diffs of a commit
-----------------------------------------------------------------------------------------

namespace History

/-- The diffs of a commit, in the order in which they came. -/
def diffsOf (history : History) (commit : String) : List Diff :=
  history.diffs.toList.filter (·.commit = shortHash commit)

/-- The places listed under a commit are those of its diffs. -/
theorem Built.commitDiffs?_eq {history : History} (built : history.Built) {commit : String}
    (known : history.Knows commit)
    : ∃ ids,
        history.commitDiffs? commit = some ids
        ∧ ids.map history.diff? = (history.diffsOf commit).map some := by
  have indexed := built.indexed.commits (shortHash commit)
  rw [if_pos (show shortHash commit ∈ history.hashes from known)] at indexed
  refine ⟨_, indexed, ?_⟩
  have places : placesOf history.heads (·.1 = shortHash commit)
      = placesOf history.diffs.toList (·.commit = shortHash commit) := by
    simp [placesOf, heads, Option.any_map]
  rw [places, diffsOf, ← map_placesOf]
  simp only [Array.getElem?_toList]
  rfl

/-- The first diff of a commit for a file is the first of the file by the commit. -/
theorem find?_changes_eq (history : History) (commit path : String)
    : (history.changes path).find? (·.commit = shortHash commit)
      = (history.diffsOf commit).find? (·.path = path) := by
  simp only [changes, diffsOf, List.find?_filter]
  congr 1
  funext diff
  exact decide_eq_decide.mpr And.comm

end History

namespace Blame

open History

/-- The blame of a change is of the first diff of the commit for the file. -/
theorem exists_ofDiff_eq_ok_of_find? {history : History} (built : history.Built)
    {commit path : String} {shown : Diff} (known : history.Knows commit)
    (found : (history.diffsOf commit).find? (·.path = path) = some shown)
    : ∃ blame, ofDiff history commit path = .ok blame ∧ blame.hunks = shown.hunks := by
  obtain ⟨place, stands⟩ := built.exists_position? known
  rw [← find?_changes_eq] at found
  obtain ⟨-, earlier, later, split, index⟩ := findIdx?_of_find?_eq_some found
  have present : history.changes path ≠ [] := by simp [split]
  have there : (history.changes path)[earlier.length]? = some shown := by simp [split]
  simp only [ofDiff, fileDiffs_eq built, if_neg present, position, stands, bind, Except.bind,
    index, there]
  exact ⟨_, rfl, rfl⟩

end Blame

-----------------------------------------------------------------------------------------
-- Repositories that can be read
-----------------------------------------------------------------------------------------

namespace Repository

/-- The text of a file as of a commit, empty where it is not there. -/
def textAt (repository : Repository) (commit path : String) : String :=
  (((repository.resolve? commit).bind (·.files.get? path)).map Text.Utf8.readable).getD ""

/-- The text of a file before a commit with this parent, empty where there is none. -/
def textBefore (repository : Repository) (parent : Option String) (path : String) : String :=
  (parent.map (repository.textAt · path)).getD ""

/-- A commit can be read, and so can its first parent, if it has any. -/
structure Readable (repository : Repository) (commit : String) (found : Commit) : Prop where
  resolved : repository.resolve? commit = some found
  parent
    : ∀ parent, found.parents.head? = some parent →
        ∃ other, repository.resolve? parent = some other

end Repository

namespace PageSource

/-- A file can be read at a commit that is there, and its text is empty if the commit has no such
file.
-/
theorem readFile?_eq_ok {repository : Repository} {commit : String} {found : Commit}
    (resolved : repository.resolve? commit = some found) (path : String)
    : ∃ text,
        readFile? repository commit path = .ok text
        ∧ text.getD "" = repository.textAt commit path := by
  refine ⟨(found.files.get? path).map Text.Utf8.readable, ?_, ?_⟩
  · simp only [readFile?, resolve, resolved]
    rfl
  · simp [Repository.textAt, resolved]

/-- What a commit changed in a file is read from the blame of the change and from both texts. -/
theorem fileChange_eq_ok {history : History} {repository : Repository} {commit path : String}
    {found : Commit} {blame : Blame} (readable : repository.Readable commit found)
    (asked : Blame.ofDiff history commit path = .ok blame)
    : ∃ change,
        fileChange history repository commit found.parents.head? path = .ok change
        ∧ change.path = path
        ∧ change.hunks = blame.hunks
        ∧ change.rows
          = (blame.sides (repository.textBefore found.parents.head? path)
              (repository.textAt commit path)).rows 1 1 blame.hunks := by
  obtain ⟨newText, newRead, newSame⟩ := readFile?_eq_ok readable.resolved path
  cases first : found.parents.head? with
  | none =>
      simp only [fileChange, asked, newRead, Except.mapError, bind, Except.bind]
      exact ⟨_, rfl, rfl, rfl, by rw [Blame.diffRows_eq, newSame]; rfl⟩
  | some parent =>
      obtain ⟨other, resolved⟩ := readable.parent parent first
      obtain ⟨oldText, oldRead, oldSame⟩ := readFile?_eq_ok resolved path
      simp only [fileChange, asked, newRead, oldRead, Except.mapError, bind, Except.bind]
      exact ⟨_, rfl, rfl, rfl, by rw [Blame.diffRows_eq, newSame, oldSame]; rfl⟩

-----------------------------------------------------------------------------------------
-- The parts of a page
-----------------------------------------------------------------------------------------

/-- Where every action goes well, so do all of them in order, with one result for each. -/
theorem exists_mapM_eq_ok {α β ε : Type} {items : List α} {action : α → Except ε β}
    (each : ∀ item ∈ items, ∃ result, action item = .ok result)
    : ∃ results, items.mapM action = .ok results ∧ items.map action = results.map .ok := by
  induction items with
  | nil => exact ⟨[], rfl, rfl⟩
  | cons item rest ih =>
      obtain ⟨⟨result, first⟩, others⟩ := List.forall_mem_cons.mp each
      obtain ⟨results, done, same⟩ := ih others
      refine ⟨result :: results, ?_, ?_⟩
      · rw [List.mapM_cons, first, done]
        rfl
      · rw [List.map_cons, first, same, List.map_cons]

/-- A part of a page presents a diff: its path and its hunks, and in its rows what the hunks delete
and insert, with the commits that its blame tells and the texts from before and after.
-/
structure Presents (history : History) (repository : Repository) (commit : String)
    (parent : Option String) (change : FileChange) (diff : Diff) : Prop where
  path : change.path = diff.path
  hunks : change.hunks = diff.hunks
  rows
    : ∃ blame deleted inserted,
        Blame.ofDiff history commit diff.path = .ok blame
        ∧ (blame.sides (repository.textBefore parent diff.path)
            (repository.textAt commit diff.path)).Show change.rows diff.hunks deleted inserted

section Page

variable {source : PageSource} {repo : BlameRepo} {repository : Repository} {found : Commit}
  {name commit : String}

/-- What is shown of a file is the first diff of the commit for it. -/
theorem presents_of_find? {path : String} {shown : Diff}
    (built : repo.history.Built) (known : repo.history.Knows commit)
    (readable : repository.Readable commit found)
    (first : (repo.history.diffsOf commit).find? (·.path = path) = some shown)
    : ∃ change,
        fileChange repo.history repository commit found.parents.head? path = .ok change
        ∧ Presents repo.history repository commit found.parents.head? change shown := by
  have here := List.find?_some first
  obtain rfl : shown.path = path := of_decide_eq_true here
  obtain ⟨blame, asked, same⟩ := Blame.exists_ofDiff_eq_ok_of_find? built known first
  obtain ⟨change, made, path, hunks, rows⟩ := fileChange_eq_ok readable asked
  obtain ⟨deleted, inserted, shows⟩ := Sides.exists_show_rows
    (blame.sides (repository.textBefore found.parents.head? shown.path)
      (repository.textAt commit shown.path)) blame.hunks
  rw [← rows, same] at shows
  exact ⟨change, made, path, hunks.trans same, blame, deleted, inserted, asked, shows⟩

/-- There is a first diff with the path of any diff. -/
theorem exists_find?_path {diffs : List Diff} {diff : Diff} (member : diff ∈ diffs)
    : ∃ shown, diffs.find? (·.path = diff.path) = some shown :=
  Option.isSome_iff_exists.mp (List.find?_isSome.mpr ⟨diff, member, decide_eq_true rfl⟩)

/-- The first diff of its file is the one that is found by the file. -/
theorem find?_path_eq_self {diffs : List Diff} {diff : Diff} {place : Nat}
    (here : diffs[place]? = some diff)
    (unlike : ∀ earlier ∈ diffs.take place, earlier.path ≠ diff.path)
    : diffs.find? (·.path = diff.path) = some diff := by
  obtain ⟨inside, there⟩ := List.getElem?_eq_some_iff.mp here
  have split : diffs = diffs.take place ++ diff :: diffs.drop (place + 1) := by
    rw [← there, ← List.drop_eq_getElem_cons inside, List.take_append_drop]
  refine List.find?_eq_some_iff_append.mpr
    ⟨decide_eq_true rfl, diffs.take place, diffs.drop (place + 1), split, fun earlier member => ?_⟩
  simp [unlike earlier member]

/-- A page has a part for each diff of the commit, made by its path. -/
theorem exists_commitPage (built : repo.history.Built)
    (served : source.repos.get? name = some repo) (known : repo.history.Knows commit)
    (opened : source.repository repo.config.path = some repository)
    (readable : repository.Readable commit found)
    : ∃ ids page,
        repo.history.commitDiffs? commit = some ids
        ∧ ids.map repo.history.diff? = (repo.history.diffsOf commit).map some
        ∧ source.commitPage name commit = .ok page
        ∧ ((repo.history.diffsOf commit).map Diff.path).map
            (fileChange repo.history repository commit found.parents.head?)
          = page.files.map .ok := by
  obtain ⟨ids, listed, same⟩ := built.commitDiffs?_eq known
  have diffs := History.filterMap_eq_of_map_eq same
  have each : ∀ path ∈ (repo.history.diffsOf commit).map Diff.path, ∃ change,
      fileChange repo.history repository commit found.parents.head? path = .ok change := by
    intro path member
    obtain ⟨diff, inside, rfl⟩ := List.mem_map.mp member
    obtain ⟨shown, first⟩ := exists_find?_path inside
    obtain ⟨change, made, -⟩ := presents_of_find? built known readable first
    exact ⟨change, made⟩
  obtain ⟨changes, made, parts⟩ := exists_mapM_eq_ok each
  refine ⟨ids, ⟨name, commit, found.parents.head?, changes⟩, listed, same, ?_, parts⟩
  simp only [commitPage, findRepo, served, listed, openRepository, opened, resolve,
    readable.resolved, diffs, made, bind, Except.bind]
  rfl

/-- The part of a page at the place of a diff is what was made of the diff's path. -/
theorem getElem?_of_map_eq {diffs : List Diff} {changes : List FileChange}
    {make : String → Except ApiError FileChange} {place : Nat} {diff : Diff} {change : FileChange}
    (parts : (diffs.map Diff.path).map make = changes.map .ok) (here : diffs[place]? = some diff)
    (made : make diff.path = .ok change)
    : changes[place]? = some change := by
  have there := congrArg (·[place]?) parts
  simp only [List.getElem?_map, here, Option.map_some, made] at there
  obtain ⟨found, same, equal⟩ := Option.map_eq_some_iff.mp there.symm
  rw [same, Except.ok.inj equal]

/-- A page has a part for each diff of the commit, in order, and each part presents the first diff
of the commit for the file. That is the part's own diff, unless an earlier one is of the same file.
-/
theorem parts_present_first_diffs {log : List UInt8} (told : History.ofLog log = .ok repo.history)
    (served : source.repos.get? name = some repo) (known : repo.history.Knows commit)
    (opened : source.repository repo.config.path = some repository)
    (readable : repository.Readable commit found)
    : ∃ ids page,
        repo.history.commitDiffs? commit = some ids
        ∧ ids.map repo.history.diff? = (repo.history.diffsOf commit).map some
        ∧ source.commitPage name commit = .ok page
        ∧ page.files.length = ids.length
        ∧ ∀ (place : Nat) (diff : Diff), (repo.history.diffsOf commit)[place]? = some diff →
            ∃ change shown,
              page.files[place]? = some change
              ∧ change.path = diff.path
              ∧ (repo.history.diffsOf commit).find? (·.path = diff.path) = some shown
              ∧ Presents repo.history repository commit found.parents.head? change shown
              ∧ ((∀ earlier ∈ (repo.history.diffsOf commit).take place, earlier.path ≠ diff.path)
                → shown = diff) := by
  have built := History.built_of_ofLog told
  obtain ⟨ids, page, listed, same, made, parts⟩ := exists_commitPage built served known opened
    readable
  have length : page.files.length = ids.length := by
    have idsLength := congrArg List.length same
    have partsLength := congrArg List.length parts
    simp only [List.length_map] at idsLength partsLength
    rw [idsLength, partsLength]
  refine ⟨ids, page, listed, same, made, length, fun place diff here => ?_⟩
  obtain ⟨shown, first⟩ := exists_find?_path (List.mem_of_getElem? here)
  obtain ⟨change, changed, presents⟩ := presents_of_find? built known readable first
  have path : shown.path = diff.path := by simpa using List.find?_some first
  refine ⟨change, shown, getElem?_of_map_eq parts here changed, presents.path.trans path, first,
    presents, fun unlike => ?_⟩
  exact Option.some.inj (first.symm.trans (find?_path_eq_self here unlike))

end Page

-----------------------------------------------------------------------------------------
-- A file that one commit both deletes and adds
-----------------------------------------------------------------------------------------

/-- A log in which a file comes, and then gives way to a link of its name. -/
def retypedLog : List UInt8 :=
  Text.Utf8.encode
    ("commit aaaaaaaaaaaaaaaa\n--- /dev/null\n+++ f\n@@ -0,0 +1 @@\n+x\n"
      ++ "commit bbbbbbbbbbbbbbbb\n--- f\n+++ /dev/null\n@@ -1 +0,0 @@\n-x\n"
      ++ "--- /dev/null\n+++ f\n@@ -0,0 +1 @@\n+y\n").toList

/-- The records of the log. -/
def retypedRecords : List LogRecord := [
  .commit "aaaaaaaaaaaaaaaa", .oldPath "/dev/null", .newPath "f", .hunk ⟨0, 0, 1, 1⟩,
  .commit "bbbbbbbbbbbbbbbb", .oldPath "f", .newPath "/dev/null", .hunk ⟨1, 1, 0, 0⟩,
  .oldPath "/dev/null", .newPath "f", .hunk ⟨0, 0, 1, 1⟩]

/-- The history that the log tells of. -/
def retypedHistory : History :=
  ((({} : Log.Reading).follow? retypedRecords).map Log.Reading.history).getD {}

/-- The later of the two commits. -/
def retypingCommit : Commit where
  id := "bbbbbbbbbbbbbbbb"
  parents := ["aaaaaaaaaaaaaaaa"]
  files := .ofList [("f", Text.Utf8.encode ['y'])]

/-- A repository with both commits. -/
def retypedRepository : Repository where
  commits := [
    { id := "aaaaaaaaaaaaaaaa", files := .ofList [("f", Text.Utf8.encode "x\n".toList)] },
    retypingCommit]

/-- The history with the place of the repository. -/
def retypedRepo : BlameRepo where
  config := { name := "demo", path := "demo.git" }
  history := retypedHistory

/-- A source of the pages of the repository. -/
def retypedSource : PageSource where
  repos := .ofList [("demo", retypedRepo)]
  repository := fun _ => some retypedRepository

set_option maxRecDepth 4000 in
/-- The log of the changed type is read as its records. -/
theorem scan_retypedLog : (Log.scan retypedLog).Found retypedRecords where
  records := by cbv
  complete := by cbv

/-- The history of the changed type is the one of its log. -/
theorem ofLog_retypedLog : History.ofLog retypedLog = .ok retypedRepo.history := by
  obtain ⟨reading, followed⟩ := Option.isSome_iff_exists.mp
    (show (({} : Log.Reading).follow? retypedRecords).isSome = true from rfl)
  refine Log.ofLog_eq_ok_iff.mpr ⟨_, reading, scan_retypedLog, followed, ?_⟩
  simp [retypedRepo, retypedHistory, followed]

/-- The commit that changes the type of a file has two diffs of the file. -/
theorem diffsOf_retypedHistory
    : retypedHistory.diffsOf "bbbbbbbbbbbbbbbb"
      = [⟨"bbbbbbbbbbbbbbbb", "f", [⟨1, 1, 0, 0⟩]⟩, ⟨"bbbbbbbbbbbbbbbb", "f", [⟨0, 0, 1, 1⟩]⟩] := by
  decide +kernel

/-- Each file can be read at the commit that changes the type. -/
theorem readable_retypedRepository
    : retypedRepository.Readable "bbbbbbbbbbbbbbbb" retypingCommit where
  resolved := by decide +kernel
  parent := by
    intro parent first
    obtain rfl : "aaaaaaaaaaaaaaaa" = parent := Option.some.inj first
    exact Option.isSome_iff_exists.mp (by decide +kernel)

/-- The page of the later commit has two parts, of which the first shows the deletion. -/
theorem page_of_retypedLog
    : ∃ page change,
        retypedSource.commitPage "demo" "bbbbbbbbbbbbbbbb" = .ok page
        ∧ page.files.length = 2
        ∧ page.files[0]? = some change
        ∧ change.hunks = [⟨1, 1, 0, 0⟩] := by
  have served : retypedSource.repos.get? "demo" = some retypedRepo := rfl
  have known : retypedRepo.history.Knows "bbbbbbbbbbbbbbbb" := by decide +kernel
  obtain ⟨ids, page, -, same, made, length, parts⟩ := parts_present_first_diffs ofLog_retypedLog
    served known rfl readable_retypedRepository
  rw [show retypedRepo.history = retypedHistory from rfl, diffsOf_retypedHistory] at same parts
  obtain ⟨change, shown, part, -, -, presents, own⟩ := parts 0 _ rfl
  obtain rfl := own (by simp)
  have count := congrArg List.length same
  rw [List.length_map] at count
  exact ⟨page, change, made, length.trans count, part, presents.hunks⟩

/-- The second part does not show the second diff: it shows the deletion again, and no line as
inserted. Witness: the page whose two diffs are of one file.
-/
theorem exists_part_of_other_diff
    : ∃ (log : List UInt8) (source : PageSource) (repo : BlameRepo) (repository : Repository)
        (found : Commit) (name commit : String) (page : CommitPage) (diff : Diff)
        (change : FileChange),
        History.ofLog log = .ok repo.history
        ∧ repo.history.hashes.toList.Nodup
        ∧ source.repos.get? name = some repo
        ∧ repo.history.Knows commit
        ∧ source.repository repo.config.path = some repository
        ∧ repository.Readable commit found
        ∧ source.commitPage name commit = .ok page
        ∧ (repo.history.diffsOf commit)[1]? = some diff
        ∧ page.files[1]? = some change
        ∧ change.hunks ≠ diff.hunks
        ∧ (change.rows.filter DiffRow.isRight).length ≠ Blame.insertedCount diff.hunks := by
  have built := History.built_of_ofLog ofLog_retypedLog
  have served : retypedSource.repos.get? "demo" = some retypedRepo := rfl
  have known : retypedRepo.history.Knows "bbbbbbbbbbbbbbbb" := by decide +kernel
  have distinct : retypedRepo.history.hashes.toList.Nodup := by decide +kernel
  have diffs := diffsOf_retypedHistory
  have first : (retypedRepo.history.diffsOf "bbbbbbbbbbbbbbbb").find? (·.path = "f")
      = some ⟨"bbbbbbbbbbbbbbbb", "f", [⟨1, 1, 0, 0⟩]⟩ := by
    rw [show retypedRepo.history = retypedHistory from rfl, diffs]
    rfl
  have second : (retypedRepo.history.diffsOf "bbbbbbbbbbbbbbbb")[1]?
      = some ⟨"bbbbbbbbbbbbbbbb", "f", [⟨0, 0, 1, 1⟩]⟩ := by
    rw [show retypedRepo.history = retypedHistory from rfl, diffs]
    rfl
  obtain ⟨_, page, -, -, made, parts⟩ := exists_commitPage built served known rfl
    readable_retypedRepository
  obtain ⟨change, changed, presents⟩ :=
    presents_of_find? built known readable_retypedRepository first
  obtain ⟨_, _, inserted, -, shows⟩ := presents.rows
  have noneInserted : (change.rows.filter DiffRow.isRight).length = 0 := by
    rw [shows.right, List.length_map, shows.insertedAll]
    rfl
  refine ⟨retypedLog, retypedSource, retypedRepo, retypedRepository, retypingCommit, "demo",
    "bbbbbbbbbbbbbbbb", page, _, change, ofLog_retypedLog, distinct, served, known, rfl,
    readable_retypedRepository, made, second, getElem?_of_map_eq parts second changed, ?_, ?_⟩
  · rw [presents.hunks]
    decide
  · rw [noneInserted]
    decide

end PageSource

end SourceView
