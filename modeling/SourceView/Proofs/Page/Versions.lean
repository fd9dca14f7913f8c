import SourceView.Proofs.History.Indexes
import SourceView.Proofs.Outcome
import SourceView.Proofs.Page.CommitPages
import SourceView.Proofs.Repository.Revisions

/-! Which commits a page shows.
The name of a commit is read twice. A history goes by the digits at its start, which tell whose
blame and whose hunks are shown, and a repository goes on from there by the steps behind the digits
to the commit whose texts are shown.
-/

namespace SourceView

-----------------------------------------------------------------------------------------
-- Names that a history and a repository both know
-----------------------------------------------------------------------------------------

/-- The commits of a history are commits of a repository. -/
def History.IsOf (history : History) (repository : Repository) : Prop :=
  ∀ short ∈ history.hashes, ∃ commit ∈ repository.commits, shortHash commit.id = short

/-- A name tells of the commit at its position in the log, and leads from there to a commit of the
repository, which is another one just if a step in the name moves.
-/
structure Named (history : History) (repository : Repository) (name : String)
    (told found : Commit) : Prop where
  member : told ∈ repository.commits
  logged
    : ∃ place,
        history.position? name = some place
        ∧ history.hashes[place]? = some (shortHash told.id)
  led
    : ∃ revision,
        Revision.ofString? name = some revision
        ∧ repository.follow? told revision.steps = some found
        ∧ (found = told ↔ revision.steps.any RevisionStep.moves = false)

section Names

variable {history : History} {repository : Repository} {name : String} {found : Commit}

/-- A name of a commit in the log tells of a commit of the repository that is logged under the same
short hash.
-/
theorem exists_named (built : history.Built) (logs : history.IsOf repository)
    (sound : repository.Sound) (known : history.Knows name)
    (resolved : repository.resolve? name = some found)
    : ∃ told,
        Named history repository name told found
        ∧ found ∈ repository.commits
        ∧ shortHash name = shortHash told.id := by
  obtain ⟨told, member, short⟩ := logs _ known
  obtain ⟨place, stands⟩ := built.exists_position? known
  have logged := (built.position?_eq_some_iff.mp stands).1
  obtain ⟨revision, read, led⟩ := sound.exists_follow?_of_resolve? member short.symm resolved
  obtain ⟨age, older⟩ := sound.order
  obtain ⟨foundMember, reached⟩ := sound.reached_of_follow? older member led
  exact ⟨told, ⟨member, ⟨place, stands, short ▸ logged⟩, revision, read, led, reached.eq_iff⟩,
    foundMember, short.symm⟩

end Names

-----------------------------------------------------------------------------------------
-- What a history tells by the digits of a name
-----------------------------------------------------------------------------------------

/-- Names with the same short hash have the same diffs. -/
theorem History.diffsOf_of_shortHash {history : History} {first second : String}
    (same : shortHash first = shortHash second)
    : history.diffsOf first = history.diffsOf second := by
  rw [diffsOf, same]
  rfl

namespace Blame

/-- A commit is found where the log has it. -/
theorem position_eq_ok_iff {history : History} {commit : String} {place : Nat}
    : position history commit = .ok place ↔ history.position? commit = some place := by
  rw [position]
  cases history.position? commit <;> simp

section Digits

variable {history : History} {first second path : String} {blame : Blame}
  (same : shortHash first = shortHash second)

include same

/-- Names with the same short hash stand at the same place. -/
theorem position_of_shortHash {place : Nat} (stands : position history first = .ok place)
    : position history second = .ok place := by
  rw [position_eq_ok_iff, History.position?] at stands ⊢
  rw [← same, stands]

/-- The blame of a file goes by the digits that are kept. -/
theorem ofFile_of_shortHash (asked : ofFile history first path = .ok blame)
    : ofFile history second path = .ok blame := by
  obtain ⟨diffs, listed, rest⟩ := Outcome.bind_eq_ok_iff.mp asked
  obtain ⟨place, stands, made⟩ := Outcome.bind_eq_ok_iff.mp rest
  refine Outcome.bind_eq_ok_iff.mpr ⟨diffs, listed, Outcome.bind_eq_ok_iff.mpr
    ⟨place, position_of_shortHash same stands, ?_⟩⟩
  rw [← same]
  revert made
  dsimp only
  split
  · intro made
    cases made
  · split
    · intro made
      cases made
    · exact id

/-- The blame of a change goes by the digits that are kept. -/
theorem ofDiff_of_shortHash (asked : ofDiff history first path = .ok blame)
    : ofDiff history second path = .ok blame := by
  obtain ⟨diffs, listed, rest⟩ := Outcome.bind_eq_ok_iff.mp asked
  obtain ⟨place, stands, made⟩ := Outcome.bind_eq_ok_iff.mp rest
  refine Outcome.bind_eq_ok_iff.mpr ⟨diffs, listed, Outcome.bind_eq_ok_iff.mpr
    ⟨place, position_of_shortHash same stands, ?_⟩⟩
  rw [← same]
  revert made
  split
  · intro made
    cases made
  · exact id

end Digits

/-- What has a blame as of a commit has the commit in the log. -/
theorem knows_of_ofFile {history : History} (built : history.Built) {commit path : String}
    {blame : Blame} (asked : ofFile history commit path = .ok blame) : history.Knows commit := by
  obtain ⟨_, -, rest⟩ := Outcome.bind_eq_ok_iff.mp asked
  obtain ⟨place, stands, -⟩ := Outcome.bind_eq_ok_iff.mp rest
  rw [position_eq_ok_iff] at stands
  exact (built.knows_iff commit).2.mp (Option.isSome_iff_exists.mpr ⟨place, stands⟩)

/-- The lines of a page are the lines that have a blame, each with its text. -/
theorem fileLines_getElem? {blame : Blame} {text : String} {place : Nat} {line : FileLine}
    (stands : (blame.fileLines text)[place]? = some line)
    : line.number = place + 1
      ∧ blame.blame[place]? = some line.blame
      ∧ blame.future[place]? = some line.future
      ∧ line.text = ((Text.lines text)[place]?).getD "" := by
  rw [fileLines] at stands
  simp only [List.getElem?_map, List.getElem?_zipIdx, Option.map_eq_some_iff] at stands
  obtain ⟨_, ⟨⟨came, goes⟩, zipped, rfl⟩, rfl⟩ := stands
  obtain ⟨brought, takes⟩ := List.getElem?_zip_eq_some.mp zipped
  refine ⟨by simp, brought, takes, ?_⟩
  simp [Array.getD_eq_getD_getElem?]

end Blame

-----------------------------------------------------------------------------------------
-- The texts of a commit
-----------------------------------------------------------------------------------------

/-- The text of a file in a commit, empty where it is not there. -/
def Commit.text (commit : Commit) (path : String) : String :=
  ((commit.files.get? path).map Text.Utf8.readable).getD ""

/-- The text of a file in a commit that there may be. -/
def textIn (commit : Option Commit) (path : String) : String :=
  (commit.map (·.text path)).getD ""

namespace PageSource

/-- A name is resolved as the repository resolves it. -/
theorem resolve_eq_ok_iff {repository : Repository} {context commit : String} {found : Commit}
    : resolve repository context commit = .ok found ↔ repository.resolve? commit = some found := by
  rw [resolve]
  cases repository.resolve? commit <;> simp

/-- A file that could be read is that of the commit that the name leads to, if the commit has it. -/
theorem exists_of_readFile? {repository : Repository} {commit path : String} {text : Option String}
    (read : readFile? repository commit path = .ok text)
    : ∃ found,
        repository.resolve? commit = some found
        ∧ text = (found.files.get? path).map Text.Utf8.readable := by
  obtain ⟨found, resolved, made⟩ := Outcome.bind_eq_ok_iff.mp read
  exact ⟨found, resolve_eq_ok_iff.mp resolved, (Except.ok.inj made).symm⟩

section Shown

variable {source : PageSource} {repo : BlameRepo} {repository : Repository} {name commit : String}
  (served : source.repos.get? name = some repo)
  (opened : source.repository repo.config.path = some repository)

include served opened

/-- A page of a file shows the blame of its name beside the text of the commit that the name leads
to.
-/
theorem filePage_eq_ok {path : String} {page : FilePage}
    (shown : source.filePage name commit path = .ok page)
    : ∃ blame found content,
        Blame.ofFile repo.history commit path = .ok blame
        ∧ repository.resolve? commit = some found
        ∧ found.files.get? path = some content
        ∧ page.path = path
        ∧ page.lines = blame.fileLines (Text.Utf8.readable content) := by
  simp only [filePage, findRepo, served, Outcome.bind_eq_ok_iff, Outcome.mapError_eq_ok_iff,
    openRepository, opened, Except.ok.injEq, exists_eq_left'] at shown
  obtain ⟨blame, asked, text, read, made⟩ := shown
  cases text with
  | none => cases made
  | some text =>
      obtain ⟨found, resolved, same⟩ := exists_of_readFile? read
      obtain ⟨content, held, rfl⟩ := Option.map_eq_some_iff.mp same.symm
      obtain rfl := Except.ok.inj made
      exact ⟨blame, found, content, asked, resolved, held, rfl, rfl⟩

/-- A page of a commit shows the diffs of its name, and the parent of the commit that the name leads
to.
-/
theorem commitPage_eq_ok {page : CommitPage} (shown : source.commitPage name commit = .ok page)
    : ∃ ids found,
        repo.history.commitDiffs? commit = some ids
        ∧ repository.resolve? commit = some found
        ∧ page.parent = found.parents.head?
        ∧ List.Forall₂
            (fun path change =>
              fileChange repo.history repository commit found.parents.head? path = .ok change)
            ((ids.filterMap repo.history.diff?).map Diff.path) page.files := by
  simp only [commitPage, findRepo, served, Outcome.bind_eq_ok_iff, Except.ok.injEq,
    exists_eq_left'] at shown
  cases listed : repo.history.commitDiffs? commit with
  | none =>
      rw [listed] at shown
      cases shown
  | some ids =>
      rw [listed] at shown
      simp only [openRepository, opened, Outcome.bind_eq_ok_iff, Except.ok.injEq,
        exists_eq_left', Outcome.mapM_eq_ok_iff] at shown
      obtain ⟨found, read, changes, made, page⟩ := shown
      obtain rfl := Except.ok.inj page
      exact ⟨ids, found, rfl, resolve_eq_ok_iff.mp read, rfl, made⟩

end Shown

end PageSource

namespace Repository

/-- The text at a name is that of the commit that the name leads to. -/
theorem textAt_eq {repository : Repository} {name : String} {found : Commit}
    (resolved : repository.resolve? name = some found) (path : String)
    : repository.textAt name path = found.text path := by
  rw [textAt, resolved]
  rfl

/-- The first parent of a commit is in the repository, if there is one. -/
theorem Sound.exists_before {repository : Repository} (sound : repository.Sound) {found : Commit}
    (member : found ∈ repository.commits)
    : ∃ before : Option Commit,
        before.map Commit.id = found.parents.head?
        ∧ (∀ other ∈ before, other ∈ repository.commits)
        ∧ (∀ parent, found.parents.head? = some parent →
            ∃ other, repository.resolve? parent = some other)
        ∧ ∀ path, repository.textBefore found.parents.head? path = textIn before path := by
  cases first : found.parents.head? with
  | none => exact ⟨none, rfl, nofun, nofun, fun _ => rfl⟩
  | some parent =>
      obtain ⟨other, there, rfl⟩ := sound.parents found member parent (List.mem_of_head? first)
      have resolved := sound.resolve?_id there
      refine ⟨some other, rfl, ?_, ?_, fun path => textAt_eq resolved path⟩
      · rintro _ ⟨⟩
        exact there
      · rintro _ ⟨⟩
        exact ⟨other, resolved⟩

end Repository

-----------------------------------------------------------------------------------------
-- What pages show
-----------------------------------------------------------------------------------------

/-- The lines of a file's page are those of a commit's blame, with the texts of a commit. -/
def FilePage.Shows (page : FilePage) (history : History) (told found : Commit) : Prop :=
  ∃ blame content,
    Blame.ofFile history told.id page.path = .ok blame
    ∧ found.files.get? page.path = some content
    ∧ page.lines.length = (blame.blame.zip blame.future).length
    ∧ ∀ (place : Nat) (line : FileLine), page.lines[place]? = some line →
        line.number = place + 1
        ∧ blame.blame[place]? = some line.blame
        ∧ blame.future[place]? = some line.future
        ∧ line.text = ((Text.lines (Text.Utf8.readable content))[place]?).getD ""

/-- A part of a commit's page has the hunks of one of the commit's diffs, and the rows that these
have with the texts of two commits.
-/
structure FileChange.Shows (change : FileChange) (history : History) (told : Commit)
    (before : Option Commit) (found : Commit) : Prop where
  hunks : ∃ diff ∈ history.diffsOf told.id, diff.path = change.path ∧ diff.hunks = change.hunks
  rows
    : ∃ blame,
        Blame.ofDiff history told.id change.path = .ok blame
        ∧ change.hunks = blame.hunks
        ∧ change.rows = blame.diffRows (textIn before change.path) (found.text change.path)

namespace PageSource

section Pages

variable {source : PageSource} {repo : BlameRepo} {repository : Repository} {name commit : String}

/-- What is made of one of a commit's paths shows the first of its diffs there. -/
theorem shows_of_fileChange {history : History} {told before found} {change : FileChange}
    {path : String} (built : history.Built) (known : history.Knows commit)
    (readable : repository.Readable commit found) (short : shortHash commit = shortHash told.id)
    (texts : ∀ path, repository.textBefore found.parents.head? path = textIn before path)
    (listed : path ∈ (history.diffsOf commit).map Diff.path)
    (made : fileChange history repository commit found.parents.head? path = .ok change)
    : change.path = path ∧ change.Shows history told before found := by
  obtain ⟨diff, member, rfl⟩ := List.mem_map.mp listed
  obtain ⟨shown, first⟩ := exists_find?_path member
  have shownPath : shown.path = diff.path := by simpa using List.find?_some first
  obtain ⟨blame, asked, hunks⟩ := Blame.exists_ofDiff_eq_ok_of_find? built known first
  obtain ⟨other, again, path, sameHunks, rows⟩ := fileChange_eq_ok readable asked
  obtain rfl := Except.ok.inj (again.symm.trans made)
  refine ⟨path, ⟨shown, ?_, shownPath.trans path.symm, hunks.symm.trans sameHunks.symm⟩, blame, ?_,
    sameHunks, ?_⟩
  · rw [← History.diffsOf_of_shortHash short]
    exact List.mem_of_find?_eq_some first
  · rw [path]
    exact Blame.ofDiff_of_shortHash short asked
  · rw [rows, texts, Repository.textAt_eq readable.resolved, Blame.diffRows_eq, path]

/-- Pages pair what the history tells of the commit whose digits begin the name with the texts of
the commit to which the name leads, and of that one's first parent. Both are the same commit unless
a step in the name moves.
-/
theorem pages_show_named_texts (built : repo.history.Built) (logs : repo.history.IsOf repository)
    (sound : repository.Sound) (served : source.repos.get? name = some repo)
    (opened : source.repository repo.config.path = some repository)
    : (∀ path page, source.filePage name commit path = .ok page →
        ∃ told found,
          Named repo.history repository commit told found
          ∧ page.path = path
          ∧ page.Shows repo.history told found)
      ∧ ∀ page, source.commitPage name commit = .ok page →
          ∃ told found before,
            Named repo.history repository commit told found
            ∧ before.map Commit.id = found.parents.head?
            ∧ (∀ other ∈ before, other ∈ repository.commits)
            ∧ page.parent = before.map Commit.id
            ∧ page.files.map FileChange.path = (repo.history.diffsOf told.id).map Diff.path
            ∧ ∀ change ∈ page.files, change.Shows repo.history told before found := by
  constructor
  · intro path page shown
    obtain ⟨blame, found, content, asked, resolved, held, rfl, lines⟩ :=
      filePage_eq_ok served opened shown
    have known := Blame.knows_of_ofFile built asked
    obtain ⟨told, named, -, short⟩ := exists_named built logs sound known resolved
    refine ⟨told, found, named, rfl, blame, content, Blame.ofFile_of_shortHash short asked, held,
      ?_, ?_⟩
    · rw [lines, Blame.fileLines, List.length_map, List.length_zipIdx]
    · intro place line stands
      rw [lines] at stands
      exact Blame.fileLines_getElem? stands
  · intro page shown
    obtain ⟨ids, found, listed, resolved, parent, made⟩ := commitPage_eq_ok served opened shown
    have known : repo.history.Knows commit := (built.knows_iff commit).1.mp (by rw [listed]; rfl)
    obtain ⟨told, named, member, short⟩ := exists_named built logs sound known resolved
    obtain ⟨before, same, there, parents, texts⟩ := sound.exists_before member
    obtain ⟨_, again, diffs⟩ := built.commitDiffs?_eq known
    obtain rfl := Option.some.inj (listed.symm.trans again)
    rw [History.filterMap_eq_of_map_eq diffs] at made
    have inOrder : List.Forall₂ (fun change path =>
        change.Shows repo.history told before found ∧ change.path = path)
        page.files ((repo.history.diffsOf commit).map Diff.path) := by
      have listed := (List.forall₂_and_left _ _).mpr ⟨fun path member => member, made⟩
      refine (listed.imp fun path change part => ?_).flip
      exact (shows_of_fileChange built known ⟨resolved, parents⟩ short texts part.1 part.2).symm
    obtain ⟨shows, paths⟩ := (List.forall₂_and_left _ _).mp inOrder
    rw [← List.forall₂_map_left_iff, List.forall₂_eq_eq_eq,
      History.diffsOf_of_shortHash short] at paths
    exact ⟨told, found, before, named, same, there, parent.trans same.symm, paths, shows⟩

end Pages

-----------------------------------------------------------------------------------------
-- A name with a step to the parent
-----------------------------------------------------------------------------------------

/-- The only line of the file as the later commit has it, under a name that leads to its parent. -/
def steppedPage : FilePage where
  repo := "demo"
  commit := "bbbbbbbbbbbbbbbb~1"
  path := "f"
  previous := "bbbbbbbbbbbbbbbb"
  next := ""
  lines := [⟨1, ⟨"bbbbbbbbbbbbbbbb", 1⟩, ⟨"", 1⟩, "x"⟩]

/-- A step back behind the name of the later commit shows the page with the earlier text. -/
theorem filePage_retypedSource
    : retypedSource.filePage "demo" "bbbbbbbbbbbbbbbb~1" "f" = .ok steppedPage := by
  cbv

/-- The earlier commit. -/
def firstCommit : Commit where
  id := "aaaaaaaaaaaaaaaa"
  files := .ofList [("f", Text.Utf8.encode "x\n".toList)]

/-- A step back behind the name of the later commit leads to the first one. -/
theorem resolve?_stepped
    : retypedRepository.resolve? "bbbbbbbbbbbbbbbb~1" = some firstCommit := by
  cbv

/-- The other page under the name compares with what came before the parent, which is nothing. -/
theorem exists_commitPage_stepped
    : ∃ changes,
        retypedSource.commitPage "demo" "bbbbbbbbbbbbbbbb~1" = .ok changes
        ∧ changes.parent = none := by
  have built := History.built_of_ofLog ofLog_retypedLog
  have served : retypedSource.repos.get? "demo" = some retypedRepo := rfl
  have known : retypedRepo.history.Knows "bbbbbbbbbbbbbbbb~1" := by decide +kernel
  obtain ⟨_, changes, -, -, made, -⟩ :=
    exists_commitPage built served known rfl ⟨resolve?_stepped, nofun⟩
  obtain ⟨_, found, -, resolved, parent, -⟩ := commitPage_eq_ok served rfl made
  obtain rfl := Option.some.inj (resolve?_stepped.symm.trans resolved)
  exact ⟨changes, made, parent⟩

/-- The repository of the changed type is one that git could have. -/
theorem sound_retypedRepository : retypedRepository.Sound where
  hashes := by
    have first : IsHash "aaaaaaaaaaaaaaaa" := ⟨by decide, by simp⟩
    have second : IsHash "bbbbbbbbbbbbbbbb" := ⟨by decide, by simp⟩
    intro commit member
    rcases List.mem_pair.mp member with rfl | rfl
    · exact first
    · exact second
  distinct := by decide
  parents := by decide
  order := ⟨fun id => if id = retypingCommit.id then 1 else 0, by decide⟩

/-- The history of the changed type is the one of its repository. -/
theorem retypedHistory_isOf : retypedRepo.history.IsOf retypedRepository := by
  have hashes : retypedRepo.history.hashes = #["aaaaaaaaaaaaaaaa", "bbbbbbbbbbbbbbbb"] := by
    decide +kernel
  intro short member
  rw [hashes, List.mem_toArray, List.mem_pair] at member
  rcases member with rfl | rfl
  · exact ⟨_, List.mem_cons_self, rfl⟩
  · exact ⟨retypingCommit, by decide, rfl⟩

/-- The page pairs the blame of the later commit with the text of its parent. -/
theorem shows_steppedPage
    : ∃ told found,
        Named retypedRepo.history retypedRepository "bbbbbbbbbbbbbbbb~1" told found
        ∧ steppedPage.Shows retypedRepo.history told found
        ∧ found ≠ told := by
  have built := History.built_of_ofLog ofLog_retypedLog
  have served : retypedSource.repos.get? "demo" = some retypedRepo := rfl
  obtain ⟨told, found, named, -, shows⟩ := (pages_show_named_texts built retypedHistory_isOf
    sound_retypedRepository served rfl).1 "f" steppedPage filePage_retypedSource
  refine ⟨told, found, named, shows, ?_⟩
  obtain ⟨revision, read, -, same⟩ := named.led
  have steps : Revision.ofString? "bbbbbbbbbbbbbbbb~1"
      = some ⟨"bbbbbbbbbbbbbbbb", [.ancestor 1]⟩ := by
    cbv
  rw [steps] at read
  obtain rfl := Option.some.inj read
  intro equal
  exact absurd (same.mp equal) (by decide)

/-- A line of a page may have the text of another commit than the one whose blame it has, and the
parent on a page may be another one's. Witness: the name with a step to the parent.
-/
theorem exists_text_of_other_commit
    : ∃ (log : List UInt8) (source : PageSource) (repo : BlameRepo) (repository : Repository)
        (name commit path : String) (told : Commit) (place : Nat) (content : List UInt8)
        (page : FilePage) (line : FileLine) (changes : CommitPage),
        History.ofLog log = .ok repo.history
        ∧ repo.history.IsOf repository
        ∧ repository.Sound
        ∧ source.repos.get? name = some repo
        ∧ source.repository repo.config.path = some repository
        ∧ told ∈ repository.commits
        ∧ repo.history.position? commit = some place
        ∧ repo.history.hashes[place]? = some (shortHash told.id)
        ∧ told.files.get? path = some content
        ∧ source.filePage name commit path = .ok page
        ∧ page.lines[0]? = some line
        ∧ line.text ≠ ((Text.lines (Text.Utf8.readable content))[0]?).getD ""
        ∧ source.commitPage name commit = .ok changes
        ∧ changes.parent ≠ told.parents.head? := by
  obtain ⟨changes, made, parent⟩ := exists_commitPage_stepped
  have text : (Text.lines (Text.Utf8.readable (Text.Utf8.encode ['y'])))[0]? = some "y" := by cbv
  refine ⟨retypedLog, retypedSource, retypedRepo, retypedRepository, "demo",
    "bbbbbbbbbbbbbbbb~1", "f", retypingCommit, 1, Text.Utf8.encode ['y'], steppedPage, _, changes,
    ofLog_retypedLog, retypedHistory_isOf, sound_retypedRepository, rfl, rfl, by decide,
    by decide +kernel, by decide +kernel, rfl, filePage_retypedSource, rfl, ?_, made, ?_⟩
  · rw [text]
    decide
  · rw [parent]
    decide

end PageSource

end SourceView
