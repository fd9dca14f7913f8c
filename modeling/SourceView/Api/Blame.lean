import SourceView.Api.Error
import SourceView.Blame.Row
import SourceView.Load.History
import SourceView.Repository.Basic
import SourceView.Text.Utf8

/-! The pages that show a file with its blame, and what a commit changed. -/

namespace SourceView

/-- A file as of a commit, with its blame. -/
structure FilePage where
  repo : String
  commit : String
  path : String
  /-- The commit that changed the file before, if any did. -/
  previous : String
  /-- The commit that changes the file next, if any does. -/
  next : String
  lines : List FileLine
  deriving DecidableEq, Repr

/-- What a commit changed in one file. -/
structure FileChange where
  path : String
  previous : String
  next : String
  hunks : List Hunk
  rows : List DiffRow
  deriving DecidableEq, Repr

/-- What a commit changed. -/
structure CommitPage where
  repo : String
  commit : String
  /-- The commit that it is compared with. -/
  parent : Option String
  files : List FileChange
  deriving DecidableEq, Repr

/-- What pages are made from: histories, and the repositories at the paths where there are any. -/
structure PageSource where
  repos : BlameRepos
  repository : String → Option Repository

namespace PageSource

/-- The repository of a name. -/
def findRepo (source : PageSource) (name : String) : Except ApiError BlameRepo :=
  match source.repos.get? name with
  | some repo => .ok repo
  | none => .error ⟨.notFound, "Unknown repository " ++ name⟩

/-- Open a repository. -/
def openRepository (source : PageSource) (repo : BlameRepo) : Except ApiError Repository :=
  match source.repository repo.config.path with
  | some repository => .ok repository
  | none => .error ⟨.internal, "Failed to open repository"⟩

/-- The commit of a name, which was needed for something. -/
def resolve (repository : Repository) (context commit : String) : Except ApiError Commit :=
  match repository.resolve? commit with
  | some found => .ok found
  | none => .error (.internal context ("Failed to resolve commit " ++ commit))

/-- The text of a file as of a commit, if the commit has the file. -/
def readFile? (repository : Repository) (commit path : String)
    : Except ApiError (Option String) := do
  let found ← resolve repository "Failed to read file" commit
  return (found.files.get? path).map Text.Utf8.readable

/-- The page of a file as of a commit. -/
def filePage (source : PageSource) (repo commit path : String) : Except ApiError FilePage := do
  let found ← source.findRepo repo
  let blame ← (Blame.ofFile found.history commit path).mapError ApiError.ofBlame
  let repository ← source.openRepository found
  match ← readFile? repository commit path with
  | none =>
    throw ⟨.notFound, "file " ++ path ++ " is not in the repository at " ++ commit⟩
  | some text =>
    return {
      repo, commit, path
      previous := blame.previous
      next := blame.next
      lines := blame.fileLines text }

/-- What a commit with this parent changed in one file. A file that is not there has no lines. -/
def fileChange (history : History) (repository : Repository) (commit : String)
    (parent : Option String) (path : String) : Except ApiError FileChange := do
  let blame ← (Blame.ofDiff history commit path).mapError ApiError.ofBlame
  let oldText ← match parent with
    | some parent => readFile? repository parent path
    | none => pure none
  let newText ← readFile? repository commit path
  return {
    path
    previous := blame.previous
    next := blame.next
    hunks := blame.hunks
    rows := blame.diffRows (oldText.getD "") (newText.getD "") }

/-- The page of what a commit changed. -/
def commitPage (source : PageSource) (repo commit : String) : Except ApiError CommitPage := do
  let found ← source.findRepo repo
  match found.history.commitDiffs? commit with
  | none => throw ⟨.notFound, "no such commit: " ++ commit⟩
  | some ids =>
    let repository ← source.openRepository found
    let parent := (← resolve repository "Failed to resolve parent" commit).parents.head?
    let paths := (ids.filterMap found.history.diff?).map Diff.path
    let files ← paths.mapM (fileChange found.history repository commit parent)
    return { repo, commit, parent, files }

end PageSource

end SourceView
