import SourceView.Config.Basic
import SourceView.Load.Files
import SourceView.Load.GitLog

/-! Loading the histories of the repositories that are configured.
The history of a repository comes from git's log. Where the repository has a place for it, the
stripped log is kept there, and git is not asked again as long as it is there.
-/

namespace SourceView

/-- Why a history cannot be loaded. -/
inductive LoadError where
  | log (cause : GitLog.Failure)
  | notCreated (path : String) (cause : FileError)
  | notMoved (path : String) (cause : FileError)
  | notOpened (path : String) (cause : FileError)
  /-- The stripped log that was kept is of no use. -/
  | unreadableCache (path : String) (cause : LogError)
  deriving DecidableEq, Repr

/-- The text that tells why a history cannot be loaded. -/
def LoadError.message : LoadError → String
  | log cause => cause.message
  | notCreated path cause => "Failed to create " ++ path ++ ": " ++ cause.message
  | notMoved path cause => "Failed to move cache into " ++ path ++ ": " ++ cause.message
  | notOpened path cause => "Failed to open " ++ path ++ ": " ++ cause.message
  | unreadableCache path cause =>
    "Failed to parse stripped log " ++ path ++ ": " ++ cause.account

/-- The files around a run of the program, and how often it has called git with what. -/
structure Workspace where
  store : FileStore := {}
  calls : List (List String) := []
  deriving DecidableEq

namespace Workspace

/-- Call git. -/
def callGit (workspace : Workspace) (git : Git) (arguments : List String) : GitRun × Workspace :=
  (git arguments, { workspace with calls := workspace.calls ++ [arguments] })

/-- Where a stripped log is written before it is complete. -/
def temporaryPath (cache : String) : String :=
  FilePath.withExtension cache "tmp"

/-- Write the stripped log of a repository to its place. Until it is complete it stands elsewhere,
and what was written is removed if git or the log fails.
-/
def buildCache (workspace : Workspace) (git : Git) (repo : RepoConfig) (cache : String)
    : Except LoadError Unit × Workspace :=
  let temporary := temporaryPath cache
  match workspace.store.write temporary [] with
  | .error cause => (.error (.notCreated temporary cause), workspace)
  | .ok _ =>
    let (run, workspace) := workspace.callGit git (GitLog.arguments repo.path repo.revision)
    match GitLog.strip repo.path run with
    | (_, some failure) =>
      (.error (.log failure), { workspace with store := workspace.store.remove temporary })
    | (written, none) =>
      match workspace.store.write temporary (Text.Utf8.bytes written) with
      | .error cause => (.error (.notCreated temporary cause), workspace)
      | .ok store =>
        match store.move temporary cache with
        | .error cause => (.error (.notMoved cache cause), { workspace with store })
        | .ok store => (.ok (), { workspace with store })

/-- The history in a stripped log that was kept. -/
def readCache (workspace : Workspace) (cache : String) : Except LoadError History :=
  match workspace.store.read cache with
  | .error .isDirectory =>
    .error (.unreadableCache cache (.io FileError.isDirectory.message))
  | .error cause => .error (.notOpened cache cause)
  | .ok log =>
    match History.ofLog log with
    | .error cause => .error (.unreadableCache cache cause)
    | .ok history => .ok history

/-- Load the history of a repository. -/
def loadHistory (workspace : Workspace) (git : Git) (repo : RepoConfig)
    : Except LoadError History × Workspace :=
  match repo.strippedLog with
  | none =>
    let (run, workspace) := workspace.callGit git (GitLog.arguments repo.path repo.revision)
    match GitLog.history repo.path run with
    | .error failure => (.error (.log failure), workspace)
    | .ok history => (.ok history, workspace)
  | some cache =>
    if workspace.store.has cache then (workspace.readCache cache, workspace)
    else
      match workspace.buildCache git repo cache with
      | (.error cause, workspace) => (.error cause, workspace)
      | (.ok (), workspace) => (workspace.readCache cache, workspace)

end Workspace

/-- A repository whose history was loaded. -/
structure BlameRepo where
  config : RepoConfig
  history : History

/-- The repositories whose histories were loaded, by their names. -/
abbrev BlameRepos := NameMap BlameRepo

namespace BlameRepos

/-- Load the histories of repositories, one after the other, up to the first one that cannot be
loaded. Of two repositories of one name the later one counts.
-/
def load (git : Git) (repos : List RepoConfig) (workspace : Workspace)
    : Except String BlameRepos × Workspace :=
  go {} repos workspace
where
  /-- Load the histories of the rest. -/
  go (loaded : BlameRepos) : List RepoConfig → Workspace → Except String BlameRepos × Workspace
    | [], workspace => (.ok loaded, workspace)
    | repo :: rest, workspace =>
      match workspace.loadHistory git repo with
      | (.error cause, workspace) =>
        (.error ("Failed to load history of " ++ repo.name ++ ": " ++ cause.message), workspace)
      | (.ok history, workspace) =>
        go (loaded.insert repo.name { config := repo, history }) rest workspace

end BlameRepos

end SourceView
