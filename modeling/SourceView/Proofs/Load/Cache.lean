import Mathlib
import SourceView.Load.History
import SourceView.Proofs.Load.Files

/-! What a load leaves behind where a stripped log is to be kept.
A load that cannot make a stripped log of what git has printed leaves nothing behind. Whether there
is a history in the stripped log it asks only when it has put that in its place.
-/

namespace SourceView.Workspace

open FileStore (LeadsTo)

-----------------------------------------------------------------------------------------
-- Making a stripped log
-----------------------------------------------------------------------------------------

/-- What git prints of the log of a repository. -/
def logRun (git : Git) (repo : RepoConfig) : GitRun :=
  git (GitLog.arguments repo.path repo.revision)

/-- What is to be kept of the log of a repository. -/
def strippedLog (git : Git) (repo : RepoConfig) : List UInt8 :=
  Text.Utf8.bytes (Log.strip (logRun git repo).output).written

/-- A workspace in which git was called for the log of a repository. -/
def asked (workspace : Workspace) (repo : RepoConfig) (store : FileStore) : Workspace where
  store := store
  calls := workspace.calls ++ [GitLog.arguments repo.path repo.revision]

/-- How the attempt to make a stripped log ends, and what it leaves behind. -/
inductive Builds (workspace : Workspace) (git : Git) (repo : RepoConfig) (cache : String)
    : Except LoadError Unit × Workspace → Prop
  | uncreated (nowhere : ∀ name, ¬ LeadsTo (temporaryPath cache) name) (cause : FileError)
    : Builds workspace git repo cache
        (.error (.notCreated (temporaryPath cache) cause), workspace)
  | unstripped {part failure} (leads : LeadsTo (temporaryPath cache) part)
    (failed : (GitLog.strip repo.path (logRun git repo)).2 = some failure)
    : Builds workspace git repo cache
        (.error (.log failure), workspace.asked repo ⟨workspace.store.files.erase part⟩)
  | unmoved {part} (leads : LeadsTo (temporaryPath cache) part)
    (stripped : (GitLog.strip repo.path (logRun git repo)).2 = none)
    (nowhere : ∀ name, ¬ LeadsTo cache name) (cause : FileError)
    : Builds workspace git repo cache
        (.error (.notMoved cache cause),
          workspace.asked repo ⟨workspace.store.files.insert part (strippedLog git repo)⟩)
  | moved {part name} (leads : LeadsTo (temporaryPath cache) part)
    (stripped : (GitLog.strip repo.path (logRun git repo)).2 = none) (there : LeadsTo cache name)
    : Builds workspace git repo cache
        (.ok (),
          workspace.asked repo
            ⟨((workspace.store.files.insert part (strippedLog git repo)).erase part).insert name
              (strippedLog git repo)⟩)

/-- The attempt ends in one of these ways, by cases on the first thing that goes wrong. -/
theorem builds_buildCache (workspace : Workspace) (git : Git) (repo : RepoConfig) (cache : String)
    : Builds workspace git repo cache (workspace.buildCache git repo cache) := by
  unfold buildCache
  dsimp only
  split
  · next cause failed => exact .uncreated (fun _ => FileStore.not_leadsTo_of_write failed) cause
  · next created =>
      obtain ⟨part, leads, -⟩ := FileStore.leadsTo_of_write created
      simp only [callGit]
      split
      · next failure failed =>
          rw [leads.remove]
          exact .unstripped leads (by rw [logRun, failed])
      · next written stripped =>
          have text : Text.Utf8.bytes written = strippedLog git repo :=
            congrArg (fun written => Text.Utf8.bytes written.1) stripped.symm
          have complete : (GitLog.strip repo.path (logRun git repo)).2 = none := by
            rw [logRun, stripped]
          have stands
              : (FileStore.mk (workspace.store.files.insert part (strippedLog git repo))).files.get?
                  part
                = some (strippedLog git repo) := by
            rw [NameMap.get?_insert, if_pos rfl]
          rw [text, leads.write]
          dsimp only
          split
          · next cause failed =>
              have nowhere : ∀ name, ¬ LeadsTo cache name :=
                fun _ => FileStore.not_leadsTo_of_move leads stands failed
              exact .unmoved leads complete nowhere cause
          · next moved =>
              rw [leads.move stands] at moved
              split at moved
              · cases moved
              · obtain ⟨name, there, rfl⟩ := FileStore.leadsTo_of_write moved
                exact .moved leads complete there

-----------------------------------------------------------------------------------------
-- What is there in the end
-----------------------------------------------------------------------------------------

/-- There is neither a stripped log in its place nor a part of it. -/
def Spotless (workspace : Workspace) (cache : String) : Prop :=
  workspace.store.has cache = false ∧ workspace.store.has (temporaryPath cache) = false

/-- The stripped log is in its place, and no part of it elsewhere. -/
def Keeps (workspace : Workspace) (cache : String) (log : List UInt8) : Prop :=
  workspace.store.read cache = .ok log ∧ workspace.store.has (temporaryPath cache) = false

variable {workspace after : Workspace} {git : Git} {repo : RepoConfig} {cache name : String}

/-- The stripped log has its place apart from where it is written. -/
theorem ne_of_leadsTo {part : String} (apart : temporaryPath cache ≠ cache)
    (leads : LeadsTo (temporaryPath cache) part) (there : LeadsTo cache name)
    : name ≠ part := by
  rintro rfl
  exact apart (FileStore.withExtension_eq_of_locate (there {}) (leads {}) (by decide) (by decide))

/-- Where nothing could be kept, there is neither the stripped log nor a part of it. -/
theorem spotless_of_unstripped {part : String} (missing : workspace.store.has cache = false)
    (apart : temporaryPath cache ≠ cache) (leads : LeadsTo (temporaryPath cache) part)
    : (workspace.asked repo ⟨workspace.store.files.erase part⟩).Spotless cache := by
  refine ⟨(FileStore.has_congr fun name there => ?_).trans missing, ?_⟩
  · have other := ne_of_leadsTo apart leads there
    simp [asked, NameMap.contains_erase, other]
  · rw [leads.has]
    simp [asked, NameMap.contains_erase]

/-- Where the stripped log was not moved into its place, it stands beside it. -/
theorem has_of_unmoved {part : String} (missing : workspace.store.has cache = false)
    (apart : temporaryPath cache ≠ cache) (leads : LeadsTo (temporaryPath cache) part)
    (log : List UInt8)
    : (workspace.asked repo ⟨workspace.store.files.insert part log⟩).store.has cache = false
      ∧ (workspace.asked repo ⟨workspace.store.files.insert part log⟩).store.read
          (temporaryPath cache)
        = .ok log := by
  refine ⟨(FileStore.has_congr fun name there => ?_).trans missing, leads.read_of_get? ?_⟩
  · have other := ne_of_leadsTo apart leads there
    simp [asked, NameMap.contains_insert, other]
  · rw [asked, NameMap.get?_insert, if_pos rfl]

/-- Where the stripped log was moved into its place, it stands there and nowhere else. -/
theorem keeps_of_moved {part : String} (apart : temporaryPath cache ≠ cache)
    (leads : LeadsTo (temporaryPath cache) part) (there : LeadsTo cache name) (log : List UInt8)
    : Keeps
        (workspace.asked repo
          ⟨((workspace.store.files.insert part log).erase part).insert name log⟩)
        cache log := by
  refine ⟨there.read_of_get? ?_, ?_⟩
  · rw [asked, NameMap.get?_insert, if_pos rfl]
  · have other := ne_of_leadsTo apart leads there
    rw [leads.has]
    simp [asked, NameMap.contains_insert, NameMap.contains_erase, other.symm]

/-- What a load that has failed leaves behind. -/
def Leaves (before after : Workspace) (git : Git) (repo : RepoConfig) (cache : String)
    : LoadError → Prop
  | .notCreated .. => (∀ name, ¬ LeadsTo (temporaryPath cache) name) ∧ after = before
  | .log failure =>
    (GitLog.strip repo.path (logRun git repo)).2 = some failure ∧ after.Spotless cache
  | .notMoved .. =>
    (GitLog.strip repo.path (logRun git repo)).2 = none
    ∧ (∀ name, ¬ LeadsTo cache name)
    ∧ after.store.has cache = false
    ∧ after.store.read (temporaryPath cache) = .ok (strippedLog git repo)
  | .unreadableCache _ cause =>
    (GitLog.strip repo.path (logRun git repo)).2 = none
    ∧ History.ofLog (strippedLog git repo) = .error cause
    ∧ after.Keeps cache (strippedLog git repo)
  | .notOpened .. => False

-----------------------------------------------------------------------------------------
-- Loads
-----------------------------------------------------------------------------------------

/-- A stripped log that is there is read, and nothing is done besides. -/
theorem loadHistory_of_has (kept : repo.strippedLog = some cache)
    (has : workspace.store.has cache = true)
    : workspace.loadHistory git repo = (workspace.readCache cache, workspace) := by
  rw [loadHistory, kept]
  exact if_pos has

/-- A stripped log that is not there is made and then read. -/
theorem loadHistory_of_missing (kept : repo.strippedLog = some cache)
    (missing : workspace.store.has cache = false)
    : workspace.loadHistory git repo
      = match workspace.buildCache git repo cache with
        | (.error cause, after) => (.error cause, after)
        | (.ok (), after) => (after.readCache cache, after) := by
  rw [loadHistory, kept]
  exact if_neg (by simp [missing])

/-- The history of a stripped log is that of its text. -/
theorem readCache_of_read {log : List UInt8} (stands : workspace.store.read cache = .ok log)
    : workspace.readCache cache
      = match History.ofLog log with
        | .error cause => .error (.unreadableCache cache cause)
        | .ok history => .ok history := by
  cases told : History.ofLog log <;> simp only [readCache, stands, told]

/-- Git's log can be stripped if git has succeeded and the log can be scanned to its end. -/
theorem strip_eq_none_iff {path : String} {run : GitRun}
    : (GitLog.strip path run).2 = none
      ↔ run.status = 0 ∧ (Log.strip run.output).failure = none := by
  simp only [GitLog.strip, GitLog.failure?]
  split
  · next found => simp [found]
  · next clean => simp [clean]

/-- A load that finds no stripped log calls git, unless there is no place for the log. -/
theorem calls_of_missing (kept : repo.strippedLog = some cache)
    (missing : workspace.store.has cache = false)
    : (∃ cause,
        (workspace.loadHistory git repo).1
        = .error (.notCreated (temporaryPath cache) cause))
      ∨ (workspace.loadHistory git repo).2.calls
        = workspace.calls ++ [GitLog.arguments repo.path repo.revision] := by
  rw [loadHistory_of_missing kept missing]
  have builds := builds_buildCache workspace git repo cache
  generalize workspace.buildCache git repo cache = built at builds ⊢
  cases builds with
  | uncreated nowhere cause => exact .inl ⟨cause, rfl⟩
  | unstripped | unmoved | moved => exact .inr rfl

/-- A load that finds no stripped log leaves one in its place, or has failed and leaves none. -/
theorem leaves_or_keeps (kept : repo.strippedLog = some cache)
    (missing : workspace.store.has cache = false) (apart : temporaryPath cache ≠ cache)
    : (∃ cause after,
        workspace.loadHistory git repo = (.error cause, after)
        ∧ after.store.has cache = false
        ∧ workspace.Leaves after git repo cache cause)
      ∨ ∃ after,
        workspace.loadHistory git repo = (after.readCache cache, after)
        ∧ (GitLog.strip repo.path (logRun git repo)).2 = none
        ∧ after.Keeps cache (strippedLog git repo) := by
  rw [loadHistory_of_missing kept missing]
  have builds := builds_buildCache workspace git repo cache
  generalize workspace.buildCache git repo cache = built at builds ⊢
  cases builds with
  | uncreated nowhere cause => exact .inl ⟨_, _, rfl, missing, nowhere, rfl⟩
  | unstripped leads failed =>
      have spotless : Spotless (workspace.asked repo _) cache :=
        spotless_of_unstripped missing apart leads
      exact .inl ⟨_, _, rfl, spotless.1, failed, spotless⟩
  | unmoved leads stripped nowhere cause =>
      obtain ⟨unmoved, part⟩ := has_of_unmoved missing apart leads (strippedLog git repo)
      exact .inl ⟨_, _, rfl, unmoved, stripped, nowhere, unmoved, part⟩
  | moved leads stripped there =>
      exact .inr ⟨_, rfl, stripped, keeps_of_moved apart leads there _⟩

/-- Where there is no stripped log yet, a load that succeeds keeps just what was stripped of git's
log, and git has exited with success. A load that fails since git has failed, or since its log
cannot be stripped, leaves nothing behind. When the log was stripped but cannot be moved to its
place, it stays where it was written; and when it was moved but there is no history in it, it stays
in its place, so that every later load fails alike and does not call git.
-/
theorem kept_log_after_load (workspace after : Workspace) (git : Git) (repo : RepoConfig)
    (cache : String) (result : Except LoadError History) (kept : repo.strippedLog = some cache)
    (missing : workspace.store.has cache = false) (apart : temporaryPath cache ≠ cache)
    (loaded : workspace.loadHistory git repo = (result, after))
    : (∀ history,
        result = .ok history
        → (logRun git repo).status = 0
          ∧ (Log.strip (logRun git repo).output).failure = none
          ∧ History.ofLog (strippedLog git repo) = .ok history
          ∧ after.Keeps cache (strippedLog git repo))
      ∧ (∀ cause, result = .error cause → workspace.Leaves after git repo cache cause)
      ∧ (after.store.has cache = true
        → ∀ again, after.loadHistory again repo = (result, after))
      ∧ (after.store.has cache = false
        → ∀ again,
          (∃ cause,
            (after.loadHistory again repo).1 = .error (.notCreated (temporaryPath cache) cause))
          ∨ (after.loadHistory again repo).2.calls
            = after.calls ++ [GitLog.arguments repo.path repo.revision]) := by
  rcases leaves_or_keeps kept missing apart with
    ⟨cause, final, failed, absent, leaves⟩ | ⟨final, read, stripped, keeps⟩
  · cases failed.symm.trans loaded
    refine ⟨nofun, ?_, fun has => ?_, fun still _ => calls_of_missing kept still⟩
    · rintro _ ⟨⟩
      exact leaves
    · cases absent.symm.trans has
  · cases read.symm.trans loaded
    have content := readCache_of_read keeps.1
    refine ⟨?_, ?_, fun has _ => loadHistory_of_has kept has, fun still _ =>
      calls_of_missing kept still⟩
    · intro history succeeded
      rw [content] at succeeded
      split at succeeded
      · cases succeeded
      · next told =>
          cases succeeded
          obtain ⟨status, clean⟩ := strip_eq_none_iff.mp stripped
          exact ⟨status, clean, told, keeps⟩
    · intro cause failed
      rw [content] at failed
      split at failed
      · next unread =>
          cases failed
          exact ⟨stripped, unread, keeps⟩
      · cases failed

/-- Git prints a log in which a hunk stands in no file's section. It can be stripped. -/
def headlessGit : Git := fun _ =>
  { output := Text.Utf8.bytes "commit 0123456789abcdef\n@@ -0,0 +1 @@-\n" }

/-- A repository whose stripped log is kept. -/
def keptRepo : RepoConfig := { name := "x", path := "repo", strippedLog := some "c.log" }

/-- A workspace without files. -/
def bare : Workspace where
  store := { files := { entries := [], ascending := .nil } }

/-- The log with a hunk in no file's section can be stripped, but not read. -/
theorem strippedLog_headlessGit
    : (GitLog.strip keptRepo.path (logRun headlessGit keptRepo)).2 = none
      ∧ History.ofLog (strippedLog headlessGit keptRepo) = .error (.hunkOutsideFile 2) := by
  refine ⟨by cbv, ?_⟩
  cbv

/-- The log with a hunk in no file's section fails the load, and its stripped log stays. -/
theorem loadHistory_headlessGit
    : ∃ after,
        bare.loadHistory headlessGit keptRepo
          = (.error (.unreadableCache "c.log" (.hunkOutsideFile 2)), after)
        ∧ after.store.has "c.log" = true := by
  obtain ⟨stripped, unread⟩ := strippedLog_headlessGit
  have part : LeadsTo (temporaryPath "c.log") "c.tmp" := fun _ => rfl
  have there : LeadsTo "c.log" "c.log" := fun _ => rfl
  rw [loadHistory_of_missing rfl rfl]
  have builds := builds_buildCache bare headlessGit keptRepo "c.log"
  generalize bare.buildCache headlessGit keptRepo "c.log" = built at builds ⊢
  cases builds with
  | uncreated nowhere => exact absurd part (nowhere _)
  | unstripped leads failed => cases stripped.symm.trans failed
  | unmoved leads stripped nowhere => exact absurd there (nowhere _)
  | moved leads stripped there =>
      refine ⟨_, congrArg (·, _) ?_, ?_⟩
      · rw [readCache_of_read (keeps_of_moved (by decide) leads there _).1, unread]
      · exact FileStore.has_of_read (keeps_of_moved (by decide) leads there _).1

/-- The stripped log in which there is no history stays, and with it the failure. -/
theorem failure_of_headlessGit
    : ∃ after,
        bare.loadHistory headlessGit keptRepo
          = (.error (.unreadableCache "c.log" (.hunkOutsideFile 2)), after)
        ∧ after.Keeps "c.log" (strippedLog headlessGit keptRepo)
        ∧ ∀ again,
            after.loadHistory again keptRepo
            = (.error (.unreadableCache "c.log" (.hunkOutsideFile 2)), after) := by
  obtain ⟨after, loaded, has⟩ := loadHistory_headlessGit
  obtain ⟨-, failed, same, -⟩ :=
    kept_log_after_load bare after headlessGit keptRepo "c.log" _ rfl rfl (by decide) loaded
  obtain ⟨-, -, keeps⟩ := failed _ rfl
  exact ⟨after, loaded, keeps, same has⟩

/-- A load fails and leaves a stripped log behind. -/
theorem exists_failure_that_keeps
    : ∃ workspace git repo cache cause after,
        repo.strippedLog = some cache
        ∧ workspace.store.has cache = false
        ∧ temporaryPath cache ≠ cache
        ∧ loadHistory workspace git repo = (.error cause, after)
        ∧ after.store.has cache = true := by
  obtain ⟨after, loaded, has⟩ := loadHistory_headlessGit
  exact ⟨bare, headlessGit, keptRepo, "c.log", _, after, rfl, rfl, by decide, loaded, has⟩

end SourceView.Workspace
