import Mathlib
import SourceView.Config.Environment
import SourceView.Proofs.Outcome
import SourceView.Proofs.Text.Blank
import SourceView.Proofs.Text.Decimal

/-! Which environments are accepted as a configuration, and what is configured by them.
Every step of the reading has a condition of its own under which it goes well, and the conditions
together are those under which there is a configuration.
-/

namespace SourceView.Config

open Text (trim)

-----------------------------------------------------------------------------------------
-- The short list of backends
-----------------------------------------------------------------------------------------

/-- What stands before the first equals sign of an entry and what stands behind it. An entry without
one is both.
-/
def sides (entry : List Char) : List Char × List Char :=
  if '=' ∈ entry then (entry.takeWhile (· ≠ '='), (entry.dropWhile (· ≠ '=')).drop 1)
  else (entry, entry)

/-- The entry has an address, and a name if there is an equals sign. -/
def WellFormed (entry : List Char) : Prop :=
  trim (sides entry).2 ≠ [] ∧ ('=' ∈ entry → trim (sides entry).1 ≠ [])

/-- The backend that an entry names. -/
def backendOf (entry : List Char) : BackendConfig where
  id := .ofList (trim (sides entry).1)
  address := .ofList (trim (sides entry).2)

/-- The entries between the commas, without those that are blank. -/
def shortEntries (list : String) : List (List Char) :=
  (list.toList.splitOn ',').filter fun entry => entry.any fun c => !Text.isBlank c

/-- The first equals sign of an entry divides it. -/
theorem sides_append {before : List Char} (first : '=' ∉ before) (behind : List Char)
    : sides (before ++ '=' :: behind) = (before, behind) := by
  have unequal : ∀ c ∈ before, decide (c ≠ '=') = true := by
    intro c member
    exact decide_eq_true fun same => first (same ▸ member)
  rw [sides, if_pos (by simp), List.takeWhile_append_of_pos unequal,
    List.dropWhile_append_of_pos unequal]
  simp

/-- A well-formed entry names its backend, if by the address only. -/
theorem WellFormed.id_ne_empty {entry : List Char} (wellFormed : WellFormed entry)
    : (backendOf entry).id ≠ "" := by
  have named : trim (sides entry).1 ≠ [] := by
    by_cases single : '=' ∈ entry
    · exact wellFormed.2 single
    · have both : sides entry = (entry, entry) := if_neg single
      have address := wellFormed.1
      rw [both] at address ⊢
      exact address
  rw [backendOf, ← String.ofList_nil]
  exact fun same => named (String.ofList_injective same)

/-- An entry is read as the backend that it names, if it is well-formed. -/
theorem readEntry_trim (entry : List Char) (backend : BackendConfig)
    : readEntry (trim entry) = .ok backend ↔ WellFormed entry ∧ backendOf entry = backend := by
  have told (id address : List Char)
      : (if id.isEmpty || address.isEmpty then
            .error (.malformedBackend (.ofList (trim entry)))
          else Except.ok { id := .ofList id, address := .ofList address } : Except ConfigError _)
          = .ok backend
        ↔ (address ≠ [] ∧ id ≠ [])
          ∧ { id := .ofList id, address := .ofList address } = backend := by
    rcases id with _ | ⟨c, id⟩
    · simp
    · rcases address with _ | ⟨d, address⟩ <;> simp
  by_cases single : '=' ∈ entry
  · obtain ⟨before, behind, rfl, first⟩ := List.eq_append_cons_of_mem single
    have cut : Text.splitOnce? '=' (trim (before ++ '=' :: behind))
        = some (Text.trimStart before, Text.trimEnd behind) := by
      rw [Text.trim_append_cons (by decide)]
      exact Text.splitOnce?_append (fun member => first ((List.dropWhile_sublist _).mem member)) _
    simp only [readEntry, cut, Text.trim_trimStart, Text.trim_trimEnd, told, WellFormed, backendOf,
      sides_append first, single, forall_const]
  · have absent : '=' ∉ trim entry := by
      obtain ⟨before, behind, split, -⟩ := Text.exists_eq_append_trim entry
      intro member
      rw [split] at single
      simp [member] at single
    have both : sides entry = (entry, entry) := if_neg single
    simp only [readEntry, Text.splitOnce?_eq_none absent, told, WellFormed, backendOf, both, single,
      and_self, false_implies, and_true]

/-- A text is split at a separator as lists are split, by induction on the text. -/
theorem split_eq_splitOn (separator : Char) (text : List Char)
    : Text.split separator text = text.splitOn separator := by
  induction text with
  | nil => rfl
  | cons c rest ih =>
      rw [Text.split, List.splitOn, List.splitOnP_cons_eq_if_modifyHead, ← List.splitOn, ← ih]
      by_cases same : c = separator
      · simp [same]
      · cases pieces : Text.split separator rest with
        | nil => exact absurd pieces (Text.split_ne_nil separator rest)
        | cons piece more => simp [same]

/-- The entries that are read are those that are not blank, trimmed. -/
theorem entries_eq (list : String) : entries list.toList = (shortEntries list).map trim := by
  rw [entries, split_eq_splitOn, List.filter_map, shortEntries]
  congr 2
  funext entry
  rw [Bool.eq_iff_iff]
  simp [Text.trim_eq_nil_iff]

/-- A list of backends is read if each of its entries is well-formed, and as what they name. -/
theorem readBackendList_eq_ok_iff (list : String) (backends : List BackendConfig)
    : readBackendList list = .ok backends
      ↔ (∀ entry ∈ shortEntries list, WellFormed entry)
        ∧ (shortEntries list).map backendOf = backends := by
  rw [readBackendList, entries_eq, Outcome.mapM_eq_ok_iff, List.forall₂_map_left_iff]
  simp only [readEntry_trim, List.forall₂_and_left]
  rw [← List.forall₂_map_left_iff, List.forall₂_eq_eq_eq]

-----------------------------------------------------------------------------------------
-- The variables and the file
-----------------------------------------------------------------------------------------

namespace Environment

/-- A number is in a variable, or is the one to take if the variable is not set. -/
def Gives (environment : Environment) (key : ConfigVariable) (missing n : Nat) : Prop :=
  match environment.lookup key.name with
  | none => n = missing
  | some text => Text.Decimal.Spells text.toList n ∧ n < UInt64.size

/-- The configuration file, if one is named, can be read as text and says what it should. -/
def FileReads (environment : Environment) : Prop :=
  ∀ path, environment.lookup ConfigVariable.file.name = some path →
    ∃ content,
      environment.content path = some content
      ∧ (Text.Utf8.decode? content).isSome = true
      ∧ (parseFile? content).isSome = true

/-- What the configuration file says, which is nothing if none is named. -/
def told (environment : Environment) : List BackendConfig × List RepoConfig :=
  (environment.lookup ConfigVariable.file.name >>= environment.content >>= parseFile?).getD ([], [])

/-- The entries of the short list, if there is one. -/
def entries (environment : Environment) : List (List Char) :=
  ((environment.lookup ConfigVariable.backends.name).map shortEntries).getD []

/-- The backends of the file, and behind them those of the short list. -/
def named (environment : Environment) : List BackendConfig :=
  environment.told.1 ++ environment.entries.map backendOf

/-- The conditions under which an environment is accepted. -/
structure Acceptable (environment : Environment) : Prop where
  poolSize : ∃ n, environment.Gives .poolSize 4 n
  queryTimeout : ∃ n, environment.Gives .queryTimeout 10 n
  file : environment.FileReads
  entries : ∀ entry ∈ environment.entries, WellFormed entry
  connections : ¬environment.Gives .poolSize 4 0
  backends : (environment.named.map BackendConfig.id).Nodup
  repos : (environment.told.2.map RepoConfig.name).Nodup

end Environment

/-- A backend with as many connections as it says, or with the usual number if it does not say. -/
def sized (usual : Nat) (backend : BackendConfig) : BackendConfig :=
  { backend with poolSize := if backend.poolSize = 0 then usual else backend.poolSize }

/-- The configuration that an environment makes. -/
structure Environment.Makes (environment : Environment) (config : Config) : Prop where
  bindAddress
    : config.bindAddress
      = (environment.lookup ConfigVariable.bindAddress.name).getD "127.0.0.1:8910"
  poolSize : environment.Gives .poolSize 4 config.poolSize
  queryTimeout : environment.Gives .queryTimeout 10 config.queryTimeout
  backends : config.backends = environment.named.map (sized config.poolSize)
  connected : ∀ backend ∈ config.backends, 1 ≤ backend.poolSize
  repos : config.repos = environment.told.2

section Reading

variable (environment : Environment)

/-- A number is read if the variable is not set or spells one. -/
theorem readNumber_eq_ok_iff (key : ConfigVariable) (missing n : Nat)
    : readNumber environment key missing = .ok n ↔ environment.Gives key missing n := by
  rw [readNumber, Environment.Gives]
  cases environment.lookup key.name with
  | none => simp [eq_comm]
  | some text =>
      dsimp only
      rw [← Text.Decimal.readSigned?_eq_some_iff]
      cases Text.Decimal.readSigned? UInt64.size text.toList <;> simp

/-- The named file is read if there is one and it holds a configuration, or if none is named. -/
theorem readNamedFile_eq_ok_iff (found : List BackendConfig × List RepoConfig)
    : readNamedFile environment = .ok found
      ↔ environment.FileReads ∧ environment.told = found := by
  rw [readNamedFile, Environment.FileReads, Environment.told]
  cases environment.lookup ConfigVariable.file.name with
  | none => simp
  | some path =>
      cases read : environment.content path with
      | none => simp [read]
      | some content =>
          by_cases text : (Text.Utf8.decode? content).isSome = true
          · dsimp only
            rw [read, Option.filter_some, if_pos text]
            cases parsed : parseFile? content <;> simp [read, text, parsed]
          · dsimp only
            rw [read, Option.filter_some, if_neg text]
            simp [read, text]

/-- The named backends are read if each of the entries is well-formed. -/
theorem readNamedBackends_eq_ok_iff (backends : List BackendConfig)
    : readNamedBackends environment = .ok backends
      ↔ (∀ entry ∈ environment.entries, WellFormed entry)
        ∧ environment.entries.map backendOf = backends := by
  rw [readNamedBackends, Environment.entries]
  cases environment.lookup ConfigVariable.backends.name with
  | none => simp
  | some list => exact readBackendList_eq_ok_iff list backends

/-- A configuration passes if it has connections and no name twice, and backends that do not say get
the usual number.
-/
theorem check_eq_ok_iff (config result : Config)
    : config.check = .ok result
      ↔ config.poolSize ≠ 0
        ∧ (config.backends.map BackendConfig.id).Nodup
        ∧ (config.repos.map RepoConfig.name).Nodup
        ∧ config.fillPoolSizes = result := by
  have nodup (names : List String) : firstRepeated? [] names = none ↔ names.Nodup := by
    simp [firstRepeated?_eq_none_iff]
  rw [check, ← nodup, ← nodup]
  by_cases empty : config.poolSize = 0
  · simp [empty]
  · cases firstRepeated? [] (config.backends.map BackendConfig.id) with
    | some id => simp [empty]
    | none =>
        cases firstRepeated? [] (config.repos.map RepoConfig.name) <;> simp [empty]

/-- Each backend that does not say gets the usual number of connections. -/
theorem fillPoolSizes_eq (config : Config)
    : config.fillPoolSizes
      = { config with backends := config.backends.map (sized config.poolSize) } := by
  rw [fillPoolSizes]
  congr 2
  funext backend
  rw [sized]
  split <;> rfl

/-- The configuration of an environment before it is checked. -/
def assembled (poolSize queryTimeout : Nat) : Config where
  bindAddress := (environment.lookup ConfigVariable.bindAddress.name).getD "127.0.0.1:8910"
  backends := environment.named
  repos := environment.told.2
  poolSize := poolSize
  queryTimeout := queryTimeout

/-- An environment is read if each of the steps goes well. -/
theorem ofEnvironment_eq_ok_iff (config : Config)
    : ofEnvironment environment = .ok config
      ↔ ∃ poolSize queryTimeout,
          environment.Gives .poolSize 4 poolSize
          ∧ environment.Gives .queryTimeout 10 queryTimeout
          ∧ environment.FileReads
          ∧ (∀ entry ∈ environment.entries, WellFormed entry)
          ∧ (assembled environment poolSize queryTimeout).check = .ok config := by
  rw [ofEnvironment]
  simp only [Outcome.bind_eq_ok_iff, readNumber_eq_ok_iff, readNamedFile_eq_ok_iff,
    readNamedBackends_eq_ok_iff]
  constructor
  · rintro ⟨poolSize, size, queryTimeout, timeout, _, ⟨reads, rfl⟩, _, ⟨wellFormed, rfl⟩, checked⟩
    exact ⟨poolSize, queryTimeout, size, timeout, reads, wellFormed, checked⟩
  · rintro ⟨poolSize, queryTimeout, size, timeout, reads, wellFormed, checked⟩
    exact ⟨poolSize, size, queryTimeout, timeout, _, ⟨reads, rfl⟩, _, ⟨wellFormed, rfl⟩, checked⟩

/-- A variable gives no more than one number. -/
theorem Environment.Gives.unique {key : ConfigVariable} {missing m n : Nat}
    (first : environment.Gives key missing m) (second : environment.Gives key missing n)
    : m = n := by
  rw [← readNumber_eq_ok_iff] at first second
  exact Except.ok.inj (first.symm.trans second)

/-- An acceptable environment is accepted. -/
theorem Environment.Acceptable.exists_ok (acceptable : environment.Acceptable)
    : ∃ config, ofEnvironment environment = .ok config := by
  obtain ⟨poolSize, size⟩ := acceptable.poolSize
  obtain ⟨queryTimeout, timeout⟩ := acceptable.queryTimeout
  refine ⟨(assembled environment poolSize queryTimeout).fillPoolSizes, ?_⟩
  rw [ofEnvironment_eq_ok_iff]
  refine ⟨poolSize, queryTimeout, size, timeout, acceptable.file, acceptable.entries, ?_⟩
  rw [check_eq_ok_iff]
  refine ⟨?_, acceptable.backends, acceptable.repos, rfl⟩
  rintro rfl
  exact acceptable.connections size

/-- Where the usual number of connections is positive, each backend gets one. -/
theorem sized_poolSize_pos {usual : Nat} (positive : usual ≠ 0) (backend : BackendConfig)
    : 1 ≤ (sized usual backend).poolSize := by
  rw [sized]
  dsimp only
  split <;> omega

/-- What is accepted is acceptable, and gives the configuration that it should. -/
theorem acceptable_and_makes {config : Config} (accepted : ofEnvironment environment = .ok config)
    : environment.Acceptable ∧ environment.Makes config := by
  obtain ⟨poolSize, queryTimeout, size, timeout, file, entries, checked⟩ :=
    (ofEnvironment_eq_ok_iff environment config).1 accepted
  obtain ⟨positive, backends, repos, rfl⟩ := (check_eq_ok_iff _ _).1 checked
  rw [fillPoolSizes_eq]
  constructor
  · exact {
      poolSize := ⟨poolSize, size⟩
      queryTimeout := ⟨queryTimeout, timeout⟩
      file, entries, backends, repos
      connections := fun zero => positive (size.unique environment zero) }
  · refine ⟨rfl, size, timeout, rfl, ?_, rfl⟩
    intro backend member
    obtain ⟨plain, -, rfl⟩ := List.mem_map.1 member
    exact sized_poolSize_pos positive plain

end Reading

/-- An environment is accepted just if it is acceptable, and then a configuration is made of it that
has the backends of the file and those of the short list, each with connections.
-/
theorem accepted_iff_acceptable (environment : Environment)
    : ((∃ config, ofEnvironment environment = .ok config) ↔ environment.Acceptable)
      ∧ ∀ config, ofEnvironment environment = .ok config → environment.Makes config := by
  refine ⟨⟨?_, Environment.Acceptable.exists_ok environment⟩, ?_⟩
  · rintro ⟨config, accepted⟩
    exact (acceptable_and_makes environment accepted).1
  · intro config accepted
    exact (acceptable_and_makes environment accepted).2

-----------------------------------------------------------------------------------------
-- An environment with a file and a short list
-----------------------------------------------------------------------------------------

/-- An environment with these variables and files. -/
def Environment.ofLists (settings files : List (String × String)) : Environment where
  lookup key := settings.lookup key
  content path := (files.lookup path).map fun text => Text.Utf8.encode text.toList

def servedFile : String :=
  "\x7b\"backends\": [\x7b\"id\": \"go\", \"addr\": \"go:1\", \"pool_size\": 8\x7d],"
    ++ " \"repos\": [\x7b\"name\": \"linux\", \"path\": \"/src/linux\"\x7d]\x7d"

/-- The short list has blanks around its names, an entry without a name and one that is blank. -/
def twoSources : Environment :=
  .ofLists
    [("CODESEARCH_POOL_SIZE", "+2"), ("CODESEARCH_CONFIG", "served.json"),
      ("CODESEARCH_BACKENDS", " linux = linux:1 , ,bsd:1")]
    [("served.json", servedFile)]

def twoSourcesConfig : Config where
  backends := [⟨"go", "go:1", 8⟩, ⟨"linux", "linux:1", 2⟩, ⟨"bsd:1", "bsd:1", 2⟩]
  repos := [{ name := "linux", path := "/src/linux" }]
  poolSize := 2

set_option maxRecDepth 1000 in
/-- The environment with two sources is accepted. -/
theorem ofEnvironment_twoSources : ofEnvironment twoSources = .ok twoSourcesConfig := by
  cbv

theorem twoSources_makes
    : ofEnvironment twoSources = .ok twoSourcesConfig
      ∧ twoSources.Acceptable
      ∧ twoSources.Makes twoSourcesConfig := by
  obtain ⟨acceptable, makes⟩ := accepted_iff_acceptable twoSources
  exact ⟨ofEnvironment_twoSources, acceptable.1 ⟨_, ofEnvironment_twoSources⟩,
    makes _ ofEnvironment_twoSources⟩

end SourceView.Config
