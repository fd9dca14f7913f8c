import SourceView.Text.Quoted

/-! What the server is told to serve, and what can be wrong with it. -/

namespace SourceView

/-- A search backend. -/
structure BackendConfig where
  id : String
  /-- Where the backend listens. -/
  address : String
  /-- How many connections there are to the backend. Zero stands for the default. -/
  poolSize : Nat := 0
  deriving DecidableEq, Repr

/-- A repository whose history is shown. -/
structure RepoConfig where
  name : String
  path : String
  /-- The revision whose history is shown. -/
  revision : String := "HEAD"
  /-- Where the history is kept once it was read. -/
  strippedLog : Option String := none
  deriving DecidableEq, Repr

/-- What the server is told to serve. -/
structure Config where
  bindAddress : String := "127.0.0.1:8910"
  /-- The backends, in the order in which browsers see them. -/
  backends : List BackendConfig := []
  repos : List RepoConfig := []
  /-- How many connections there are to a backend that does not say. -/
  poolSize : Nat := 4
  /-- How long a search may wait, in seconds. -/
  queryTimeout : Nat := 10
  deriving DecidableEq, Repr

/-- An environment variable that configures the server. -/
inductive ConfigVariable where
  | bindAddress
  | poolSize
  | queryTimeout
  /-- The path of the configuration file. -/
  | file
  /-- A list of backends. -/
  | backends
  deriving DecidableEq, Repr

/-- The name of a variable. -/
def ConfigVariable.name : ConfigVariable → String
  | bindAddress => "CODESEARCH_BIND_ADDR"
  | poolSize => "CODESEARCH_POOL_SIZE"
  | queryTimeout => "CODESEARCH_QUERY_TIMEOUT_SECS"
  | file => "CODESEARCH_CONFIG"
  | backends => "CODESEARCH_BACKENDS"

/-- What can be wrong with a configuration. -/
inductive ConfigError where
  /-- A variable has to hold a number. -/
  | notNumber (key : ConfigVariable) (value : String)
  | unreadableFile (path : String)
  | malformedFile (path : String)
  | malformedBackend (entry : String)
  /-- There would be no connections. -/
  | emptyPool
  | backendTwice (id : String)
  | repoTwice (name : String)
  deriving DecidableEq, Repr

/-- The text that tells what is wrong with a configuration. -/
def ConfigError.message : ConfigError → String
  | notNumber key value => key.name ++ " must be a number, got " ++ Text.Quoted.encode value
  | unreadableFile path => "reading config file " ++ path
  | malformedFile path => "parsing config file " ++ path
  | malformedBackend entry =>
    "malformed backend entry " ++ Text.Quoted.encode entry ++ ", expected id=host:port"
  | emptyPool => ConfigVariable.poolSize.name ++ " must be at least 1"
  | backendTwice id => "backend " ++ Text.Quoted.encode id ++ " is configured twice"
  | repoTwice name => "repository " ++ Text.Quoted.encode name ++ " is configured twice"

namespace Config

/-- The first of the names that is among those before it or in `seen`. -/
def firstRepeated? (seen : List String) : List String → Option String
  | [] => none
  | name :: rest => if name ∈ seen then some name else firstRepeated? (name :: seen) rest

/-- No name is repeated just if the names are distinct from each other and from those before. -/
theorem firstRepeated?_eq_none_iff (seen names : List String)
    : firstRepeated? seen names = none ↔ names.Nodup ∧ ∀ name ∈ names, name ∉ seen := by
  induction names generalizing seen with
  | nil => simp [firstRepeated?]
  | cons name rest ih =>
      by_cases h : name ∈ seen
      · simp [firstRepeated?, h]
      · simp only [firstRepeated?, h, if_false, ih, List.nodup_cons, List.mem_cons]
        grind

/-- Give the backends that do not say how many connections there are the default. -/
def fillPoolSizes (config : Config) : Config :=
  { config with
    backends := config.backends.map fun backend =>
      if backend.poolSize = 0 then { backend with poolSize := config.poolSize } else backend }

/-- A configuration whose connections and names are as they have to be. -/
def check (config : Config) : Except ConfigError Config :=
  if config.poolSize = 0 then .error .emptyPool
  else
    match firstRepeated? [] (config.backends.map BackendConfig.id) with
    | some id => .error (.backendTwice id)
    | none =>
      match firstRepeated? [] (config.repos.map RepoConfig.name) with
      | some name => .error (.repoTwice name)
      | none => .ok config.fillPoolSizes

end Config

end SourceView
