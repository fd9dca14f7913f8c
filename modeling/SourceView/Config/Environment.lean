import SourceView.Config.BackendList
import SourceView.Config.File
import SourceView.Text.Decimal

/-! The configuration as environment variables give it. -/

namespace SourceView

namespace Config

/-- What a configuration is read from. -/
structure Environment where
  /-- The value of a variable that is set. -/
  lookup : String → Option String
  /-- The content of a file that can be read. -/
  content : String → Option (List UInt8)

/-- The number in a variable, or `missing` if the variable is not set. -/
def readNumber (environment : Environment) (key : ConfigVariable) (missing : Nat)
    : Except ConfigError Nat :=
  match environment.lookup key.name with
  | none => .ok missing
  | some value =>
    match Text.Decimal.readSigned? UInt64.size value.toList with
    | some number => .ok number
    | none => .error (.notNumber key value)

/-- The backends and repositories in the configuration file, if one is named. -/
def readNamedFile (environment : Environment)
    : Except ConfigError (List BackendConfig × List RepoConfig) :=
  match environment.lookup ConfigVariable.file.name with
  | none => .ok ([], [])
  | some path =>
    match (environment.content path).filter fun content =>
        (Text.Utf8.decode? content).isSome with
    | none => .error (.unreadableFile path)
    | some content =>
      match parseFile? content with
      | some found => .ok found
      | none => .error (.malformedFile path)

/-- The backends in the short list, if there is one. -/
def readNamedBackends (environment : Environment) : Except ConfigError (List BackendConfig) :=
  match environment.lookup ConfigVariable.backends.name with
  | none => .ok []
  | some list => readBackendList list

/-- Read the configuration. Backends of the short list come behind those of the file. -/
def ofEnvironment (environment : Environment) : Except ConfigError Config := do
  let standard : Config := {}
  let poolSize ← readNumber environment .poolSize standard.poolSize
  let queryTimeout ← readNumber environment .queryTimeout standard.queryTimeout
  let (backends, repos) ← readNamedFile environment
  let more ← readNamedBackends environment
  check {
    bindAddress := (environment.lookup ConfigVariable.bindAddress.name).getD standard.bindAddress
    backends := backends ++ more
    repos, poolSize, queryTimeout }

end Config

end SourceView
