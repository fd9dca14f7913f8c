import SourceView.Config.Basic
import SourceView.Json.Record

/-! The configuration file: a JSON text with backends and repositories. -/

namespace SourceView

namespace Config

open Json (Written)

/-- Read a value that is neither an array nor an object. -/
def leaf? {α : Type} (read : Json → Option α) (written : Written) : Option α :=
  written.value? 0 >>= read

/-- Read an array of records. -/
def list? {α : Type} (read : Written → Option α) : Written → Option (List α)
  | .array items => items.mapM read
  | _ => none

/-- Read a backend. -/
def readBackend? (written : Written) : Option BackendConfig := do
  let fields ← written.fields? ["id", "addr", "pool_size"]
  return {
    id := ← fields.required "id" (leaf? Json.asString?)
    address := ← fields.required "addr" (leaf? Json.asString?)
    poolSize := ← fields.optional "pool_size" 0 (leaf? (Json.asNat? UInt64.size)) }

/-- Read a repository. -/
def readRepo? (written : Written) : Option RepoConfig := do
  let fields ← written.fields? ["name", "path", "revision", "stripped_log"]
  return {
    name := ← fields.required "name" (leaf? Json.asString?)
    path := ← fields.required "path" (leaf? Json.asString?)
    revision := ← fields.optional "revision" "HEAD" (leaf? Json.asString?)
    strippedLog := ← fields.optional "stripped_log" none
      (leaf? (Json.asOption? Json.asString?)) }

/-- Read a configuration file. -/
def parseFile? (content : List UInt8) : Option (List BackendConfig × List RepoConfig) := do
  let fields ← (← Written.read? content).fields? ["backends", "repos"]
  return (← fields.optional "backends" [] (list? readBackend?),
    ← fields.optional "repos" [] (list? readRepo?))

end Config

end SourceView
