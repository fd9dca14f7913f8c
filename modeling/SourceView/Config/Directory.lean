import SourceView.Config.Basic
import SourceView.Pool.Directory

/-! What the server opens for its backends. -/

namespace SourceView.Config

/-- Put what is opened for each backend under its name, one backend after the other. -/
def directory {α : Type} (config : Config) (opened : BackendConfig → α) : Directory α :=
  .ofList <| config.backends.map fun backend => (backend.id, opened backend)

/-- A pool for each backend. -/
def pools {κ τ : Type} (config : Config) : Directory (Pool κ τ) :=
  config.directory fun backend => .create backend.address backend.poolSize

end SourceView.Config
