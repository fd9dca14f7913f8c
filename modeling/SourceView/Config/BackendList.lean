import SourceView.Config.Basic
import SourceView.Text.Blank
import SourceView.Text.Split

/-! The short way to list backends: entries between commas, each a name, an equals sign and an
address, or an address that is also the name.
-/

namespace SourceView

namespace Config

/-- Read an entry that is not blank. -/
def readEntry (entry : List Char) : Except ConfigError BackendConfig :=
  let (id, address) :=
    match Text.splitOnce? '=' entry with
    | some (id, address) => (Text.trim id, Text.trim address)
    | none => (entry, entry)
  if id.isEmpty || address.isEmpty then .error (.malformedBackend (.ofList entry))
  else .ok { id := .ofList id, address := .ofList address }

/-- The entries of a list, without blanks around them and without those that are blank. -/
def entries (list : List Char) : List (List Char) :=
  ((Text.split ',' list).map Text.trim).filter fun entry => !entry.isEmpty

/-- Read a list of backends. -/
def readBackendList (list : String) : Except ConfigError (List BackendConfig) :=
  (entries list.toList).mapM readEntry

end Config

end SourceView
