import SourceView.Api.Error
import SourceView.Query.Parser
import SourceView.Text.Blank

/-! Searches that are answered as a whole.
Such a search waits for a client, asks it, and gathers the answer. It has the same time for the
wait and then again for the answer. It is a machine like a session.
-/

namespace SourceView

/-- A search that is to be answered as a whole. Clients go by names from `κ`. -/
structure PageSearch (κ : Type) where
  backend : String
  query : Query
  /-- The client that was asked, once the pool has granted one. -/
  client : Option κ := none
  /-- The matches that have arrived. -/
  found : List Match := []
  /-- How long the search may wait, in milliseconds. -/
  patience : Nat
  /-- When it gives up. -/
  due : Nat

namespace PageSearch

/-- What can happen to a search. -/
inductive Input (κ : Type) where
  | granted (client : κ)
  | refused (cause : PoolError)
  /-- The client has read a part of the answer, or has failed. -/
  | event (outcome : Except ClientError QueryEvent)
  /-- The search has waited too long. -/
  | expired
  /-- Nobody wants the answer any more. -/
  | aborted

/-- What a search wants done. -/
inductive Effect (κ : Type) where
  /-- Send a query. If that fails, the failure comes back as an event. -/
  | ask (client : κ) (query : Query)
  /-- Give a client back to its pool. -/
  | release (backend : String) (client : κ)

/-- What has become of a search. -/
inductive State (κ : Type) where
  | going (search : PageSearch κ)
  | answered (answer : Except ApiError SearchOutcome)
  /-- It has ended without an answer. -/
  | dropped

/-- A search after an input, and what it wants done. -/
structure Turn (κ : Type) where
  state : State κ
  effects : List (Effect κ) := []

variable {κ : Type}

/-- Begin to search for what a user has typed. -/
def start (resolve : String → Except PoolError String) (now patience : Nat)
    (backend typed : String) : Except ApiError (PageSearch κ) :=
  if (Text.trimmed typed).isEmpty then .error ⟨.badRequest, "Query is required"⟩
  else
    match Query.parse typed with
    | .error cause => .error ⟨.badRequest, cause.message⟩
    | .ok query =>
      match resolve backend with
      | .error cause => .error (.ofPool cause)
      | .ok backend => .ok { backend, query, patience, due := now + patience }

/-- What gives the search's client back to its pool. -/
def releasing (search : PageSearch κ) : List (Effect κ) :=
  match search.client with
  | some client => [.release search.backend client]
  | none => []

/-- End the search with an answer. -/
def finish (search : PageSearch κ) (answer : Except ApiError SearchOutcome) : Turn κ :=
  { state := .answered answer, effects := search.releasing }

/-- Handle one input. -/
def handle (now : Nat) (search : PageSearch κ) (input : Input κ) : Turn κ :=
  match input with
  | .granted client =>
    { state := .going { search with client := some client, due := now + search.patience }
      effects := [.ask client search.query] }
  | .refused cause => search.finish (.error (.ofPool cause))
  | .event (.error cause) => search.finish (.error (.ofClient cause))
  | .event (.ok (.result more)) =>
    { state := .going { search with found := search.found ++ [more] } }
  | .event (.ok (.done stats)) => search.finish (.ok { results := search.found, stats })
  | .event (.ok (.failed text)) => search.finish (.error (.ofClient (.rejected text)))
  | .expired => search.finish (.error (.timedOut search.backend))
  | .aborted => { state := .dropped, effects := search.releasing }

end PageSearch

end SourceView
