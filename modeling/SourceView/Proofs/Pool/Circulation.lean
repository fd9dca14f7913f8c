import SourceView.Api.Backends
import SourceView.Proofs.Connection.Clients

/-! A pool in use: its clients, those who hold them, and every step that can be taken.
Whoever holds a client has it for himself. What stands between two points at which a task can wait
is one step, and steps are taken in any order.
-/

namespace SourceView

-----------------------------------------------------------------------------------------
-- A pool and those who use it
-----------------------------------------------------------------------------------------

/-- A pool, its clients, and who holds them. -/
structure Circulation (κ τ : Type) where
  pool : Pool κ τ
  /-- The client of each connection that was opened for the pool. -/
  clients : κ → Option Client := fun _ => none
  /-- The clients that someone holds. -/
  held : List κ := []

namespace Circulation

variable {κ τ : Type}

/-- A pool that has yet to dial. -/
def create (address : String) (size : Nat) : Circulation κ τ :=
  { pool := .create address size }

section Steps

variable [DecidableEq κ] [DecidableEq τ]

/-- The client of a connection is now this one. -/
def setClient (state : Circulation κ τ) (name : κ) (client : Client) : Circulation κ τ :=
  { state with clients := override state.clients name (some client) }

/-- An attempt to dial has brought a client, which is closed if the pool does not keep it. -/
def dialled (state : Circulation κ τ) (name : κ) (client : Client) : Circulation κ τ :=
  let outcome := state.pool.dialled name client.greeting.offer
  { state with pool := outcome.2 }.setClient name (if outcome.1 then client else client.close)

/-- A client comes back from whoever held it, and is closed if the pool does not keep it. -/
def putBack (state : Circulation κ τ) (name : κ) (client : Client) : Circulation κ τ :=
  let outcome := state.pool.release name client.isIdle
  { state with pool := outcome.2, held := state.held.erase name }.setClient name
    (if outcome.1 then client else client.close)

/-- The idle clients of a pool that has been told to close are given up and closed. -/
def drain (state : Circulation κ τ) : Circulation κ τ where
  pool := state.pool.drain.2
  clients name :=
    if name ∈ state.pool.drain.1 then (state.clients name).map Client.close
    else state.clients name
  held := state.held

/-- One step of those who run a pool or use it. -/
inductive Step : Circulation κ τ → Circulation κ τ → Prop
  -- Those who use clients
  | request {state} (ticket : τ)
    : Step state { state with pool := state.pool.request ticket }
  | withdraw {state} (ticket : τ)
    : Step state { state with pool := state.pool.withdraw ticket }
  | grant {state ticket name pool} (granted : state.pool.grant? = some (ticket, name, pool))
    : Step state { state with pool, held := state.held ++ [name] }
  | refuse {state ticket pool} (refused : state.pool.refuse? = some (ticket, pool))
    : Step state { state with pool }
  | use {state name client after} (holds : name ∈ state.held)
    (known : state.clients name = some client) (use : client.Use after)
    : Step state (state.setClient name after)
  | putBack {state name client} (holds : name ∈ state.held)
    (known : state.clients name = some client)
    : Step state (state.putBack name client)
  -- Backends
  | serve {state name client} (known : state.clients name = some client) (pipe : Pipe)
    : Step state (state.setClient name { client with pipe })
  -- The supervisor
  | startDial {state pool} (started : state.pool.startDial? = some pool)
    : Step state { state with pool }
  | dialFailed {state} (now : Nat)
    : Step state { state with pool := state.pool.dialFailed now }
  | redial {state pool} (now : Nat) (elapsed : state.pool.redial? now = some pool)
    : Step state { state with pool }
  | dialled {state name pipe client} (dialling : state.pool.supervisor = .dialling)
    (new : state.clients name = none) (greeted : Client.handshake? pipe = some (.ok client))
    : Step state (state.dialled name client)
  -- The end
  | cancel {state} : Step state { state with pool := state.pool.cancel }
  | drain {state} (closed : state.pool.closed = true) : Step state state.drain

/-- Steps, one after the other. -/
inductive Run : Circulation κ τ → Circulation κ τ → Prop
  | none {state} : Run state state
  | next {state middle final} (run : Run state middle) (step : Step middle final)
    : Run state final

end Steps

end Circulation

end SourceView
