import SourceView.Proofs.Pool.Places
import SourceView.Proofs.Session.Errands

/-! A session and the clients that pools lend it, one after the other.
The session hears of one thing at a time, and does what that leaves to be done before it hears of
anything else. It can end whenever it would hear of something, and whenever it sends a message.
Whatever others do to the pools in the meantime, and even while a pool is being closed, the session
holds one client at most, does not part with it in the middle of an answer unless the connection is
closed, and leaves nothing behind when it is over.
-/

namespace SourceView

-----------------------------------------------------------------------------------------
-- Leases
-----------------------------------------------------------------------------------------

/-- What a session does to a client, or hears from it. -/
inductive Lease.Deed where
  | asked (outcome : Except ClientError Unit)
  | heard (outcome : Except ClientError QueryEvent)
  | closed

/-- A client that a pool has lent to a session. -/
structure Lease (κ : Type) where
  /-- The backend whose pool has lent the client, and the client's name there. -/
  client : String × κ
  /-- What has come to pass between the session and the client, in order. -/
  deeds : List Lease.Deed := []

namespace Lease

variable {κ : Type} {lease : Lease κ}

/-- A query was sent, and results have been read. -/
def Underway (lease : Lease κ) : Prop :=
  ∃ found : List Match,
    lease.deeds = .asked (.ok ()) :: found.map fun one => .heard (.ok (.result one))

/-- A query was sent, and its answer has been read to the end. -/
def Answered (lease : Lease κ) : Prop :=
  ∃ (found : List Match) (ending : QueryEvent),
    lease.deeds
      = .asked (.ok ()) :: (found.map fun one => .heard (.ok (.result one)))
        ++ [.heard (.ok ending)]
    ∧ ending.message.isTerminator = true

/-- What has come to pass is noted. -/
def note (lease : Lease κ) (deed : Deed) : Lease κ :=
  { lease with deeds := lease.deeds ++ [deed] }

/-- A query that was sent is under way. -/
theorem underway_of_asked (untouched : lease.deeds = [])
    : (lease.note (.asked (.ok ()))).Underway :=
  ⟨[], by rw [note, untouched]; rfl⟩

/-- A query stays under way with each result. -/
theorem Underway.result (underway : lease.Underway) (found : Match)
    : (lease.note (.heard (.ok (.result found)))).Underway := by
  obtain ⟨before, deeds⟩ := underway
  exact ⟨before ++ [found], by simp [note, deeds]⟩

/-- A query is answered with the end of its answer. -/
theorem Underway.answered {ending : QueryEvent} (underway : lease.Underway)
    (ends : ending.message.isTerminator = true)
    : (lease.note (.heard (.ok ending))).Answered := by
  obtain ⟨found, deeds⟩ := underway
  exact ⟨found, ending, by simp [note, deeds], ends⟩

end Lease

-----------------------------------------------------------------------------------------
-- A session among pools
-----------------------------------------------------------------------------------------

/-- A session, the pools of all backends, and what they have lent to the session. -/
structure Tenancy (κ τ : Type) where
  /-- The session's ticket. -/
  self : τ
  session : Session (String × κ) := {}
  /-- What is to be done before the session hears of anything else, in order. -/
  errands : List (Session.Effect (String × κ)) := []
  /-- The clients that the session has. -/
  lent : List (Lease κ) := []
  /-- The clients that the session has had, the first one first. -/
  returned : List (Lease κ) := []
  /-- The pools, in which the clients that are held are those that others have. -/
  pools : String → Shutdown κ τ

namespace Tenancy

variable {κ τ : Type}

/-- A session that has just been opened. -/
def create (self : τ) (pools : String → Shutdown κ τ) : Tenancy κ τ :=
  { self, pools }

def client? (state : Tenancy κ τ) (name : String × κ) : Option Client :=
  (state.pools name.1).clients name.2

/-- The clients that one backend's pool has lent to the session. -/
def lentFrom (state : Tenancy κ τ) (backend : String) : List κ :=
  ((state.lent.map Lease.client).filter (·.1 = backend)).map Prod.snd

def setPool (state : Tenancy κ τ) (backend : String) (pool : Shutdown κ τ) : Tenancy κ τ :=
  { state with pools := override state.pools backend pool }

section Steps

variable [DecidableEq κ] [DecidableEq τ]

/-- The session has done this to a client, or has heard this from it, which is now so. -/
def act (state : Tenancy κ τ) (name : String × κ) (deed : Lease.Deed) (after : Client)
    : Tenancy κ τ :=
  let pool := state.pools name.1
  { state.setPool name.1 { pool with toCirculation := pool.setClient name.2 after } with
    lent := state.lent.map fun lease => if lease.client = name then lease.note deed else lease }

/-- The session hears of something, and waits no longer. -/
def hear (state : Tenancy κ τ) (setting : Session.Setting)
    (input : Session.Input (String × κ)) : Tenancy κ τ :=
  let turn := state.session.handle setting input
  { state with
    session := turn.session
    errands := state.errands ++ turn.effects
    pools := fun backend =>
      { state.pools backend with pool := (state.pools backend).pool.withdraw state.self } }

/-- A client is on its way from a pool to the session. -/
def lend (state : Tenancy κ τ) (backend : String) (name : κ) (pool : Pool κ τ) : Tenancy κ τ :=
  { state.setPool backend { state.pools backend with pool } with
    lent := state.lent ++ [{ client := (backend, name) }] }

/-- The session lets a client go. -/
def giveBack (state : Tenancy κ τ) (name : String × κ) (client : Client) : Tenancy κ τ :=
  { state.setPool name.1 ((state.pools name.1).letGo name.2 client) with
    lent := state.lent.filter (·.client ≠ name)
    returned := state.returned ++ state.lent.filter (·.client = name) }

/-- One step of the session or of anyone else. The client of a lease goes back to the pool from
which it came, whatever the session says.
-/
inductive Step : Tenancy κ τ → Tenancy κ τ → Prop
  -- The session waits for whatever comes first
  | call {state} (setting : Session.Setting) (input : Session.Input (String × κ))
    (ready : state.errands = []) (going : state.session.ended = false)
    (calls : (∃ text, input = .frame text) ∨ input = .left ∨ input = .deafened)
    : Step state (state.hear setting input)
  | request {state} (backend : String) (ready : state.errands = [])
    (going : state.session.ended = false) (waits : state.session.waitsFor? = some backend)
    : Step state
        (state.setPool backend {
          state.pools backend with
          pool := (state.pools backend).pool.request state.self })
  | granted {state pool} (setting : Session.Setting) (backend : String) (name : κ)
    (lent : (state.pools backend).pool.lend? = some (state.self, name, pool))
    : Step state ((state.lend backend name pool).hear setting (.granted (backend, name)))
  | refused {state backend} (setting : Session.Setting) (ready : state.errands = [])
    (going : state.session.ended = false) (waits : state.session.waitsFor? = some backend)
    (closed : (state.pools backend).pool.closed = true)
    : Step state (state.hear setting (.refused .closed))
  | read {state backend name client outcome after} (setting : Session.Setting)
    (ready : state.errands = []) (going : state.session.ended = false)
    (holds : state.session.holds? = some (backend, name)) (known : state.client? name = some client)
    (next : client.nextEvent? = some (outcome, after))
    : Step state ((state.act name (.heard outcome) after).hear setting (.event outcome))
  -- The session does what is to be done
  | reply {state message errands} (due : state.errands = .reply message :: errands)
    : Step state { state with errands }
  /-- Nobody listens any more when a message is sent, and the rest of the turn is not done. It would
  neither give back a client nor take one. -/
  | cutShort {state message errands} (due : state.errands = .reply message :: errands)
    : Step state {
        state with
        session := state.session.shutDown.session
        errands := state.session.shutDown.effects }
  | ask {state name query errands client after} (due : state.errands = .ask name query :: errands)
    (known : state.client? name = some client) (asked : client.ask query = (.ok (), after))
    : Step state { state.act name (.asked (.ok ())) after with errands }
  | askFailed {state name query errands client cause after} (setting : Session.Setting)
    (due : state.errands = .ask name query :: errands) (known : state.client? name = some client)
    (failed : client.ask query = (.error cause, after))
    : Step state
        ({ state.act name (.asked (.error cause)) after with errands }.hear setting
          (.event (.error cause)))
  | close {state name errands client} (due : state.errands = .close name :: errands)
    (known : state.client? name = some client)
    : Step state { state.act name .closed client.close with errands }
  | release {state backend name errands client}
    (due : state.errands = .release backend name :: errands)
    (known : state.client? name = some client)
    : Step state { state.giveBack name client with errands }
  -- Others do something to a pool, with the clients that they have
  | other {state backend pool} (step : Shutdown.Step (state.pools backend) pool)
    (apart
      : state.self ∈ pool.pool.waiting ↔ state.self ∈ (state.pools backend).pool.waiting)
    : Step state (state.setPool backend pool)

/-- Steps, one after the other. -/
inductive Run : Tenancy κ τ → Tenancy κ τ → Prop
  | none {state} : Run state state
  | next {state middle final} (run : Run state middle) (step : Step middle final)
    : Run state final

end Steps

end Tenancy

end SourceView
