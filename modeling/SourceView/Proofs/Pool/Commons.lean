import SourceView.Proofs.Connection.Conversation
import SourceView.Proofs.Pool.Circulation
import SourceView.Proofs.Pool.Tasks

/-! A pool that sessions and searches have in common, with the backends behind its connections.
Sending a query, handling a piece of news, and each errand is one step, and steps are taken in any
order. A backend answers each query that was sent on a connection with results and then one end, in
order, and writes nothing else once it has sent its greeting; but it writes in pieces, and it can
stop at any point. Every session and search can be gone at any point, too.
-/

namespace SourceView

/-- A pool, its users, and what was asked and answered on its connections. -/
structure Commons (κ τ : Type) extends Circulation κ τ where
  users : τ → User κ := fun _ => {}
  talks : κ → Conversation τ := fun _ => {}

namespace Commons

variable {κ τ : Type}

/-- A pool that has yet to dial. -/
def create (address : String) (size : Nat) : Commons κ τ :=
  { toCirculation := .create address size }

section Steps

variable [DecidableEq κ] [DecidableEq τ]

-----------------------------------------------------------------------------------------
-- Parts of steps
-----------------------------------------------------------------------------------------

def setUser (state : Commons κ τ) (name : τ) (user : User κ) : Commons κ τ :=
  { state with users := override state.users name user }

/-- The client of a connection and what was said on the connection are now these. -/
def setTalk (state : Commons κ τ) (name : κ) (client : Client) (talk : Conversation τ)
    : Commons κ τ :=
  { state with
    toCirculation := state.toCirculation.setClient name client
    talks := override state.talks name talk }

/-- A user hears of something, and waits no longer. -/
def hear (state : Commons κ τ) (name : τ) (user : User κ) (setting : Session.Setting)
    (news : News κ) : Commons κ τ :=
  { state with pool := state.pool.withdraw name }.setUser name (user.hear setting news)

/-- A client is on its way from the pool to a user. -/
def lend (state : Commons κ τ) (pool : Pool κ τ) (name : κ) : Commons κ τ :=
  { state with
    pool
    held := state.held ++ [name]
    talks := override state.talks name (state.talks name).passOn }

def putBack (state : Commons κ τ) (name : κ) (client : Client) : Commons κ τ :=
  { state with toCirculation := state.toCirculation.putBack name client }

/-- A connection was opened, and nothing has been said on it but the greeting. -/
def dialled (state : Commons κ τ) (name : κ) (client : Client) : Commons κ τ :=
  { state with
    toCirculation := state.toCirculation.dialled name client
    talks := override state.talks name {} }

-----------------------------------------------------------------------------------------
-- Steps
-----------------------------------------------------------------------------------------

/-- One step of anyone. -/
inductive Step : Commons κ τ → Commons κ τ → Prop
  -- Sessions and searches
  | openSession {state} (user : τ) (free : state.users user = {})
    : Step state (state.setUser user { task := .session {} })
  | startSearch {state resolve now patience backend typed search} (user : τ)
    (free : state.users user = {})
    (started : PageSearch.start resolve now patience backend typed = .ok search)
    : Step state (state.setUser user { task := .search search })
  | call {state} (user : τ) (setting : Session.Setting) (call : Call)
    (ready : (state.users user).errands = [])
    : Step state (state.hear user (state.users user) setting (.call call))
  | request {state} (user : τ) (waits : (state.users user).Waits)
    : Step state { state with pool := state.pool.request user }
  | grant {state user name pool} (setting : Session.Setting)
    (granted : state.pool.grant? = some (user, name, pool))
    : Step state
        ((state.lend pool name).hear user { state.users user with hand := some name } setting
          (.granted name))
  | refuse {state user pool} (setting : Session.Setting)
    (refused : state.pool.refuse? = some (user, pool))
    : Step state
        ({ state with pool }.hear user (state.users user) setting (.refused .closed))
  | read {state user name client event after} (setting : Session.Setting)
    (ready : (state.users user).errands = [])
    (holds : (state.users user).task.holds? = some name)
    (known : state.clients name = some client)
    (next : client.nextEvent? = some (.ok event, after))
    : Step state
        ((state.setTalk name after (state.talks name).read).hear user (state.users user) setting
          (.event (.ok event)))
  | readFailed {state user name client cause after} (setting : Session.Setting)
    (ready : (state.users user).errands = [])
    (holds : (state.users user).task.holds? = some name)
    (known : state.clients name = some client)
    (next : client.nextEvent? = some (.error cause, after))
    : Step state
        ((state.setTalk name after (state.talks name)).hear user (state.users user) setting
          (.event (.error cause)))
  -- Errands
  | reply {state user message errands}
    (due : (state.users user).errands = .reply message :: errands)
    : Step state (state.setUser user { state.users user with errands })
  | ask {state user name query errands client after}
    (due : (state.users user).errands = .ask name query :: errands)
    (known : state.clients name = some client) (asked : client.ask query = (.ok (), after))
    : Step state
        ((state.setTalk name after ((state.talks name).ask user query)).setUser user
          { state.users user with errands })
  | askFailed {state user name query errands client cause after} (setting : Session.Setting)
    (due : (state.users user).errands = .ask name query :: errands)
    (known : state.clients name = some client)
    (failed : client.ask query = (.error cause, after))
    : Step state
        ((state.setTalk name after (state.talks name)).hear user
          { state.users user with errands } setting (.event (.error cause)))
  | close {state user name errands client}
    (due : (state.users user).errands = .close name :: errands)
    (known : state.clients name = some client)
    : Step state
        ((state.setTalk name client.close (state.talks name)).setUser user
          { state.users user with errands })
  | release {state user backend name errands client}
    (due : (state.users user).errands = .release backend name :: errands)
    (known : state.clients name = some client)
    : Step state
        ((state.setUser user { state.users user with errands, hand := none }).putBack name client)
  -- Sessions and searches that are gone, with what they had at hand
  | vanish {state} (user : τ) (empty : (state.users user).hand = none)
    : Step state ({ state with pool := state.pool.withdraw user }.setUser user {})
  | drop {state user name client} (holds : (state.users user).hand = some name)
    (known : state.clients name = some client)
    : Step state
        (({ state with pool := state.pool.withdraw user }.setUser user {}).putBack name client)
  -- Backends
  | answer {state client reply} (name : κ) (known : state.clients name = some client)
    (next : (state.talks name).Next reply)
    : Step state (state.setTalk name client ((state.talks name).answer reply))
  | send {state client bytes pipe} (name : κ) (known : state.clients name = some client)
    (follows : (state.talks name).written ++ bytes <+: Reply.stream (state.talks name).replies)
    (sent : client.pipe.send? bytes = some pipe)
    : Step state (state.setTalk name { client with pipe } ((state.talks name).write bytes))
  | finish {state client} (name : κ) (known : state.clients name = some client)
    : Step state
        (state.setTalk name { client with pipe := client.pipe.finish } (state.talks name))
  | hangUp {state client} (name : κ) (known : state.clients name = some client)
    : Step state
        (state.setTalk name { client with pipe := client.pipe.hangUp } (state.talks name))
  | collect {state client} (name : κ) (known : state.clients name = some client)
    : Step state
        (state.setTalk name { client with pipe := client.pipe.collect.2 } (state.talks name))
  | breakOff {state client} (name : κ) (cause : String) (known : state.clients name = some client)
    : Step state
        (state.setTalk name { client with pipe := client.pipe.breakOff cause } (state.talks name))
  -- The supervisor
  | startDial {state pool} (started : state.pool.startDial? = some pool)
    : Step state { state with pool }
  | dialFailed {state} (now : Nat)
    : Step state { state with pool := state.pool.dialFailed now }
  | redial {state pool} (now : Nat) (elapsed : state.pool.redial? now = some pool)
    : Step state { state with pool }
  | dialled {state name pipe client} (dialling : state.pool.supervisor = .dialling)
    (new : state.clients name = none) (greeted : Client.handshake? pipe = some (.ok client))
    (quiet : client.pipe.inbound = [])
    : Step state (state.dialled name client)
  -- The end
  | cancel {state} : Step state { state with pool := state.pool.cancel }
  | drain {state} (closed : state.pool.closed = true)
    : Step state { state with toCirculation := state.toCirculation.drain }

/-- Steps, one after the other. -/
inductive Run : Commons κ τ → Commons κ τ → Prop
  | none {state} : Run state state
  | next {state middle final} (run : Run state middle) (step : Step middle final)
    : Run state final

end Steps

end Commons

end SourceView
