import SourceView.Api.Backends
import SourceView.Api.Search
import SourceView.NameMap
import SourceView.Session.Basic

/-! The network: backends, their pools, and everyone who uses them, at one point in time.
A backend is known by a script of how it answers each attempt to connect, and by what it writes
later. Everything else follows from the rules of clients, pools, sessions and searches.
-/

namespace SourceView

/-- A connection, by the backend that it leads to and its number there. Connections that were
opened directly lead to the backend with the empty name.
-/
structure Place where
  backend : String
  number : Nat
  deriving DecidableEq, Repr

/-- One who waits for a client. -/
inductive Ticket where
  | caller (name : String)
  | session (name : String)
  | search (name : String)
  deriving DecidableEq, Repr

/-- How a backend answers an attempt to connect. -/
inductive DialAnswer where
  | refuse
  /-- There is never an answer. -/
  | hang
  /-- A connection on which the backend has written `hello`, and has then hung up or not. -/
  | accept (hello : List UInt8) (hangsUp : Bool)
  deriving DecidableEq, Repr

/-- This program's side of a connection. -/
inductive LinkEnd where
  /-- There is no client, because the greeting has not arrived or was none. -/
  | bare (pipe : Pipe)
  | client (client : Client)

/-- A connection. -/
structure Link where
  place : Place
  near : LinkEnd
  /-- The backend has noticed that this program's side is closed. -/
  noticed : Bool := false

namespace Link

/-- The pipe of a connection. -/
def pipe (link : Link) : Pipe :=
  match link.near with
  | .bare pipe => pipe
  | .client client => client.pipe

/-- Change the pipe of a connection. -/
def mapPipe (link : Link) (change : Pipe → Pipe) : Link :=
  match link.near with
  | .bare pipe => { link with near := .bare (change pipe) }
  | .client client => { link with near := .client { client with pipe := change client.pipe } }

/-- The client of a connection. -/
def client? (link : Link) : Option Client :=
  match link.near with
  | .bare _ => none
  | .client client => some client

/-- Close this program's side of a connection. -/
def close (link : Link) : Link :=
  match link.near with
  | .bare pipe => { link with near := .bare pipe.close }
  | .client client => { link with near := .client client.close }

end Link

/-- A backend's pool, and what is still to come of the backend's script. -/
structure Station where
  pool : Pool Place Ticket
  script : List DialAnswer
  /-- The connection whose greeting the supervisor waits for, and since when. -/
  greeting : Option (Place × Nat) := none

/-- What a check-out or a search has come to. -/
inductive Completion where
  | checkedOut
  | refused (cause : PoolError)
  | answered (answer : Except ApiError SearchOutcome)

/-- Something that can be seen from outside. -/
inductive Notice where
  /-- An attempt to connect was made. -/
  | dialled (backend : String) (time : Nat) (answer : DialAnswer)
  /-- A session has sent a message to its browser. -/
  | replied (session : String) (message : BrowserMessage)
  | completed (name : String) (completion : Completion)

/-- A client that someone holds by a name. -/
structure Hold where
  place : Place
  /-- The client came from a pool. -/
  pooled : Bool
  deriving DecidableEq, Repr

/-- Backends, pools and their users. -/
structure Network where
  /-- The time, in milliseconds. -/
  now : Nat := 0
  /-- How long a search may wait, in milliseconds. -/
  patience : Nat
  stations : Directory Station := {}
  links : List Link := []
  held : NameMap Hold := {}
  sessions : NameMap (Session Place) := {}
  searches : NameMap (PageSearch Place) := {}
  /-- Queries that could not be sent, of which those who asked have not been told. -/
  unsent : List (Ticket × ClientError) := []
  /-- What could be seen since the last report. -/
  notices : List Notice := []

namespace Network

/-! ### Parts -/

/-- The connection at a place. -/
def link? (network : Network) (place : Place) : Option Link :=
  network.links.find? fun link => link.place = place

/-- The client at a place. -/
def client? (network : Network) (place : Place) : Option Client :=
  (network.link? place).bind Link.client?

/-- Change the connection at a place. -/
def modifyLink (network : Network) (place : Place) (change : Link → Link) : Network :=
  { network with
    links := network.links.map fun link => if link.place = place then change link else link }

/-- Put a client in the place of the one that was there. -/
def setClient (network : Network) (place : Place) (client : Client) : Network :=
  network.modifyLink place fun link => { link with near := .client client }

/-- Close this program's side of a connection. -/
def closeLink (network : Network) (place : Place) : Network :=
  network.modifyLink place Link.close

/-- Open a connection on which the backend has written `hello`, and has then hung up or not. -/
def openLink (network : Network) (backend : String) (hello : List UInt8) (hangsUp : Bool)
    : Place × Network :=
  let number := (network.links.filter fun link => link.place.backend = backend).length
  let place : Place := { backend, number }
  (place, {
    network with
    links := network.links ++ [{ place, near := .bare (.opened hello hangsUp) }] })

/-- Change a backend's station. -/
def modifyStation (network : Network) (backend : String) (change : Station → Station) : Network :=
  { network with stations := network.stations.modify backend change }

/-- Change a backend's pool. -/
def modifyPool (network : Network) (backend : String)
    (change : Pool Place Ticket → Pool Place Ticket) : Network :=
  network.modifyStation backend fun station => { station with pool := change station.pool }

/-- Note something that can be seen from outside. -/
def note (network : Network) (notice : Notice) : Network :=
  { network with notices := network.notices ++ [notice] }

/-- The backend that goes by a name. -/
def resolve (network : Network) (name : String) : Except PoolError String :=
  (network.stations.resolve name).map Prod.fst

/-! ### Clients in use -/

/-- Someone sends a query. If that fails, it is told later. -/
def ask (network : Network) (ticket : Ticket) (place : Place) (query : Query) : Network :=
  match network.client? place with
  | none => network
  | some client =>
    match client.ask query with
    | (.ok (), client) => network.setClient place client
    | (.error cause, client) =>
      { network.setClient place client with unsent := network.unsent ++ [(ticket, cause)] }

/-- Someone gives a client back to its pool, which closes it if it is unfit for use. -/
def release (network : Network) (backend : String) (place : Place) : Network :=
  match network.client? place, network.stations.get? backend with
  | some client, some station =>
    let (kept, pool) := station.pool.release place client.isIdle
    let network := network.modifyPool backend fun _ => pool
    if kept then network else network.closeLink place
  | _, _ => network

/-- Someone begins to wait for a client of a pool. -/
def request (network : Network) (backend : String) (ticket : Ticket) : Network :=
  network.modifyPool backend fun pool => pool.request ticket

/-- Someone waits no longer. -/
def withdraw (network : Network) (ticket : Ticket) : Network :=
  { network with
    stations := ⟨network.stations.entries.map fun (id, station) =>
      (id, { station with pool := station.pool.withdraw ticket })⟩ }

/-! ### Sessions and searches -/

/-- Do what a session wants done. -/
def perform (network : Network) (name : String) : Session.Effect Place → Network
  | .reply message => network.note (.replied name message)
  | .ask client query => network.ask (.session name) client query
  | .release backend client => network.release backend client
  | .close client => network.closeLink client

/-- Hand an input to a session. A session that waits for a pool asks anew, behind all others,
whenever it has handled an input.
-/
def feedSession (network : Network) (name : String) (input : Session.Input Place) : Network :=
  match network.sessions.get? name with
  | none => network
  | some session =>
    let turn := session.handle { now := network.now, resolve := network.resolve } input
    let network := {
      network.withdraw (.session name) with
      sessions := network.sessions.insert name turn.session }
    let network := turn.effects.foldl (fun network effect => network.perform name effect) network
    match turn.session.waitsFor? with
    | some backend => network.request backend (.session name)
    | none => network

/-- Do what a search wants done. -/
def performSearch (network : Network) (name : String) : PageSearch.Effect Place → Network
  | .ask client query => network.ask (.search name) client query
  | .release backend client => network.release backend client

/-- Hand an input to a search. -/
def feedSearch (network : Network) (name : String) (input : PageSearch.Input Place) : Network :=
  match network.searches.get? name with
  | none => network
  | some search =>
    let turn := search.handle network.now input
    let network := turn.effects.foldl (fun network effect => network.performSearch name effect)
      (network.withdraw (.search name))
    match turn.state with
    | .going search => { network with searches := network.searches.insert name search }
    | .answered answer =>
      { network with searches := network.searches.erase name }.note
        (.completed name (.answered answer))
    | .dropped => { network with searches := network.searches.erase name }

/-- A pool has granted a client to one who waited. -/
def deliver (network : Network) (client : Place) : Ticket → Network
  | .caller name =>
    { network with held := network.held.insert name { place := client, pooled := true } }.note
      (.completed name .checkedOut)
  | .session name => network.feedSession name (.granted client)
  | .search name => network.feedSearch name (.granted client)

/-- A pool has turned away one who waited. -/
def turnAway (network : Network) (cause : PoolError) : Ticket → Network
  | .caller name => network.note (.completed name (.refused cause))
  | .session name => network.feedSession name (.refused cause)
  | .search name => network.feedSearch name (.refused cause)

/-- Tell one who asked that a query could not be sent, or what the client has read. -/
def report (network : Network) (outcome : Except ClientError QueryEvent) : Ticket → Network
  | .caller _ => network
  | .session name => network.feedSession name (.event outcome)
  | .search name => network.feedSearch name (.event outcome)

end Network

end SourceView
