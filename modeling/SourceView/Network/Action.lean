import SourceView.Network.Run

/-! What someone can do to a network from outside, as a backend, a browser or the one who holds a
client, and what comes of it.
-/

namespace SourceView

/-- Something that is done to a network. -/
inductive Action where
  -- Clients
  | handshake (name : String) (hello : List UInt8) (hangsUp : Bool)
  | checkOut (backend name : String)
  | cancel (name : String)
  | checkIn (backend name : String)
  | discard (name : String)
  | query (name : String) (query : Query)
  | next (name : String)
  | search (name : String) (query : Query)
  | closeClient (name : String)
  -- Backends
  | send (place : Place) (bytes : List UInt8)
  | finish (place : Place)
  | hangUp (place : Place)
  -- Pools and the clock
  | advance (duration : Nat)
  | closePool (backend : String)
  | closeAll
  | resolve (backend : String)
  | listBackends
  -- Browsers
  | startSearch (name backend typed : String)
  | abort (name : String)
  | openSession (name : String)
  | frame (name : String) (text : List UInt8)
  | closeSession (name : String)
  | deafen (name : String)

/-- What comes of an action. -/
inductive ActionResult where
  | nothing
  /-- The action names something that is not there, or begins something under a name in use. -/
  | notApplicable
  | greeting (greeting : Greeting)
  | failed (cause : ClientError)
  | sent
  | event (event : QueryEvent)
  | outcome (outcome : SearchOutcome)
  /-- More has to arrive. -/
  | waiting
  /-- Someone was or was not there to take what was sent. -/
  | taken (byAnyone : Bool)
  | backend (summary : BackendSummary)
  | unresolved (cause : PoolError)
  | backends (summaries : List BackendSummary)

namespace Network

/-! ### Names in use -/

/-- Someone waits for a client under a name. -/
def isWaiting (network : Network) (name : String) : Bool :=
  network.stations.entries.any fun (_, station) =>
    station.pool.waiting.contains (.caller name)

/-- A client is held or waited for under a name. -/
def isTaken (network : Network) (name : String) : Bool :=
  network.held.contains name || network.isWaiting name

/-! ### Clients -/

/-- Open a connection directly and wait for its greeting. -/
def handshake (network : Network) (name : String) (hello : List UInt8) (hangsUp : Bool)
    : ActionResult × Network :=
  let (place, network) := network.openLink "" hello hangsUp
  match (network.link? place).bind fun link => Client.handshake? link.pipe with
  | none =>
    let network := network.runUntil (network.now + Client.handshakeTimeout)
    (.failed .handshakeTimeout, network.closeLink place)
  | some (.error fault) => (.failed (.fault fault), network.closeLink place)
  | some (.ok client) =>
    let network := network.setClient place client
    (.greeting client.greeting,
      { network with held := network.held.insert name { place, pooled := false } })

/-- Let go of a client. A client from a pool goes back there, and any other one is closed. -/
def letGo (network : Network) (name : String) (hold : Hold) : Network :=
  let network := { network with held := network.held.erase name }
  if hold.pooled then network.release hold.place.backend hold.place
  else network.closeLink hold.place

/-- Do something with the client that is held under a name. -/
def withClient (network : Network) (name : String)
    (act : Client → ActionResult × Client) : ActionResult × Network :=
  match network.held.get? name with
  | none => (.notApplicable, network)
  | some hold =>
    match network.client? hold.place with
    | none => (.notApplicable, network)
    | some client =>
      let (result, client) := act client
      (result, network.setClient hold.place client)

/-! ### Backends -/

/-- Do something with the pipe at a place. -/
def withPipe (network : Network) (place : Place) (act : Pipe → ActionResult × Pipe)
    : ActionResult × Network :=
  match network.link? place with
  | none => (.notApplicable, network)
  | some link =>
    let (result, pipe) := act link.pipe
    (result, network.modifyLink place fun link => link.mapPipe fun _ => pipe)

/-! ### Pools -/

/-- Close a pool. An attempt to connect is given up, and idle clients are closed. -/
def closePool (network : Network) (backend : String) : Network :=
  match network.stations.get? backend with
  | none => network
  | some station =>
    let (idle, pool) := station.pool.close
    let places := idle ++ station.greeting.toList.map Prod.fst
    let network := network.modifyStation backend fun station =>
      { station with pool, greeting := none }
    places.foldl closeLink network

/-- Close the pools one after another. -/
def closeAll (network : Network) : Network :=
  network.stations.ids.foldl (fun network backend => (network.closePool backend).settle) network

/-! ### Actions -/

/-- Do something with the session under a name. -/
def withSession (network : Network) (name : String)
    (act : Session Place → ActionResult × Network) : ActionResult × Network :=
  match network.sessions.get? name with
  | none => (.notApplicable, network)
  | some session => act session

/-- Begin a search. -/
def startSearch (network : Network) (name backend typed : String) : ActionResult × Network :=
  if network.searches.contains name then (.notApplicable, network)
  else
    match PageSearch.start network.resolve network.now network.patience backend typed with
    | .error cause => (.nothing, network.note (.completed name (.answered (.error cause))))
    | .ok search =>
      let network := { network with searches := network.searches.insert name search }
      (.nothing, network.request search.backend (.search name))

/-- Do something to the network, without what follows from it. -/
def act (network : Network) : Action → ActionResult × Network
  | .handshake name hello hangsUp =>
    if network.isTaken name then (.notApplicable, network)
    else network.handshake name hello hangsUp
  | .checkOut backend name =>
    if network.isTaken name || (network.stations.get? backend).isNone then
      (.notApplicable, network)
    else (.nothing, network.request backend (.caller name))
  | .cancel name =>
    if network.isWaiting name then (.nothing, network.withdraw (.caller name))
    else (.notApplicable, network)
  | .checkIn backend name =>
    match network.held.get? name with
    | some hold =>
      if hold.pooled && (network.stations.get? backend).isSome then
        (.nothing, network.letGo name hold)
      else (.notApplicable, network)
    | none => (.notApplicable, network)
  | .discard name =>
    match network.held.get? name with
    | some hold => (.nothing, network.letGo name hold)
    | none => (.notApplicable, network)
  | .query name query =>
    network.withClient name fun client =>
      match client.ask query with
      | (.ok (), client) => (.sent, client)
      | (.error cause, client) => (.failed cause, client)
  | .next name =>
    network.withClient name fun client =>
      match client.nextEvent? with
      | none => (.waiting, client)
      | some (.ok event, client) => (.event event, client)
      | some (.error cause, client) => (.failed cause, client)
  | .search name query =>
    network.withClient name fun client =>
      match client.search query with
      | (.awaited _, client) => (.waiting, client)
      | (.finished (.ok outcome), client) => (.outcome outcome, client)
      | (.finished (.error cause), client) => (.failed cause, client)
  | .closeClient name => network.withClient name fun client => (.nothing, client.close)
  | .send place bytes =>
    network.withPipe place fun pipe =>
      match pipe.send? bytes with
      | some pipe => (.taken true, pipe)
      | none => (.taken false, pipe)
  | .finish place => network.withPipe place fun pipe => (.nothing, pipe.finish)
  | .hangUp place => network.withPipe place fun pipe => (.nothing, pipe.hangUp)
  | .advance duration => (.nothing, network.runUntil (network.now + duration))
  | .closePool backend =>
    if (network.stations.get? backend).isSome then (.nothing, network.closePool backend)
    else (.notApplicable, network)
  | .closeAll => (.nothing, network.closeAll)
  | .resolve backend =>
    match network.stations.resolve backend with
    | .error cause => (.unresolved cause, network)
    | .ok (id, station) => (.backend (station.pool.summary id), network)
  | .listBackends =>
    (.backends (network.stations.entries.map fun (id, station) => station.pool.summary id),
      network)
  | .startSearch name backend typed => network.startSearch name backend typed
  | .abort name =>
    if network.searches.contains name then (.nothing, network.feedSearch name .aborted)
    else (.notApplicable, network)
  | .openSession name =>
    if network.sessions.contains name then (.notApplicable, network)
    else (.nothing, { network with sessions := network.sessions.insert name {} })
  | .frame name text =>
    network.withSession name fun session =>
      (.taken (!session.ended), network.feedSession name (.frame text))
  | .closeSession name =>
    network.withSession name fun _ => (.nothing, network.feedSession name .left)
  | .deafen name =>
    network.withSession name fun _ => (.nothing, network.feedSession name .deafened)

/-- Do something to the network, with everything that follows from it without the clock. -/
def step (network : Network) (action : Action) : ActionResult × Network :=
  let (result, network) := network.act action
  (result, network.settle)

end Network

end SourceView
