import SourceView.Network.Action

/-! What can be seen of a network from outside, from one action to the next. -/

namespace SourceView

/-- What can be seen of a pool. -/
structure PoolReport where
  backend : String
  stats : PoolStats
  closed : Bool
  deriving DecidableEq, Repr

/-- What can be seen of a client that someone holds. -/
structure HeldReport where
  name : String
  isIdle : Bool
  ending : Option Ending
  deriving DecidableEq, Repr

/-- What a backend has noticed on a connection. -/
inductive Receipt where
  | line (text : List UInt8)
  /-- This program's side is closed. -/
  | closed
  deriving DecidableEq, Repr

/-- An attempt to connect. -/
structure DialReport where
  backend : String
  time : Nat
  answer : DialAnswer
  deriving DecidableEq, Repr

/-- What can be seen of a network after an action. -/
structure NetworkReport where
  result : ActionResult
  now : Nat
  /-- What check-outs and searches have come to, by their names. -/
  completed : List (String × Completion)
  /-- The attempts to connect, by backend. -/
  dials : List DialReport
  /-- What browsers were sent, by the names of their sessions. -/
  replies : List (String × BrowserMessage)
  /-- What backends have received, by backend and then by connection. -/
  received : List (Place × Receipt)
  /-- Which sessions have ended. -/
  sessions : List (String × Bool)
  pools : List PoolReport
  held : List HeldReport

/-- What the backend at the end of a connection notices, and the connection afterwards. A backend
that has hung up notices nothing.
-/
def Link.notice (link : Link) : List Receipt × Link :=
  let (bytes, pipe) := link.pipe.collect
  let rest := link.mapPipe fun _ => pipe
  if pipe.deserted then ([], rest)
  else
    let lines := (Text.byteLines bytes).map fun line => Receipt.line line.dropLast
    if pipe.closed && !link.noticed then (lines ++ [.closed], { rest with noticed := true })
    else (lines, rest)

namespace Network

/-- A place comes before another one in a report. -/
def precedes (place other : Place) : Bool :=
  place.backend < other.backend
    || (place.backend == other.backend && place.number ≤ other.number)

/-- What can be seen, and the network with nothing new to be seen. -/
def observe (network : Network) (result : ActionResult) : NetworkReport × Network :=
  let noticed := network.links.map fun link => (link.place, link.notice)
  let received := (noticed.mergeSort fun a b => precedes a.1 b.1).flatMap
    fun (place, receipts, _) => receipts.map fun receipt => (place, receipt)
  let dials := network.notices.filterMap fun
    | .dialled backend time answer => some { backend, time, answer : DialReport }
    | _ => none
  ({ result
     now := network.now
     completed := network.notices.filterMap fun
       | .completed name completion => some (name, completion)
       | _ => none
     dials := dials.mergeSort fun a b => a.backend ≤ b.backend
     replies := network.notices.filterMap fun
       | .replied session message => some (session, message)
       | _ => none
     received
     sessions := network.sessions.entries.map fun (name, session) => (name, session.ended)
     pools := network.stations.entries.map fun (backend, station) =>
       { backend, stats := station.pool.stats, closed := station.pool.closed }
     held := network.held.entries.filterMap fun (name, hold) =>
       (network.client? hold.place).map fun client =>
         { name, isIdle := client.isIdle, ending := client.ending } },
    { network with links := noticed.map fun (_, _, link) => link, notices := [] })

/-- The report of the network as it begins, and one for each action. -/
def reports (network : Network) (actions : List Action) : List NetworkReport :=
  let (first, network) := network.settle.observe .nothing
  first :: go network actions
where
  /-- The reports of the actions from here on. -/
  go (network : Network) : List Action → List NetworkReport
    | [] => []
    | action :: rest =>
      let (result, network) := network.step action
      let (report, network) := network.observe result
      report :: go network rest

/-- A network of backends, each with its name, the size of its pool, and its script. A backend that
is named again takes the place of the one before.
-/
def ofBackends (backends : List (String × Nat × List DialAnswer)) (patience : Nat) : Network where
  patience := patience
  stations := .ofList <| backends.map fun (id, size, script) =>
    (id, { pool := .create (id ++ ":1") size, script })

end Network

end SourceView
