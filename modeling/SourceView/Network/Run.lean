import SourceView.Network.Basic

/-! How a network moves.
Everyone in it is a task: each supervisor, and each one who waits for a client or holds one. A move
of a task is a function that has no value where the task can do nothing. Tasks take their turns in
the order in which they became able to move, and a turn lasts for as long as the task can move. The
clock moves from one timer to the next, and only when no task can move.
-/

namespace SourceView

namespace Network

/-! ### Supervisors -/

/-- An attempt to dial has failed after a connection was opened. -/
def rejectLink (network : Network) (id : String) (place : Place) : Network :=
  (network.closeLink place).modifyStation id fun station =>
    { station with greeting := none, pool := station.pool.dialFailed network.now }

/-- A supervisor reads the first line of the connection that it has opened. -/
def greet? (network : Network) (id : String) : Option Network := do
  let station ← network.stations.get? id
  let (place, _) ← station.greeting
  let link ← network.link? place
  match ← Client.handshake? link.pipe with
  | .error _ => return network.rejectLink id place
  | .ok client =>
    let (kept, pool) := station.pool.dialled place client.greeting.offer
    let network := (network.setClient place client).modifyStation id fun station =>
      { station with greeting := none, pool }
    return if kept then network else network.closeLink place

/-- The next answer of a backend's script. A backend whose script is at its end accepts every
attempt to connect.
-/
def nextAnswer : List DialAnswer → DialAnswer × List DialAnswer
  | [] =>
    let hello := BackendMessage.envelope (.info { name := "extra" })
    (.accept hello.line false, [])
  | answer :: script => (answer, script)

/-- A supervisor makes an attempt to connect. -/
def dial (network : Network) (id : String) (station : Station) : Network :=
  let (answer, script) := nextAnswer station.script
  let network := network.note (.dialled id network.now answer)
  match answer with
  | .refuse =>
    network.modifyStation id fun _ =>
      { station with script, pool := station.pool.dialFailed network.now }
  | .hang => network.modifyStation id fun _ => { station with script }
  | .accept hello hangsUp =>
    let (place, network) := network.openLink id hello hangsUp
    network.modifyStation id fun _ =>
      { station with script, greeting := some (place, network.now) }

/-- A supervisor takes a token and makes an attempt to connect. -/
def dial? (network : Network) (id : String) : Option Network := do
  let station ← network.stations.get? id
  let pool ← station.pool.startDial?
  return network.dial id { station with pool }

/-- A supervisor has waited long enough after a failure and makes another attempt. -/
def redial? (network : Network) (id : String) : Option Network := do
  let station ← network.stations.get? id
  let pool ← station.pool.redial? network.now
  return network.dial id { station with pool }

/-- A supervisor has waited too long for a greeting. -/
def giveUp? (network : Network) (id : String) : Option Network := do
  let station ← network.stations.get? id
  let (place, since) ← station.greeting
  if since + Client.handshakeTimeout ≤ network.now then
    return network.rejectLink id place
  else none

/-- A move of a supervisor. -/
def supervise? (network : Network) (id : String) : Option Network :=
  network.greet? id <|> network.dial? id <|> network.redial? id <|> network.giveUp? id

/-! ### Those who use clients -/

/-- One who asked is told that the query could not be sent. -/
def returnUnsent? (network : Network) (ticket : Ticket) : Option Network :=
  match network.unsent with
  | [] => none
  | (asker, cause) :: unsent =>
    if asker = ticket then some ({ network with unsent }.report (.error cause) ticket) else none

/-- A pool that is closed turns away the one who has waited longest. -/
def refuse? (network : Network) (ticket : Ticket) : Option Network :=
  network.stations.entries.findSome? fun (id, station) => do
    let (first, pool) ← station.pool.refuse?
    if first = ticket then
      return (network.modifyPool id fun _ => pool).turnAway .closed ticket
    else none

/-- A pool grants a client to the one who has waited longest. -/
def grant? (network : Network) (ticket : Ticket) : Option Network :=
  network.stations.entries.findSome? fun (id, station) => do
    let (first, client, pool) ← station.pool.grant?
    if first = ticket then
      return (network.modifyPool id fun _ => pool).deliver client ticket
    else none

/-- The client that a ticket's owner has asked. -/
def asked? (network : Network) : Ticket → Option Place
  | .caller _ => none
  | .session name => (network.sessions.get? name).bind fun session => session.holds?.map Prod.snd
  | .search name => (network.searches.get? name).bind PageSearch.client

/-- A client reads a part of an answer for the one who asked it. -/
def read? (network : Network) (ticket : Ticket) : Option Network := do
  let place ← network.asked? ticket
  let client ← network.client? place
  let (outcome, client) ← client.nextEvent?
  return (network.setClient place client).report outcome ticket

/-- A search has waited too long. -/
def expire? (network : Network) : Ticket → Option Network
  | .search name => do
    let search ← network.searches.get? name
    if search.due ≤ network.now then return network.feedSearch name .expired else none
  | _ => none

/-- A move of one who uses clients. -/
def use? (network : Network) (ticket : Ticket) : Option Network :=
  network.returnUnsent? ticket
    <|> network.refuse? ticket
    <|> network.grant? ticket
    <|> network.read? ticket
    <|> network.expire? ticket

/-! ### Tasks -/

/-- One who moves. -/
inductive Task where
  | supervisor (backend : String)
  | user (ticket : Ticket)
  deriving DecidableEq, Repr

/-- A move of a task. -/
def move? (network : Network) : Task → Option Network
  | .supervisor id => network.supervise? id
  | .user ticket => network.use? ticket

/-- Everyone who may be able to move. -/
def tasks (network : Network) : List Task :=
  let waiting := network.stations.entries.flatMap fun (_, station) => station.pool.waiting
  let callers := waiting.filter fun
    | .caller _ => true
    | _ => false
  network.stations.ids.map .supervisor
    ++ callers.map .user
    ++ network.sessions.entries.map (fun entry => .user (.session entry.1))
    ++ network.searches.entries.map fun entry => .user (.search entry.1)

/-- Everyone who can move. -/
def movable (network : Network) : List Task :=
  network.tasks.filter fun task => (network.move? task).isSome

/-! ### Timers -/

/-- A timer, and the task that can move when it runs out. -/
structure Timer where
  since : Nat
  due : Nat
  task : Task
  deriving DecidableEq, Repr

/-- A timer is noticed before another one: it is due earlier, or is due at the same time and has
run for longer.
-/
def Timer.precedes (timer other : Timer) : Bool :=
  timer.due < other.due || (timer.due == other.due && timer.since ≤ other.since)

/-- The timers of a station. -/
def stationTimers (id : String) (station : Station) : List Timer :=
  let delay := match station.pool.supervisor with
    | .backingOff since due => [{ since, due, task := .supervisor id }]
    | _ => []
  let greeting := station.greeting.toList.map fun (_, since) =>
    { since, due := since + Client.handshakeTimeout, task := .supervisor id }
  delay ++ greeting

/-- Every timer that runs. -/
def timers (network : Network) : List Timer :=
  network.stations.entries.flatMap (fun (id, station) => stationTimers id station)
    ++ network.searches.entries.map fun (name, search) =>
      { since := search.due - search.patience, due := search.due, task := .user (.search name) }

/-- The time at which the next timer runs out, if that is by a limit. -/
def nextDue? (network : Network) (limit : Nat) : Option Nat :=
  ((network.timers.map Timer.due).filter (· ≤ limit)).min?

/-- The tasks whose timers have run out, in order. -/
def awakened (network : Network) : List Task :=
  ((network.timers.filter fun timer => timer.due ≤ network.now).mergeSort Timer.precedes).map
    Timer.task

/-! ### Bounds -/

/-- The bytes that have not been read. -/
def unreadBytes (network : Network) : Nat :=
  network.links.foldr (·.pipe.inbound.length + ·) 0

/-- The bytes and answers that are still to come of a script. -/
def scriptSize : List DialAnswer → Nat
  | [] => 0
  | .accept hello _ :: rest => hello.length + 1 + scriptSize rest
  | _ :: rest => 1 + scriptSize rest

/-- A bound on the number of moves until nothing can happen. Every byte is read once, every
connection is opened, granted and lost a bounded number of times, and everyone who waits is served
or turned away.
-/
def moveBound (network : Network) : Nat :=
  let stations := network.stations.entries.foldr (fun (_, station) total =>
    station.pool.size + station.pool.waiting.length + scriptSize station.script + total) 0
  let users := network.sessions.entries.length + network.searches.entries.length
    + network.unsent.length
  64 + network.unreadBytes + 32 * (stations + network.links.length + users)

/-! ### Runs -/

/-- Run until nothing can happen up to a time, for a number of steps at most. The tasks in `queue`
became able to move in this order, and the first of them has its turn.
-/
def runFor : Nat → Nat → List Task → Network → Network
  | 0, _, _, network => network
  | fuel + 1, limit, queue, network =>
    match queue ++ network.movable.filter (!queue.contains ·) with
    | task :: rest =>
      match network.move? task with
      | some network => runFor fuel limit (task :: rest) network
      | none => runFor fuel limit rest network
    | [] =>
      match network.nextDue? limit with
      | some due =>
        let network := { network with now := max network.now due }
        runFor fuel limit network.awakened network
      | none => { network with now := max network.now limit }

/-- Run until nothing can happen up to a time. -/
def runUntil (network : Network) (limit : Nat) : Network :=
  runFor network.moveBound limit [] network

/-- Run until nothing can happen without the clock. -/
def settle (network : Network) : Network :=
  network.runUntil network.now

end Network

end SourceView
