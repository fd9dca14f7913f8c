import SourceView.Connection.Client
import SourceView.Message.Browser
import SourceView.Pool.Basic

/-! Sessions: the searches of one browser.
A session runs one search at a time. A search that arrives while another one runs waits, and makes
the running one stale: the answer to a stale search is read to its end but not passed on. A search
whose backend breaks off is started anew, unless a later one waits.

A session is a machine. It handles one input at a time, and answers with its next state and what
has to be done, in order.
-/

namespace SourceView

/-- The search that a session runs. Clients go by names from `κ`. -/
structure RunningSearch (κ : Type) where
  request : SearchRequest
  /-- The backend whose pool serves the search. -/
  backend : String
  /-- The client that was asked, once the pool has granted one. -/
  client : Option κ := none
  /-- When the search was started, in milliseconds. -/
  started : Nat
  /-- A later search has arrived. -/
  stale : Bool := false

/-- The searches of one browser. -/
structure Session (κ : Type) where
  running : Option (RunningSearch κ) := none
  /-- The search that comes next. -/
  pending : Option SearchRequest := none
  /-- The search that was started last. A search that repeats it is ignored. -/
  last : Option SearchRequest := none
  /-- Nobody reads the replies any more. -/
  deaf : Bool := false
  ended : Bool := false

namespace Session

/-- What can happen to a session. -/
inductive Input (κ : Type) where
  /-- The browser has sent a message. -/
  | frame (text : List UInt8)
  /-- The browser has closed the session. -/
  | left
  | deafened
  /-- The pool has granted a client. -/
  | granted (client : κ)
  /-- The pool has turned the session away. -/
  | refused (cause : PoolError)
  /-- The client has read a part of the answer, or has failed. -/
  | event (outcome : Except ClientError QueryEvent)

/-- What a session wants done. -/
inductive Effect (κ : Type) where
  /-- Send a message to the browser. -/
  | reply (message : BrowserMessage)
  /-- Send a query. If that fails, the failure comes back as an event. -/
  | ask (client : κ) (query : Query)
  /-- Give a client back to its pool. -/
  | release (backend : String) (client : κ)
  /-- Close a client. -/
  | close (client : κ)

/-- The session after an input, and what it wants done. -/
structure Turn (κ : Type) where
  session : Session κ
  effects : List (Effect κ) := []

/-- The world that a session finds itself in: the time, and the names of the backends. -/
structure Setting where
  now : Nat
  /-- The backend that goes by a name. -/
  resolve : String → Except PoolError String

variable {κ : Type}

/-- The backend whose pool the session waits for. -/
def waitsFor? (session : Session κ) : Option String :=
  match session.running with
  | some { client := none, backend, .. } => some backend
  | _ => none

/-- The client that the session holds, with the backend whose pool it came from. -/
def holds? (session : Session κ) : Option (String × κ) :=
  match session.running with
  | some { client := some client, backend, .. } => some (backend, client)
  | _ => none

/-! ### Parts of a turn -/

/-- Do something before the rest of a turn. -/
def Turn.after (effects : List (Effect κ)) (turn : Turn κ) : Turn κ :=
  { turn with effects := effects ++ turn.effects }

/-- End the session. A client that it holds is closed before it goes back to its pool. -/
def shutDown (session : Session κ) : Turn κ where
  session := { session with running := none, ended := true }
  effects :=
    match session.holds? with
    | some (backend, client) => [.close client, .release backend client]
    | none => []

/-- Send a message to the browser before the rest of a turn. A session that nobody listens to ends
there.
-/
def replying (session : Session κ) (message : BrowserMessage) (rest : Turn κ) : Turn κ :=
  if session.deaf then session.shutDown else rest.after [.reply message]

/-- Start a search. -/
def start (setting : Setting) (session : Session κ) (request : SearchRequest) : Turn κ :=
  match setting.resolve request.backend with
  | .error cause => session.replying (.queryError request.id cause.message) { session }
  | .ok backend =>
    { session := {
        session with
        last := some request
        running := some { request, backend, started := setting.now } } }

/-- Start the search that waits, if there is one. -/
def startPending (setting : Setting) (session : Session κ) : Turn κ :=
  match session.pending with
  | some request => start setting { session with pending := none } request
  | none => { session }

/-- What gives the running search's client back to its pool. -/
def releasing (session : Session κ) : List (Effect κ) :=
  match session.holds? with
  | some (backend, client) => [.release backend client]
  | none => []

/-- Give up the running search because its backend has broken off. It is started anew, unless a
later search waits.
-/
def requeue (setting : Setting) (session : Session κ) : Turn κ :=
  match session.running with
  | none => { session }
  | some running =>
    let rest :=
      match session.pending with
      | some _ => { session with running := none }
      | none => { session with running := none, pending := some running.request, last := none }
    (startPending setting rest).after session.releasing

/-! ### Inputs -/

/-- A search has arrived. -/
def handleRequest (setting : Setting) (session : Session κ) (request : SearchRequest) : Turn κ :=
  match session.running with
  | some running =>
    { session := {
        session with
        running := some { running with stale := true }
        pending := some request } }
  | none =>
    if request.isNew session.last then start setting session request else { session }

/-- A message has arrived from the browser. -/
def handleFrame (setting : Setting) (session : Session κ) (text : List UInt8) : Turn κ :=
  match BrowserMessage.registry.decode text with
  | .ok (.query request) => handleRequest setting session request
  | .ok other => session.replying (.error ("unexpected opcode: " ++ other.opcode)) { session }
  | .error cause => session.replying (.error cause.message) { session }

/-- The pool has granted a client. A stale search has no more use for it. -/
def handleGrant (setting : Setting) (session : Session κ) (client : κ) : Turn κ :=
  match session.running with
  | none => { session }
  | some running =>
    if running.stale then
      (startPending setting { session with running := none }).after
        [.release running.backend client]
    else
      { session := { session with running := some { running with client := some client } }
        effects := [.ask client running.request.query] }

/-- The pool has turned the session away. -/
def handleRefusal (setting : Setting) (session : Session κ) (cause : PoolError) : Turn κ :=
  match session.running with
  | none => { session }
  | some running =>
    let session := { session with running := none }
    let rest := startPending setting session
    if running.stale then rest
    else session.replying (.queryError running.request.id cause.message) rest

/-- A part of the answer to the running search has arrived, or its client has failed. -/
def handleEvent (setting : Setting) (session : Session κ)
    (outcome : Except ClientError QueryEvent) : Turn κ :=
  match session.running with
  | none => { session }
  | some running =>
    let id := running.request.id
    match outcome with
    | .error _ => requeue setting session
    | .ok (.result found) =>
      if running.stale then { session } else session.replying (.result id found) { session }
    | .ok (.done stats) =>
      let idle := { session with running := none }
      let rest := startPending setting idle
      let time := UInt64.ofNat (setting.now - running.started)
      (if running.stale then rest else idle.replying (.searchDone id time stats) rest).after
        session.releasing
    | .ok (.failed text) =>
      let idle := { session with running := none }
      let rest := startPending setting idle
      (if running.stale then rest else idle.replying (.queryError id text) rest).after
        session.releasing

/-- Handle one input. A session that has ended handles no more. -/
def handle (setting : Setting) (session : Session κ) (input : Input κ) : Turn κ :=
  if session.ended then { session }
  else
    match input with
    | .frame text => handleFrame setting session text
    | .left => session.shutDown
    | .deafened => { session := { session with deaf := true } }
    | .granted client => handleGrant setting session client
    | .refused cause => handleRefusal setting session cause
    | .event outcome => handleEvent setting session outcome

end Session

end SourceView
