import SourceView.Connection.Pipe
import SourceView.Message.Backend

/-! Clients: this program's side of a connection to a backend.
A client asks one query at a time and reads the answer message by message. A client that has met
a fault or was closed is dead, and stays so.
-/

namespace SourceView

/-! ### Errors -/

/-- Why no message came of reading from a connection or writing to it. -/
inductive CodecError where
  /-- A line is no message, or could not be written. -/
  | line (cause : MessageError)
  /-- The connection has broken for this cause before there was a line. -/
  | broken (cause : String)
  deriving DecidableEq, Repr

/-- The text that tells why no message came of reading or writing. -/
def CodecError.message : CodecError → String
  | line cause => cause.message
  | broken cause => "IO error: " ++ cause

/-- Read a line from a backend. -/
def BackendMessage.decode (text : List UInt8) : Except CodecError BackendMessage :=
  (registry.decode text).mapError .line

/-- What makes a connection unusable. -/
inductive Fault where
  /-- A message could not be read or written. -/
  | codec (cause : CodecError)
  | disconnected
  /-- A message that has no place here. -/
  | unexpected (opcode : String)
  deriving DecidableEq, Repr

/-- The text that tells of a fault. -/
def Fault.message : Fault → String
  | codec cause => "backend protocol error: " ++ cause.message
  | disconnected => "backend closed the connection"
  | unexpected opcode => "unexpected " ++ opcode ++ " message from backend"

/-- Why a client is dead. -/
inductive Ending where
  | byOwner
  | byFault (fault : Fault)
  deriving DecidableEq, Repr

/-- The text that tells why a client is dead. -/
def Ending.message : Ending → String
  | byOwner => "closed"
  | byFault fault => fault.message

/-- Why a client could not do what it was asked to. -/
inductive ClientError where
  | handshakeTimeout
  | fault (cause : Fault)
  /-- The query before has not been answered. -/
  | busy
  /-- There is no query to be answered. -/
  | idle
  | closed (ending : Ending)
  /-- The backend refused the query. -/
  | rejected (text : String)
  deriving DecidableEq, Repr

/-- The text that tells of a client's failure. -/
def ClientError.message : ClientError → String
  | handshakeTimeout => "backend did not complete the handshake in time"
  | fault cause => cause.message
  | busy => "a query is already in flight on this connection"
  | idle => "no query in flight on this connection"
  | closed ending => "connection is closed: " ++ ending.message
  | rejected text => "query failed: " ++ text

/-! ### Clients -/

/-- A part of the answer to a query. -/
inductive QueryEvent where
  | result (found : Match)
  /-- The end of the answer. -/
  | done (stats : Stats)
  /-- The backend refused the query, which ends the answer too. -/
  | failed (text : String)
  deriving DecidableEq, Repr

/-- The whole answer to a query. -/
structure SearchOutcome where
  results : List Match
  stats : Stats
  deriving DecidableEq, Repr

/-- A connection to a backend that has sent its greeting. -/
structure Client where
  greeting : Greeting
  pipe : Pipe
  /-- A query was sent, and the end of its answer has not been read. -/
  inFlight : Bool := false
  /-- Why the client is dead, if it is. -/
  ending : Option Ending := none
  deriving DecidableEq

namespace Client

/-- How long a backend may take to send its greeting, in milliseconds. -/
def handshakeTimeout : Nat := 10000

/-- Read the greeting that the first line of a connection has to be, if it has arrived. -/
def handshake? (pipe : Pipe) : Option (Except Fault Client) :=
  match pipe.receive with
  | (.awaited, _) => none
  | (.ended, _) => some (.error .disconnected)
  | (.failed cause, _) => some (.error (.codec (.broken cause)))
  | (.line text _, pipe) =>
    match BackendMessage.decode text with
    | .error cause => some (.error (.codec cause))
    | .ok (.info greeting) => some (.ok { greeting, pipe })
    | .ok other => some (.error (.unexpected other.opcode))

/-- The client is alive and has no query to be answered. -/
def isIdle (client : Client) : Bool :=
  client.ending.isNone && !client.inFlight

/-- Close the connection. A client that is dead keeps the reason for it. -/
def close (client : Client) : Client :=
  { client with
    pipe := client.pipe.close
    ending := some (client.ending.getD .byOwner) }

/-- Close the connection for a fault. -/
def fail (client : Client) (fault : Fault) : Client :=
  { client with
    pipe := client.pipe.close
    inFlight := false
    ending := some (.byFault fault) }

/-- Send a query. -/
def ask (client : Client) (query : Query) : Except ClientError Unit × Client :=
  match client.ending with
  | some ending => (.error (.closed ending), client)
  | none =>
    if client.inFlight then (.error .busy, client)
    else
      match client.pipe.write? query.envelope.line with
      | none =>
        let fault := Fault.codec (.line .brokenPipe)
        (.error (.fault fault), client.fail fault)
      | some pipe => (.ok (), { client with pipe, inFlight := true })

/-- Take a message that the backend sent in answer to a query. -/
def take (client : Client) (message : Except CodecError BackendMessage)
    : Except ClientError QueryEvent × Client :=
  match message with
  | .error cause => (.error (.fault (.codec cause)), client.fail (.codec cause))
  | .ok (.result found) => (.ok (.result found), client)
  | .ok (.stats stats) => (.ok (.done stats), { client with inFlight := false })
  | .ok (.error text) => (.ok (.failed text), { client with inFlight := false })
  | .ok other =>
    (.error (.fault (.unexpected other.opcode)), client.fail (.unexpected other.opcode))

/-- Read the next part of the answer, if it has arrived. -/
def nextEvent? (client : Client) : Option (Except ClientError QueryEvent × Client) :=
  match client.ending with
  | some ending => some (.error (.closed ending), client)
  | none =>
    if !client.inFlight then some (.error .idle, client)
    else
      match client.pipe.receive with
      | (.awaited, _) => none
      | (.ended, _) => some (.error (.fault .disconnected), client.fail .disconnected)
      | (.failed cause, pipe) => some ({ client with pipe }.take (.error (.broken cause)))
      | (.line text _, pipe) =>
        some ({ client with pipe }.take (BackendMessage.decode text))

/-- A client that takes a match has left its pipe alone, by cases on the message. -/
theorem pipe_take {client : Client} {message : Except CodecError BackendMessage}
    {found : Match} (h : (client.take message).1 = .ok (.result found))
    : (client.take message).2.pipe = client.pipe := by
  rcases message with cause | message
  · cases h
  · cases message with
    | result | stats | error => rfl
    | info | query => cases h

/-- Reading a match leaves less to read. -/
theorem length_nextEvent?_lt {client after : Client} {found : Match}
    (h : client.nextEvent? = some (.ok (.result found), after))
    : after.pipe.inbound.length < client.pipe.inbound.length := by
  unfold nextEvent? at h
  split at h
  · simp at h
  · split at h
    · simp at h
    · split at h
      · simp at h
      · simp at h
      · simp [take] at h
      · next text rest pipe received =>
          have shorter : pipe.inbound.length < client.pipe.inbound.length := by
            have first : client.pipe.receive.1 = .line text rest := by rw [received]
            simpa [received] using Pipe.length_receive_lt first
          simp only [Option.some.injEq] at h
          have event := congrArg Prod.fst h
          have moved := congrArg Prod.snd h
          simp only at event moved
          rw [← moved, pipe_take event]
          exact shorter

/-- What is known of the answer to a query so far. -/
inductive Progress where
  /-- More has to arrive after these matches. -/
  | awaited (found : List Match)
  | finished (outcome : Except ClientError SearchOutcome)

/-- Read as much of the answer as has arrived, after the matches in `found`. -/
def collect (found : List Match) (client : Client) : Progress × Client :=
  match _h : client.nextEvent? with
  | none => (.awaited found, client)
  | some (.error error, after) => (.finished (.error error), after)
  | some (.ok (.result more), after) => collect (found ++ [more]) after
  | some (.ok (.done stats), after) => (.finished (.ok { results := found, stats }), after)
  | some (.ok (.failed text), after) => (.finished (.error (.rejected text)), after)
termination_by client.pipe.inbound.length
decreasing_by exact length_nextEvent?_lt ‹_›

/-- Send a query and read as much of the answer as has arrived. -/
def search (client : Client) (query : Query) : Progress × Client :=
  match client.ask query with
  | (.error error, client) => (.finished (.error error), client)
  | (.ok (), client) => client.collect []

end Client

end SourceView
