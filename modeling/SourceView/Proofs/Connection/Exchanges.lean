import SourceView.Proofs.Connection.Conversation
import SourceView.Proofs.Connection.Greetings

/-! What the owner of a client asks and is told.
Whatever a backend writes, and however it is cut when it arrives, the owner is told of its lines in
order, each of them once, and of a fault only behind everything that stands before it.
-/

namespace SourceView

-----------------------------------------------------------------------------------------
-- Messages
-----------------------------------------------------------------------------------------

/-- What a line was read as, or why there was none to be read. -/
abbrev Incoming : Type := Except CodecError BackendMessage

/-- What a reader takes that finds this. -/
def Arrival.incoming? : Arrival → Option Incoming
  | line text _ => some (BackendMessage.decode text)
  | failed cause => some (.error (.broken cause))
  | awaited | ended => none

/-- What a reader takes at the end of a stream that stands so. -/
def Flow.failure (flow : Flow) : List Incoming :=
  flow.arrival.incoming?.toList

/-- What there is to be taken from a pipe: the messages of all lines, and the failure behind them.
-/
def Pipe.incoming (pipe : Pipe) : List Incoming :=
  (Arrival.lines pipe.flow pipe.inbound).map BackendMessage.decode ++ pipe.flow.failure

/-- What a client tells of a message. -/
def Incoming.told : Incoming → Except ClientError QueryEvent
  | .error cause => .error (.fault (.codec cause))
  | .ok (.result found) => .ok (.result found)
  | .ok (.stats stats) => .ok (.done stats)
  | .ok (.error text) => .ok (.failed text)
  | .ok other => .error (.fault (.unexpected other.opcode))

/-- What the owner of a client may expect of it. -/
inductive Phase where
  /-- A query can be sent. -/
  | idle
  /-- A query was sent, and the end of its answer has not been told. -/
  | busy
  | dead (ending : Ending)
  deriving DecidableEq

/-- Something that happens on a connection. -/
inductive Exchange where
  | served (deed : Deed)
  /-- The owner has sent a query, or tried to. -/
  | asked (query : Query) (answer : Except ClientError Unit)
  /-- The owner has given up sending a query when this many bytes of its line were written. -/
  | begun (query : Query) (count : Nat)
  /-- The owner has read on and was told something, for which a message was taken or not. -/
  | told (taken : Option Incoming) (outcome : Except ClientError QueryEvent)
  /-- The owner has tried to read on, and has given up before there was an answer. -/
  | gaveUp

namespace Exchange

/-- What the backend has written. -/
def written (history : List Exchange) : List UInt8 :=
  history.flatMap fun
    | served deed => deed.bytes
    | _ => []

/-- How a stream stands after all this that was running before. -/
def flow (history : List Exchange) : Flow :=
  history.foldl (fun flow exchange =>
    match exchange with
    | served deed => flow.or deed.flow
    | _ => flow) .running

/-- The messages that were taken. -/
def taken (history : List Exchange) : List Incoming :=
  history.flatMap fun
    | told taken _ => taken.toList
    | _ => []

/-- The messages behind the greeting, of all that stood in a pipe and was written since. If the
connection has broken, the failure stands behind them.
-/
def messages (pipe : Pipe) (history : List Exchange) : List Incoming :=
  ((Arrival.lines (pipe.flow.or (flow history)) (pipe.inbound ++ written history)).drop 1).map
      BackendMessage.decode
    ++ (pipe.flow.or (flow history)).failure

end Exchange

namespace Phase

/-- What the owner may expect next. -/
def after (phase : Phase) : Exchange → Phase
  | .asked _ (.ok ()) => .busy
  | .asked _ (.error (.fault fault)) | .told _ (.error (.fault fault)) => .dead (.byFault fault)
  | .told _ (.ok (.done _)) | .told _ (.ok (.failed _)) => .idle
  | .asked _ _ | .told _ _ | .served _ | .begun _ _ | .gaveUp => phase

/-- What the owner may expect after all this, when the client has been idle before. -/
def afterAll (history : List Exchange) : Phase :=
  history.foldl after idle

end Phase

namespace Exchange

/-- What happens next on a connection that was greeted when this stood in its pipe, is as it has to
be.
-/
inductive Fits (pipe : Pipe) (before : List Exchange) : Exchange → Prop
  | served (deed : Deed) : Fits pipe before (.served deed)
  | gaveUp : Fits pipe before .gaveUp
  -- Asking
  | sent (query : Query) (phase : Phase.afterAll before = .idle)
    : Fits pipe before (.asked query (.ok ()))
  | unsent (query : Query) (phase : Phase.afterAll before = .idle)
    : Fits pipe before (.asked query (.error (.fault (.codec (.line .brokenPipe)))))
  | askedBusy (query : Query) (phase : Phase.afterAll before = .busy)
    : Fits pipe before (.asked query (.error .busy))
  | askedDead {ending : Ending} (query : Query) (phase : Phase.afterAll before = .dead ending)
    : Fits pipe before (.asked query (.error (.closed ending)))
  | begun (query : Query) (count : Nat) (phase : Phase.afterAll before = .idle)
    : Fits pipe before (.begun query count)
  -- Reading on
  | told {message : Incoming} (phase : Phase.afterAll before = .busy)
    (next : (messages pipe before)[(taken before).length]? = some message)
    : Fits pipe before (.told (some message) message.told)
  | ended (phase : Phase.afterAll before = .busy)
    (finished : pipe.flow.or (flow before) = .finished)
    (all : taken before = messages pipe before)
    : Fits pipe before (.told none (.error (.fault .disconnected)))
  | unasked (phase : Phase.afterAll before = .idle)
    : Fits pipe before (.told none (.error .idle))
  | toldDead {ending : Ending} (phase : Phase.afterAll before = .dead ending)
    : Fits pipe before (.told none (.error (.closed ending)))

/-- The owner of a client that was greeted when this stood in its pipe, was told of all messages
behind the greeting in order, and of nothing else.
-/
structure Faithful (pipe : Pipe) (history : List Exchange) : Prop where
  inOrder
    : ∀ before after, history = before ++ after → taken before <+: messages pipe before
  fits
    : ∀ before exchange after,
        history = before ++ exchange :: after → Fits pipe before exchange

variable {pipe : Pipe} {history : List Exchange} {exchange : Exchange}

/-- What is written is written one thing after the other. -/
theorem written_concat (history : List Exchange) (exchange : Exchange)
    : written (history ++ [exchange]) = written history ++ written [exchange] :=
  List.flatMap_append

/-- Only what the backend does changes how the stream stands. -/
theorem flow_concat (history : List Exchange) (exchange : Exchange)
    : flow (history ++ [exchange]) = (flow history).or (flow [exchange]) := by
  rw [flow, List.foldl_append, ← flow]
  cases exchange with
  | served deed => rfl
  | asked | begun | told | gaveUp => exact (Flow.or_running _).symm

/-- What is taken is taken one message after the other. -/
theorem taken_concat (history : List Exchange) (exchange : Exchange)
    : taken (history ++ [exchange]) = taken history ++ taken [exchange] :=
  List.flatMap_append

/-- What the owner may expect follows from what happened last. -/
theorem afterAll_concat (history : List Exchange) (exchange : Exchange)
    : Phase.afterAll (history ++ [exchange]) = (Phase.afterAll history).after exchange := by
  rw [Phase.afterAll, List.foldl_append, Phase.afterAll, List.foldl_cons, List.foldl_nil]

/-- An owner who was told nothing was told nothing wrong. -/
theorem faithful_nil (pipe : Pipe) : Faithful pipe [] where
  inOrder := by
    intro before after split
    obtain ⟨rfl, rfl⟩ := List.append_eq_nil_iff.mp split.symm
    exact List.nil_prefix
  fits := by simp

/-- An owner goes on being told faithfully if what happens next is as it has to be. -/
theorem Faithful.concat (faithful : Faithful pipe history) (fits : Fits pipe history exchange)
    (inOrder : taken (history ++ [exchange]) <+: messages pipe (history ++ [exchange]))
    : Faithful pipe (history ++ [exchange]) where
  inOrder := by
    intro before after split
    rcases List.eq_nil_or_concat after with rfl | ⟨front, last, rfl⟩
    · rw [List.append_nil] at split
      exact split ▸ inOrder
    · rw [List.concat_eq_append, ← List.append_assoc] at split
      exact faithful.inOrder before front (List.append_inj_left' split rfl)
  fits := by
    intro before other after split
    rcases List.eq_nil_or_concat after with rfl | ⟨front, last, rfl⟩
    · obtain ⟨rfl, same⟩ := List.append_inj' split rfl
      cases same
      exact fits
    · rw [List.concat_eq_append, ← List.cons_append, ← List.append_assoc] at split
      exact faithful.fits before other front (List.append_inj_left' split rfl)

end Exchange

/-- What is received is what stands at the front of the pipe. -/
theorem Pipe.fst_receive (pipe : Pipe)
    : pipe.receive.1 = Arrival.of pipe.flow pipe.inbound := by
  unfold receive
  split
  · next text rest arrived => exact arrived.symm
  · rfl

/-- A line that stands at the front of a pipe is received. -/
theorem Pipe.receive_of_line {pipe : Pipe} {text rest : List UInt8}
    (arrived : Arrival.of pipe.flow pipe.inbound = .line text rest)
    : pipe.receive = (.line text rest, { pipe with inbound := rest }) := by
  rw [receive, arrived]

/-- A reader who finds no line leaves the pipe as it is. -/
theorem Pipe.receive_of_arrival {pipe : Pipe} (flow : Flow)
    (arrived : Arrival.of pipe.flow pipe.inbound = flow.arrival)
    : pipe.receive = (flow.arrival, pipe) := by
  unfold receive
  rw [arrived]
  cases flow <;> rfl

/-- Where no line is found, there is nothing left to be taken but a failure. -/
theorem Pipe.incoming_of_arrival {pipe : Pipe} (flow : Flow)
    (arrived : Arrival.of pipe.flow pipe.inbound = flow.arrival)
    : pipe.incoming = flow.failure := by
  obtain ⟨same, nothing⟩ := Arrival.lines_of_arrival flow arrived
  rw [incoming, nothing, same]
  rfl

/-- The line of a message arrives as a whole. -/
theorem BackendMessage.of_line (message : BackendMessage) (flow : Flow) (rest : List UInt8)
    : Arrival.of flow (message.envelope.line ++ rest) = .line message.envelope.line rest :=
  Arrival.of_solid
    (Text.cutLine?_ended_append (Envelope.unbroken_render (faithful.tame message)) _)
    (Registry.solid_line _)

/-- A client is greeted by the line of a greeting, whatever stands behind it. -/
theorem Client.handshake?_of_line (greeting : Greeting) (rest : List UInt8)
    : handshake? { inbound := (BackendMessage.info greeting).envelope.line ++ rest }
      = some (.ok { greeting, pipe := { inbound := rest } }) := by
  have decoded : BackendMessage.decode (BackendMessage.info greeting).envelope.line
      = .ok (.info greeting) :=
    BackendMessage.decode_line (.info greeting)
  rw [handshake?, Pipe.receive, BackendMessage.of_line]
  dsimp only
  rw [decoded]

/-- What was read of a pipe does not depend on anything else that happens to it. -/
theorem Pipe.HasRead.of_same {pipe after : Pipe} {stream : List UInt8} {taken : List (List UInt8)}
    (read : pipe.HasRead stream taken) (inbound : after.inbound = pipe.inbound)
    (flow : after.flow = pipe.flow)
    : after.HasRead stream taken := by
  rw [HasRead, inbound, flow]
  exact read

/-- What a stream brings to a reader who takes what stands first in it, and what it leaves. -/
inductive Arrival.Brings (flow : Flow) (stream : List UInt8) : Incoming → List UInt8 → Prop
  | line {text rest} (arrived : of flow stream = .line text rest)
    : Brings flow stream (BackendMessage.decode text) rest
  | failed {cause} (arrived : of flow stream = .failed cause)
    : Brings flow stream (.error (.broken cause)) stream

-----------------------------------------------------------------------------------------
-- Clients that read on when they are told to
-----------------------------------------------------------------------------------------

namespace Client

/-- What the owner of a client may expect of it. -/
def phase (client : Client) : Phase :=
  match client.ending with
  | some ending => .dead ending
  | none => if client.inFlight then .busy else .idle

/-- The message that is taken when the owner reads on, if there is one. -/
def front? (client : Client) : Option Incoming :=
  match client.phase with
  | .busy => client.pipe.receive.1.incoming?
  | .idle | .dead _ => none

/-- A client with this to be read. -/
def leaving (client : Client) (inbound : List UInt8) : Client :=
  { client with pipe := { client.pipe with inbound } }

/-- Send the first bytes of a query's line, and give up. The client does not take note of it. -/
def begin? (client : Client) (query : Query) (count : Nat) : Option Client :=
  if client.phase = .idle then
    (client.pipe.write? (query.envelope.line.take count)).map fun pipe => { client with pipe }
  else none

/-- This happens to a client and leaves it so. -/
inductive Does (client : Client) : Exchange → Client → Prop
  | served {deed pipe} (done : client.pipe.undergo? deed = some pipe)
    : Does client (.served deed) { client with pipe }
  | asked {query answer after} (asked : client.ask query = (answer, after))
    : Does client (.asked query answer) after
  | begun {query count after} (begun : client.begin? query count = some after)
    : Does client (.begun query count) after
  | told {outcome after} (told : client.nextEvent? = some (outcome, after))
    : Does client (.told client.front? outcome) after
  | gaveUp : Does client .gaveUp client

/-- This happens to a client, one thing after the other, and leaves it so. -/
inductive Sees (first : Client) : List Exchange → Client → Prop
  | none : Sees first [] first
  | next {history client exchange after} (before : Sees first history client)
    (does : client.Does exchange after)
    : Sees first (history ++ [exchange]) after

variable {client after : Client} {query : Query} {answer : Except ClientError Unit}
  {outcome : Except ClientError QueryEvent} {ending : Ending}

/-- A client is in the phase of the dead if it has an end. -/
theorem phase_eq_dead : client.phase = .dead ending ↔ client.ending = some ending := by
  unfold phase
  split
  · next dead => simp [dead]
  · next alive =>
      rw [alive]
      split <;> simp

/-- A client is busy if it is alive and its query has not been answered. -/
theorem phase_eq_busy
    : client.phase = .busy ↔ client.ending = none ∧ client.inFlight = true := by
  unfold phase
  split
  · next dead => simp [dead]
  · next alive =>
      rw [alive]
      split
      · next busy => simp [busy]
      · next free => simp [free]

/-- A client is idle if it is alive and has no query to be answered. -/
theorem phase_eq_idle
    : client.phase = .idle ↔ client.ending = none ∧ client.inFlight = false := by
  unfold phase
  split
  · next dead => simp [dead]
  · next alive =>
      rw [alive]
      split
      · next busy => simp [busy]
      · next free => simp [free]

-----------------------------------------------------------------------------------------
-- One call
-----------------------------------------------------------------------------------------

/-- A client that is dead sends nothing. -/
theorem ask_of_dead (dead : client.phase = .dead ending)
    : client.ask query = (.error (.closed ending), client) := by
  rw [ask, phase_eq_dead.mp dead]

/-- A client that is busy sends no other query. -/
theorem ask_of_busy (busy : client.phase = .busy)
    : client.ask query = (.error .busy, client) := by
  obtain ⟨alive, inFlight⟩ := phase_eq_busy.mp busy
  rw [ask, alive, inFlight]
  rfl

/-- An idle client sends a query, unless the backend has hung up. -/
theorem ask_of_idle (query : Query) (idle : client.phase = .idle)
    : client.pipe.deserted = false
        ∧ client.ask query = (.ok (), {
          client with
          pipe := {
            client.pipe with
            outbound := client.pipe.outbound ++ query.envelope.line }
          inFlight := true })
      ∨ client.pipe.deserted = true
        ∧ client.ask query
          = (.error (.fault (.codec (.line .brokenPipe))),
              client.fail (.codec (.line .brokenPipe))) := by
  obtain ⟨alive, free⟩ := phase_eq_idle.mp idle
  unfold ask Pipe.write?
  split
  · next dead => cases alive.symm.trans dead
  · rw [if_neg (by simp [free])]
    by_cases deserted : client.pipe.deserted = true
    · exact .inr ⟨deserted, by rw [if_pos deserted]⟩
    · exact .inl ⟨eq_false_of_ne_true deserted, by rw [if_neg deserted]⟩

/-- Only an idle client begins to send a query, and only while the backend reads. -/
theorem begin?_eq_some {count : Nat} (begun : client.begin? query count = some after)
    : client.phase = .idle
      ∧ client.pipe.deserted = false
      ∧ after = {
        client with
        pipe := {
          client.pipe with
          outbound := client.pipe.outbound ++ query.envelope.line.take count } } := by
  unfold begin? Pipe.write? at begun
  split at begun
  · next idle =>
      split at begun
      · cases begun
      · next reads =>
          cases begun
          exact ⟨idle, eq_false_of_ne_true reads, rfl⟩
  · cases begun

/-- A client that is dead tells so. -/
theorem nextEvent?_of_dead (dead : client.phase = .dead ending)
    : client.nextEvent? = some (.error (.closed ending), client) := by
  rw [nextEvent?, phase_eq_dead.mp dead]

/-- A client that has not been asked tells so. -/
theorem nextEvent?_of_idle (idle : client.phase = .idle)
    : client.nextEvent? = some (.error .idle, client) := by
  obtain ⟨alive, free⟩ := phase_eq_idle.mp idle
  rw [nextEvent?, alive, free]
  rfl

/-- What a client tells of a message depends on nothing else. -/
theorem told_take (client : Client) (message : Incoming)
    : (client.take message).1 = message.told := by
  rcases message with cause | message
  · rfl
  · cases message <;> rfl

/-- Having taken a message, a client is in the phase that follows from what it tells. -/
theorem phase_take (client : Client) (message : Incoming) (taken : Option Incoming)
    (busy : client.phase = .busy)
    : (client.take message).2.phase = Phase.after .busy (.told taken message.told) := by
  rcases message with cause | message
  · rfl
  · obtain ⟨alive, -⟩ := phase_eq_busy.mp busy
    cases message with
    | result => exact busy
    | stats | error => exact phase_eq_idle.mpr ⟨alive, rfl⟩
    | info | query => rfl

/-- To take a message leaves what there is to be read behind it. -/
theorem inbound_take (client : Client) (message : Incoming)
    : (client.take message).2.pipe.inbound = client.pipe.inbound
      ∧ (client.take message).2.pipe.flow = client.pipe.flow := by
  rcases message with cause | message
  · exact ⟨rfl, rfl⟩
  · cases message <;> exact ⟨rfl, rfl⟩

/-- A client that is busy takes what its pipe brings. -/
theorem nextEvent?_of_brings {message : Incoming} {rest : List UInt8} (busy : client.phase = .busy)
    (brings : Arrival.Brings client.pipe.flow client.pipe.inbound message rest)
    : client.nextEvent? = some (message.told, ((client.leaving rest).take message).2)
      ∧ client.front? = some message := by
  obtain ⟨alive, inFlight⟩ := phase_eq_busy.mp busy
  rw [nextEvent?_of_busy alive inFlight, front?, busy]
  cases brings with
  | line arrived =>
      rw [Pipe.receive_of_line arrived]
      exact ⟨congrArg some (Prod.ext (told_take _ _) rfl), rfl⟩
  | failed arrived =>
      rw [Pipe.receive_of_arrival (.broken _) arrived]
      exact ⟨rfl, rfl⟩

/-- A client that is busy takes the message whose line stands first in its pipe. -/
theorem nextEvent?_of_message {rest : List UInt8} (busy : client.phase = .busy)
    (message : BackendMessage) (stands : client.pipe.inbound = message.envelope.line ++ rest)
    : client.nextEvent?
        = some (Incoming.told (.ok message), ((client.leaving rest).take (.ok message)).2)
      ∧ client.front? = some (.ok message) := by
  have arrived := message.of_line client.pipe.flow rest
  have decoded : BackendMessage.decode message.envelope.line = .ok message :=
    BackendMessage.decode_line message
  rw [← stands] at arrived
  have read := nextEvent?_of_brings busy (.line arrived)
  rwa [decoded] at read

-----------------------------------------------------------------------------------------
-- All calls
-----------------------------------------------------------------------------------------

/-- A client has taken the messages of these lines. It may have died of the failure behind them. -/
inductive HasTaken (client : Client) (texts : List (List UInt8)) (taken : List Incoming) : Prop
  | lines (same : taken = texts.map BackendMessage.decode)
  | failure {cause} (dead : client.ending ≠ none)
    (failed : Arrival.of client.pipe.flow client.pipe.inbound = .failed cause)
    (same : taken = texts.map BackendMessage.decode ++ [.error (.broken cause)])

/-- A client that was greeted when this stood in its pipe, has come to where the history says. -/
structure Abreast (client : Client) (pipe : Pipe) (history : List Exchange) : Prop where
  phase : client.phase = Phase.afterAll history
  flow : client.pipe.flow = pipe.flow.or (Exchange.flow history)
  lines
    : ∃ line texts,
        client.pipe.HasRead (pipe.inbound ++ Exchange.written history) (line :: texts)
        ∧ client.HasTaken texts (Exchange.taken history)

variable {pipe : Pipe} {history : List Exchange}

/-- A client that is alive has not met with a failure. -/
theorem HasTaken.eq_of_alive {texts : List (List UInt8)} {taken : List Incoming}
    (hasTaken : client.HasTaken texts taken) (alive : client.ending = none)
    : taken = texts.map BackendMessage.decode := by
  cases hasTaken with
  | lines same => exact same
  | failure dead => exact absurd alive dead

/-- The messages are those of the lines that were read, and those that are left in the pipe. -/
theorem Abreast.messages_of_hasRead (abreast : client.Abreast pipe history) {line : List UInt8}
    {texts : List (List UInt8)}
    (read : client.pipe.HasRead (pipe.inbound ++ Exchange.written history) (line :: texts))
    : Exchange.messages pipe history
      = texts.map BackendMessage.decode ++ client.pipe.incoming := by
  rw [Exchange.messages, ← abreast.flow, read.lines_eq, Pipe.incoming]
  simp

/-- The messages are those that were taken and those that are left in the pipe, unless the client
is dead.
-/
theorem Abreast.messages_eq (abreast : client.Abreast pipe history) (alive : client.ending = none)
    : Exchange.messages pipe history = Exchange.taken history ++ client.pipe.incoming := by
  obtain ⟨line, texts, read, hasTaken⟩ := abreast.lines
  rw [abreast.messages_of_hasRead read, hasTaken.eq_of_alive alive]

/-- The messages are taken from the first one on. A failure is the last. -/
theorem Abreast.inOrder (abreast : client.Abreast pipe history)
    : Exchange.taken history <+: Exchange.messages pipe history := by
  obtain ⟨line, texts, read, hasTaken⟩ := abreast.lines
  rw [abreast.messages_of_hasRead read]
  cases hasTaken with
  | lines same =>
      rw [same]
      exact List.prefix_append ..
  | @failure cause _ failed same =>
      rw [same, Pipe.incoming_of_arrival (.broken cause) failed]
      exact List.prefix_rfl

/-- A client that was just greeted has been told nothing. -/
theorem abreast_of_handshake? (greeted : handshake? pipe = some (.ok client))
    : client.Abreast pipe [] := by
  obtain ⟨line, read, -, flow⟩ := reads_of_handshake? greeted
  obtain ⟨free, alive⟩ := new_of_handshake? greeted
  have fresh : client.phase = .idle := phase_eq_idle.mpr ⟨alive, free⟩
  refine ⟨fresh, ?_, line, [], ?_, .lines rfl⟩
  · rw [flow]
    exact (Flow.or_running _).symm
  · rw [Exchange.written, List.flatMap_nil, List.append_nil]
    exact read

/-- What was taken does not change while the pipe is left as it is and the client stays dead. -/
theorem HasTaken.of_same {texts : List (List UInt8)} {taken : List Incoming}
    (hasTaken : client.HasTaken texts taken) (lives : after.ending = none → client.ending = none)
    (inbound : after.pipe.inbound = client.pipe.inbound)
    (flow : after.pipe.flow = client.pipe.flow)
    : after.HasTaken texts taken := by
  cases hasTaken with
  | lines same => exact .lines same
  | failure dead failed same =>
      exact .failure (fun alive => dead (lives alive)) (by rwa [flow, inbound]) same

/-- A call that takes no message leaves a client where it was, but for its phase. -/
theorem Abreast.stay (abreast : client.Abreast pipe history) (exchange : Exchange)
    (phase : after.phase = (Phase.afterAll history).after exchange)
    (lives : after.ending = none → client.ending = none)
    (inbound : after.pipe.inbound = client.pipe.inbound)
    (flow : after.pipe.flow = client.pipe.flow)
    (silent : Exchange.written [exchange] = [] ∧ Exchange.flow [exchange] = .running
      ∧ Exchange.taken [exchange] = [])
    : after.Abreast pipe (history ++ [exchange]) := by
  obtain ⟨unwritten, going, untaken⟩ := silent
  obtain ⟨line, texts, read, hasTaken⟩ := abreast.lines
  refine ⟨?_, ?_, line, texts, ?_, ?_⟩
  · rw [Exchange.afterAll_concat, phase]
  · rw [flow, abreast.flow, Exchange.flow_concat, going, Flow.or_running]
  · rw [Exchange.written_concat, unwritten, List.append_nil]
    exact read.of_same inbound flow
  · rw [Exchange.taken_concat, untaken, List.append_nil]
    exact hasTaken.of_same lives inbound flow

/-- What a backend does to a connection that has broken changes nothing of what can be read. -/
theorem HasTaken.served {texts : List (List UInt8)} {taken : List Incoming} {deed : Deed}
    {next : Pipe} (hasTaken : client.HasTaken texts taken)
    (done : client.pipe.undergo? deed = some next)
    : ({ client with pipe := next } : Client).HasTaken texts taken := by
  obtain ⟨inbound, flow, silent⟩ := Pipe.undergo?_inbound done
  cases hasTaken with
  | lines same => exact .lines same
  | @failure cause dead failed same =>
      obtain ⟨broken, -⟩ := Arrival.lines_of_arrival (.broken cause) failed
      have stopped : client.pipe.flow ≠ .running := by simp [broken]
      rw [Flow.or_of_ne_running stopped] at flow
      rw [silent stopped, List.append_nil] at inbound
      exact .failure dead (by rwa [flow, inbound]) same

/-- What a backend does adds to what there is to be read. -/
theorem Abreast.served {deed : Deed} {next : Pipe} (abreast : client.Abreast pipe history)
    (done : client.pipe.undergo? deed = some next)
    : ({ client with pipe := next } : Client).Abreast pipe (history ++ [.served deed]) := by
  obtain ⟨line, texts, read, hasTaken⟩ := abreast.lines
  obtain ⟨-, flow, -⟩ := Pipe.undergo?_inbound done
  refine ⟨?_, ?_, line, texts, ?_, ?_⟩
  · rw [Exchange.afterAll_concat]
    exact abreast.phase
  · rw [Exchange.flow_concat, ← Flow.or_assoc, ← abreast.flow]
    exact flow
  · rw [Exchange.written_concat, ← List.append_assoc]
    have grown := Pipe.undergo?_serves done _ _ read
    simpa [Exchange.written] using grown
  · rw [Exchange.taken_concat]
    simpa [Exchange.taken] using hasTaken.served done

/-- What a client answers to a query is as it has to be, by cases on its phase. -/
theorem Abreast.asked (abreast : client.Abreast pipe history)
    (asked : client.ask query = (answer, after))
    : after.Abreast pipe (history ++ [.asked query answer])
      ∧ Exchange.Fits pipe history (.asked query answer) := by
  cases phase : client.phase with
  | dead ending =>
      rw [ask_of_dead phase] at asked
      cases asked
      have same := abreast.phase.symm.trans phase
      exact ⟨abreast.stay _ (phase.trans (by rw [same]; rfl)) id rfl rfl ⟨rfl, rfl, rfl⟩,
        .askedDead query same⟩
  | busy =>
      rw [ask_of_busy phase] at asked
      cases asked
      have same := abreast.phase.symm.trans phase
      exact ⟨abreast.stay _ (phase.trans (by rw [same]; rfl)) id rfl rfl ⟨rfl, rfl, rfl⟩,
        .askedBusy query same⟩
  | idle =>
      have same := abreast.phase.symm.trans phase
      rcases ask_of_idle query phase with ⟨-, sent⟩ | ⟨-, failed⟩
      · rw [sent] at asked
        cases asked
        obtain ⟨alive, -⟩ := phase_eq_idle.mp phase
        refine ⟨abreast.stay _ ?_ (fun _ => alive) rfl rfl ⟨rfl, rfl, rfl⟩, .sent query same⟩
        exact phase_eq_busy.mpr ⟨alive, rfl⟩
      · rw [failed] at asked
        cases asked
        exact ⟨abreast.stay _ rfl nofun rfl rfl ⟨rfl, rfl, rfl⟩, .unsent query same⟩

/-- What a client receives is the next message, by cases on what its pipe brings. -/
theorem Abreast.take {message : Incoming} {rest : List UInt8}
    (abreast : client.Abreast pipe history) (busy : client.phase = .busy)
    (brings : Arrival.Brings client.pipe.flow client.pipe.inbound message rest)
    : ((client.leaving rest).take message).2.Abreast pipe
        (history ++ [.told (some message) message.told])
      ∧ (Exchange.messages pipe history)[(Exchange.taken history).length]? = some message := by
  obtain ⟨alive, -⟩ := phase_eq_busy.mp busy
  obtain ⟨line, texts, read, hasTaken⟩ := abreast.lines
  have decoded := hasTaken.eq_of_alive alive
  obtain ⟨left, still⟩ := inbound_take (client.leaving rest) message
  have phase : ((client.leaving rest).take message).2.phase
      = Phase.afterAll (history ++ [.told (some message) message.told]) := by
    rw [Exchange.afterAll_concat, ← abreast.phase, busy]
    exact phase_take _ _ _ busy
  have flow : ((client.leaving rest).take message).2.pipe.flow
      = pipe.flow.or (Exchange.flow (history ++ [.told (some message) message.told])) := by
    rw [still, Exchange.flow_concat]
    exact abreast.flow.trans (congrArg _ (Flow.or_running _).symm)
  rw [abreast.messages_eq alive, List.getElem?_append_right (Nat.le_refl _), Nat.sub_self,
    ← List.head?_eq_getElem?]
  cases brings with
  | @line text rest arrived =>
      obtain ⟨readToo, -⟩ := read.receive (Pipe.receive_of_line arrived)
      refine ⟨⟨phase, flow, line, texts ++ [text], ?_, .lines ?_⟩, ?_⟩
      · rw [Exchange.written_concat]
        simpa [Exchange.written] using readToo.of_same left still
      · rw [Exchange.taken_concat, decoded, List.map_append]
        rfl
      · have first := head?_lines arrived fun _ => ⟨rfl, rfl⟩
        rw [List.append_nil] at first
        rw [Pipe.incoming, List.head?_append, List.head?_map, first]
        rfl
  | @failed cause arrived =>
      refine ⟨⟨phase, flow, line, texts, ?_, .failure nofun arrived ?_⟩, ?_⟩
      · rw [Exchange.written_concat]
        simpa [Exchange.written] using read.of_same left still
      · rw [Exchange.taken_concat, decoded]
        rfl
      · rw [Pipe.incoming_of_arrival (.broken cause) arrived]
        rfl

/-- What a client tells is what stands next in its pipe, by cases on its phase and on what it
receives.
-/
theorem Abreast.told (abreast : client.Abreast pipe history)
    (told : client.nextEvent? = some (outcome, after))
    : after.Abreast pipe (history ++ [.told client.front? outcome])
      ∧ Exchange.Fits pipe history (.told client.front? outcome) := by
  have same := abreast.phase.symm
  cases phase : client.phase with
  | dead ending =>
      have nothing : client.front? = none := by rw [front?, phase]
      rw [phase] at same
      rw [nextEvent?_of_dead phase] at told
      cases told
      rw [nothing]
      exact ⟨abreast.stay _ (phase.trans (by rw [same]; rfl)) id rfl rfl ⟨rfl, rfl, rfl⟩,
        .toldDead same⟩
  | idle =>
      have nothing : client.front? = none := by rw [front?, phase]
      rw [phase] at same
      rw [nextEvent?_of_idle phase] at told
      cases told
      rw [nothing]
      exact ⟨abreast.stay _ (phase.trans (by rw [same]; rfl)) id rfl rfl ⟨rfl, rfl, rfl⟩,
        .unasked same⟩
  | busy =>
      rw [phase] at same
      obtain ⟨alive, inFlight⟩ := phase_eq_busy.mp phase
      have takes : ∀ message rest,
          Arrival.Brings client.pipe.flow client.pipe.inbound message rest
          → after.Abreast pipe (history ++ [.told client.front? outcome])
            ∧ Exchange.Fits pipe history (.told client.front? outcome) := by
        intro message rest brings
        obtain ⟨moved, next⟩ := abreast.take phase brings
        obtain ⟨tells, front⟩ := nextEvent?_of_brings phase brings
        cases told.symm.trans tells
        rw [front]
        exact ⟨moved, .told same next⟩
      cases arrived : Arrival.of client.pipe.flow client.pipe.inbound with
      | line text rest => exact takes _ _ (.line arrived)
      | failed cause => exact takes _ _ (.failed arrived)
      | awaited =>
          rw [nextEvent?_of_busy alive inFlight, Pipe.receive_of_arrival .running arrived] at told
          cases told
      | ended =>
          obtain ⟨finished, -⟩ := Arrival.lines_of_arrival .finished arrived
          have received := Pipe.receive_of_arrival .finished arrived
          have nothing : client.front? = none := by
            rw [front?, phase, received]
            rfl
          rw [nextEvent?_of_busy alive inFlight, received] at told
          cases told
          rw [nothing]
          refine ⟨abreast.stay _ rfl nofun rfl rfl ⟨rfl, rfl, rfl⟩, .ended same ?_ ?_⟩
          · rw [← abreast.flow, finished]
          · rw [abreast.messages_eq alive, Pipe.incoming_of_arrival .finished arrived]
            exact (List.append_nil _).symm

/-- Whatever happens to a client, it comes to where the history says, by cases on what happens. -/
theorem Abreast.does {exchange : Exchange} (abreast : client.Abreast pipe history)
    (does : client.Does exchange after)
    : after.Abreast pipe (history ++ [exchange]) ∧ Exchange.Fits pipe history exchange := by
  cases does with
  | served done => exact ⟨abreast.served done, .served _⟩
  | asked asked => exact abreast.asked asked
  | begun begun =>
      obtain ⟨idle, -, rfl⟩ := begin?_eq_some begun
      exact ⟨abreast.stay _ abreast.phase id rfl rfl ⟨rfl, rfl, rfl⟩,
        .begun _ _ (abreast.phase.symm.trans idle)⟩
  | told told => exact abreast.told told
  | gaveUp => exact ⟨abreast.stay .gaveUp abreast.phase id rfl rfl ⟨rfl, rfl, rfl⟩, .gaveUp⟩

/-- The owner of a client is told faithfully, by induction on what happens. -/
theorem Sees.faithful {first : Client} (sees : first.Sees history client)
    (greeted : handshake? pipe = some (.ok first))
    : client.Abreast pipe history ∧ Exchange.Faithful pipe history := by
  induction sees with
  | none => exact ⟨abreast_of_handshake? greeted, Exchange.faithful_nil pipe⟩
  | next _ does ih =>
      obtain ⟨abreast, faithful⟩ := ih
      obtain ⟨moved, fits⟩ := abreast.does does
      exact ⟨moved, faithful.concat fits moved.inOrder⟩

/-- To search is to ask and to read on, and can be given up wherever these can. -/
theorem Sees.search {first : Client} (sees : first.Sees history client) (query : Query)
    : ∃ more, first.Sees (history ++ more) (client.search query).2 := by
  have collect : ∀ (found : List Match) (client : Client) (history : List Exchange),
      first.Sees history client
      → ∃ more, first.Sees (history ++ more) (client.collect found).2 := by
    intro found client
    fun_induction Client.collect found client with
    | case1 =>
        intro history sees
        exact ⟨[], by rwa [List.append_nil]⟩
    | case2 _ _ _ _ arrived | case4 _ _ _ _ arrived | case5 _ _ _ _ arrived =>
        intro history sees
        exact ⟨_, sees.next (.told arrived)⟩
    | case3 _ _ _ _ arrived ih =>
        intro history sees
        obtain ⟨more, later⟩ := ih _ (sees.next (.told arrived))
        rw [List.append_assoc] at later
        exact ⟨_, later⟩
  unfold Client.search
  split
  · next asked => exact ⟨_, sees.next (.asked asked)⟩
  · next asked =>
      obtain ⟨more, later⟩ := collect [] _ _ (sees.next (.asked asked))
      rw [List.append_assoc] at later
      exact ⟨_, later⟩

/-- An owner who has to wait has been told all that has arrived. -/
theorem Abreast.waits (abreast : client.Abreast pipe history) (waits : client.nextEvent? = none)
    : Phase.afterAll history = .busy
      ∧ pipe.flow.or (Exchange.flow history) = .running
      ∧ Exchange.taken history = Exchange.messages pipe history := by
  cases phase : client.phase with
  | dead ending =>
      rw [nextEvent?_of_dead phase] at waits
      cases waits
  | idle =>
      rw [nextEvent?_of_idle phase] at waits
      cases waits
  | busy =>
      obtain ⟨alive, inFlight⟩ := phase_eq_busy.mp phase
      rw [nextEvent?_of_busy alive inFlight] at waits
      split at waits
      · next behind received =>
          have arrived : Arrival.of client.pipe.flow client.pipe.inbound = .awaited := by
            rw [← Pipe.fst_receive, received]
          obtain ⟨going, -⟩ := Arrival.lines_of_arrival .running arrived
          refine ⟨abreast.phase.symm.trans phase, by rw [← abreast.flow, going], ?_⟩
          rw [abreast.messages_eq alive, Pipe.incoming_of_arrival .running arrived]
          exact (List.append_nil _).symm
      · cases waits
      · cases waits
      · cases waits

end Client

end SourceView
