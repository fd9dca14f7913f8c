import SourceView.Proofs.Connection.BackendRun
import SourceView.Proofs.Message.Streams

/-! What is asked and answered on one connection.
A reply does not name the query that it answers. A backend answers the queries in the order in which
they were sent, each of them to its end, and the client sends none before it has read the end of the
answer to the one before. That is how every reply finds the one who asked.
-/

namespace SourceView

open Text (ended)

-----------------------------------------------------------------------------------------
-- Replies
-----------------------------------------------------------------------------------------

/-- The message that brings an event. -/
def QueryEvent.message : QueryEvent → BackendMessage
  | result found => .result found
  | done stats => .stats stats
  | failed text => .error text

/-- A line of a backend's answer to a query. -/
structure Reply where
  /-- The query, as its place among the queries that were sent on the connection. -/
  query : Nat
  event : QueryEvent
  line : List UInt8
  unbroken : 0x0a ∉ line
  solid : isBlankLine line = false
  decoded : BackendMessage.decode (ended line) = .ok event.message

namespace Reply

/-- The reply as it is written by this program. -/
def written (query : Nat) (event : QueryEvent) : Reply where
  query := query
  event := event
  line := Text.Utf8.bytes event.message.envelope.render
  unbroken := Envelope.unbroken_render (BackendMessage.faithful.tame event.message)
  solid := (Registry.isBlankLine_ended _).symm.trans (Registry.solid_line event.message.envelope)
  decoded := BackendMessage.decode_line event.message

/-- The reply ends the answer to its query. -/
def ends (reply : Reply) : Bool :=
  reply.event.message.isTerminator

/-- How many queries these replies answer to the end. -/
def answered (replies : List Reply) : Nat :=
  replies.countP ends

/-- Replies as a backend writes them. -/
def stream (replies : List Reply) : List UInt8 :=
  replies.flatMap fun reply => ended reply.line

/-- One more reply answers one more query if it ends the answer. -/
theorem answered_concat (replies : List Reply) (reply : Reply)
    : answered (replies ++ [reply]) = answered replies + if reply.ends then 1 else 0 := by
  rw [answered, List.countP_append, List.countP_singleton, answered]

/-- Replies one behind the other are written one behind the other. -/
theorem stream_append (replies more : List Reply)
    : stream (replies ++ more) = stream replies ++ stream more :=
  List.flatMap_append

/-- What stands at the front of a pipe tells this event. It is the line of the reply, or as much of
the line as was written before the backend has finished.
-/
inductive Tells (reply : Reply) (pipe : Pipe) : QueryEvent → Prop
  | whole {rest} (arrived : pipe.inbound = ended reply.line ++ rest)
    : Tells reply pipe reply.event
  | cutOff {event} (finished : pipe.flow = .finished) (arrived : pipe.inbound <+: reply.line)
    (decoded : BackendMessage.decode pipe.inbound = .ok event.message)
    : Tells reply pipe event

end Reply

-----------------------------------------------------------------------------------------
-- Lines of replies in a stream
-----------------------------------------------------------------------------------------

/-- A line with its end is cut off in front of anything, by induction on the line. -/
theorem Text.cutLine?_ended_append {line : List UInt8} (unbroken : 0x0a ∉ line)
    (rest : List UInt8)
    : cutLine? (ended line ++ rest) = some (ended line, rest) := by
  induction line with
  | nil => rfl
  | cons b line ih =>
      rw [List.mem_cons, not_or] at unbroken
      have later : cutLine? (line ++ [0x0a] ++ rest) = some (ended line, rest) := ih unbroken.2
      rw [ended, List.cons_append, List.cons_append, cutLine?, if_neg (Ne.symm unbroken.1), later]
      rfl

/-- What has no line feed has no line, by induction on the bytes. -/
theorem Text.cutLine?_eq_none {stream : List UInt8} (unbroken : 0x0a ∉ stream)
    : cutLine? stream = none := by
  induction stream with
  | nil => rfl
  | cons b stream ih =>
      rw [List.mem_cons, not_or] at unbroken
      rw [cutLine?, if_neg (Ne.symm unbroken.1), ih unbroken.2]
      rfl

/-- What arrives of a stream in which a line comes first is this line, or as much of it as there is
when the stream has finished.
-/
theorem Arrival.of_begun {flow : Flow} {stream more line behind text rest : List UInt8}
    (unbroken : 0x0a ∉ line) (solid : isBlankLine line = false)
    (begun : stream ++ more = Text.ended line ++ behind)
    (arrived : of flow stream = .line text rest)
    : text = Text.ended line ∧ stream = Text.ended line ++ rest ∧ rest ++ more = behind
      ∨ flow = .finished ∧ stream <+: line ∧ text = stream ∧ rest = [] := by
  have whole : ∀ later, stream = Text.ended line ++ later → later ++ more = behind
      → text = Text.ended line ∧ stream = Text.ended line ++ rest ∧ rest ++ more = behind := by
    rintro later rfl follows
    have cut := Text.cutLine?_ended_append unbroken later
    rw [of_solid cut ((Registry.isBlankLine_ended line).trans solid)] at arrived
    cases arrived
    exact ⟨rfl, rfl, follows⟩
  rcases List.append_eq_append_iff.mp begun with ⟨missing, parts, rfl⟩ | ⟨later, parts, rfl⟩
  · rcases List.prefix_concat_iff.mp ⟨missing, parts.symm⟩ with rfl | part
    · have nothing : missing = [] := List.self_eq_append_right.mp parts
      exact .inl (whole [] (List.append_nil _).symm (by simp [nothing]))
    · -- The line feed is missing, so that the line is only taken when the stream has finished
      have uncut := Text.cutLine?_eq_none fun feed => unbroken (part.subset feed)
      rcases of_uncut flow uncut with ⟨-, nothing⟩ | ⟨rfl, -, same⟩
      · exact absurd (nothing.symm.trans arrived) Flow.arrival_ne_line
      · rw [arrived] at same
        cases same
        exact .inr ⟨rfl, part, rfl, rfl⟩
  · exact .inl (whole later parts rfl)

-----------------------------------------------------------------------------------------
-- What a client does
-----------------------------------------------------------------------------------------

/-- Different events are told by different messages. -/
theorem QueryEvent.message_injective {event other : QueryEvent}
    (same : event.message = other.message)
    : event = other := by
  cases event <;> cases other <;> cases same <;> rfl

/-- An event was the message that was taken, and ends the answer if the message does. -/
theorem Client.take_eq_ok {client after : Client} {message : Except CodecError BackendMessage}
    {event : QueryEvent} (taken : client.take message = (.ok event, after))
    : message = .ok event.message
      ∧ after = {
        client with inFlight := client.inFlight && !event.message.isTerminator } := by
  rcases message with cause | message
  · cases taken
  · cases message with
    | result =>
        cases taken
        exact ⟨rfl, by simp [QueryEvent.message, BackendMessage.isTerminator]⟩
    | stats | error =>
        cases taken
        exact ⟨rfl, by simp [QueryEvent.message, BackendMessage.isTerminator]⟩
    | info | query => cases taken

/-- A client that tells an event was asked and alive, and has read the event's message. -/
theorem Client.nextEvent?_eq_ok {client after : Client} {event : QueryEvent}
    (next : client.nextEvent? = some (.ok event, after))
    : client.ending = none
      ∧ client.inFlight = true
      ∧ ∃ text rest,
          Arrival.of client.pipe.flow client.pipe.inbound = .line text rest
          ∧ BackendMessage.decode text = .ok event.message
          ∧ after = {
            client with
            pipe := { client.pipe with inbound := rest }
            inFlight := !event.message.isTerminator } := by
  have alive : client.ending = none := by
    cases dead : client.ending with
    | none => rfl
    | some ending => simp [nextEvent?, dead] at next
  have busy : client.inFlight = true := by
    cases free : client.inFlight with
    | true => rfl
    | false => simp [nextEvent?, alive, free] at next
  refine ⟨alive, busy, ?_⟩
  rw [nextEvent?_of_busy alive busy, Pipe.receive] at next
  cases arrived : Arrival.of client.pipe.flow client.pipe.inbound with
  | awaited | ended | failed =>
      rw [arrived] at next
      cases next
  | line text rest =>
      rw [arrived] at next
      obtain ⟨read, rfl⟩ := take_eq_ok (Option.some.inj next)
      refine ⟨text, rest, rfl, read, ?_⟩
      simp [busy]

/-- A client tells the event of the reply at the front of its pipe. -/
theorem Client.nextEvent?_of_reply {client : Client} {reply : Reply} {rest : List UInt8}
    (alive : client.ending = none) (busy : client.inFlight = true)
    (front : client.pipe.inbound = ended reply.line ++ rest)
    : ∃ after, client.nextEvent? = some (.ok reply.event, after) := by
  have cut := Text.cutLine?_ended_append reply.unbroken rest
  have arrived : Arrival.of client.pipe.flow (ended reply.line ++ rest)
      = .line (ended reply.line) rest :=
    Arrival.of_solid cut ((Registry.isBlankLine_ended reply.line).trans reply.solid)
  rw [nextEvent?_of_busy alive busy, Pipe.receive, front, arrived]
  dsimp only
  rw [reply.decoded]
  cases reply.event <;> exact ⟨_, rfl⟩

/-- A client that could tell no event is dead, or is as it was. -/
theorem Client.nextEvent?_eq_error {client after : Client} {cause : ClientError}
    (next : client.nextEvent? = some (.error cause, after)) (alive : after.ending = none)
    : after = client := by
  unfold nextEvent? at next
  split at next
  · cases next
    rfl
  · split at next
    · cases next
      rfl
    · split at next
      · cases next
      · cases next
        cases alive
      · cases next
        cases alive
      · next text rest pipe received =>
          rcases read : BackendMessage.decode text with cause | message
          · rw [read] at next
            cases next
            cases alive
          · rw [read] at next
            cases message with
            | result | stats | error => cases next
            | info | query =>
                cases next
                cases alive

/-- A client that is alive although a query could not be sent is as it was. -/
theorem Client.ask_eq_error {client after : Client} {query : Query} {cause : ClientError}
    (failed : client.ask query = (.error cause, after)) (alive : after.ending = none)
    : after = client := by
  unfold ask at failed
  split at failed
  · cases failed
    rfl
  · split at failed
    · cases failed
      rfl
    · split at failed
      · cases failed
        cases alive
      · cases failed

/-- A client that was just greeted is alive and has not been asked. -/
theorem Client.new_of_handshake? {pipe : Pipe} {client : Client}
    (greeted : handshake? pipe = some (.ok client))
    : client.inFlight = false ∧ client.ending = none := by
  unfold handshake? at greeted
  split at greeted
  · cases greeted
  · cases greeted
  · cases greeted
  · split at greeted
    · cases greeted
    · cases greeted
      exact ⟨rfl, rfl⟩
    · cases greeted

-----------------------------------------------------------------------------------------
-- Conversations
-----------------------------------------------------------------------------------------

/-- What was asked and answered on a connection. Those who ask go by names from `τ`. -/
structure Conversation (τ : Type) where
  /-- The queries that were sent, each with the one who sent it. -/
  asked : List (τ × Query) := []
  /-- How many of them had been sent when the one who has the client now got it. -/
  since : Nat := 0
  /-- The backend's replies, be they written or not. -/
  replies : List Reply := []
  /-- What the backend has written of its replies. -/
  written : List UInt8 := []
  /-- How many replies the client has read. -/
  taken : Nat := 0

namespace Conversation

variable {τ : Type}

/-- Someone else gets the client. -/
def passOn (talk : Conversation τ) : Conversation τ :=
  { talk with since := talk.asked.length }

def ask (talk : Conversation τ) (asker : τ) (query : Query) : Conversation τ :=
  { talk with asked := talk.asked ++ [(asker, query)] }

def answer (talk : Conversation τ) (reply : Reply) : Conversation τ :=
  { talk with replies := talk.replies ++ [reply] }

def write (talk : Conversation τ) (bytes : List UInt8) : Conversation τ :=
  { talk with written := talk.written ++ bytes }

def read (talk : Conversation τ) : Conversation τ :=
  { talk with taken := talk.taken + 1 }

/-- It is this reply's turn: all queries before its own were answered to the end, and its own was
sent.
-/
structure Next (talk : Conversation τ) (reply : Reply) : Prop where
  turn : reply.query = Reply.answered talk.replies
  asked : reply.query < talk.asked.length

/-- Where the client of a connection stands in the conversation. -/
inductive Pace (talk : Conversation τ) (client : Client) : Prop
  /-- It has read some of the replies, and their ends are as many as the queries it has sent, up to
  the one that has not been answered. -/
  | reading (within : talk.taken ≤ talk.replies.length)
    (written : talk.written = Reply.stream (talk.replies.take talk.taken) ++ client.pipe.inbound)
    (counted
      : Reply.answered (talk.replies.take talk.taken) + (if client.inFlight then 1 else 0)
        = talk.asked.length)
  /-- The backend has finished, and nothing is left to be read. -/
  | done (finished : client.pipe.flow = .finished) (empty : client.pipe.inbound = [])

/-- The backend has answered in order, and the client has read in order. -/
structure Sound (talk : Conversation τ) (client : Client) : Prop where
  next
    : ∀ before reply after,
        talk.replies = before ++ reply :: after
        → reply.query = Reply.answered before ∧ reply.query < talk.asked.length
  written : talk.written <+: Reply.stream talk.replies
  pace : talk.Pace client

variable {talk : Conversation τ} {client after : Client} {asker : τ} {query : Query}

/-- A connection on which the greeting was all that has been sent. -/
theorem sound_new (quiet : client.pipe.inbound = []) (free : client.inFlight = false)
    : Sound ({} : Conversation τ) client where
  next := by simp
  written := List.prefix_rfl
  pace := .reading (Nat.le_refl 0) quiet.symm (by rw [free]; rfl)

/-- Passing the client on changes nothing about the order in which it is answered. -/
theorem Sound.passOn (sound : talk.Sound client) : talk.passOn.Sound client where
  next := sound.next
  written := sound.written
  pace := by
    cases sound.pace with
    | reading within written counted => exact .reading within written counted
    | done finished empty => exact .done finished empty

/-- A query is sent only when the ones before were answered. -/
theorem Sound.ask (sound : talk.Sound client) (asker : τ)
    (asked : client.ask query = (.ok (), after))
    : (talk.ask asker query).Sound after := by
  unfold Client.ask at asked
  split at asked
  · cases asked
  · split at asked
    · cases asked
    · next free =>
        split at asked
        · cases asked
        · next pipe written =>
            cases asked
            unfold Pipe.write? at written
            split at written
            · cases written
            · cases written
              refine ⟨?_, sound.written, ?_⟩
              · intro before reply later split
                obtain ⟨turn, early⟩ := sound.next before reply later split
                refine ⟨turn, Nat.lt_of_lt_of_le early ?_⟩
                simp [Conversation.ask]
              · cases sound.pace with
                | done finished empty => exact .done finished empty
                | reading within written counted =>
                    rw [if_neg free] at counted
                    refine .reading within written ?_
                    simp [Conversation.ask, ← counted]

/-- The next reply keeps the answers in order. -/
theorem Sound.answer {reply : Reply} (sound : talk.Sound client) (next : talk.Next reply)
    : (talk.answer reply).Sound client where
  next := by
    intro before other later split
    rcases List.append_eq_append_iff.mp split with ⟨front, parts, rest⟩ | ⟨front, parts, rest⟩
    · cases front with
      | nil =>
          cases rest
          rw [List.append_nil] at parts
          subst parts
          exact ⟨next.turn, next.asked⟩
      | cons => simp at rest
    · cases front with
      | nil =>
          cases rest
          rw [List.append_nil] at parts
          rw [← parts]
          exact ⟨next.turn, next.asked⟩
      | cons first front =>
          cases rest
          exact sound.next before other front parts
  written := by
    rw [Conversation.answer, Reply.stream_append]
    exact sound.written.trans (List.prefix_append ..)
  pace := by
    cases sound.pace with
    | done finished empty => exact .done finished empty
    | reading within written counted =>
        have same : (talk.replies ++ [reply]).take talk.taken = talk.replies.take talk.taken :=
          List.take_append_of_le_length within
        refine .reading ?_ ?_ ?_
        · simp only [Conversation.answer, List.length_append]
          omega
        · rw [Conversation.answer, same]
          exact written
        · rw [Conversation.answer, same]
          exact counted

/-- The backend writes on where it stopped. -/
theorem Sound.write {bytes : List UInt8} {pipe : Pipe} (sound : talk.Sound client)
    (follows : talk.written ++ bytes <+: Reply.stream talk.replies)
    (sent : client.pipe.send? bytes = some pipe)
    : (talk.write bytes).Sound { client with pipe } where
  next := sound.next
  written := follows
  pace := by
    unfold Pipe.send? at sent
    split at sent
    · cases sent
    · next going =>
        cases sent
        cases sound.pace with
        | done finished empty => simp [finished] at going
        | reading within written counted =>
            refine .reading within ?_ counted
            rw [Conversation.write, written, List.append_assoc]

/-- What else a backend does to a pipe leaves what there is to read. -/
theorem Sound.serve {pipe : Pipe} (sound : talk.Sound client)
    (same : pipe.inbound = client.pipe.inbound)
    (goesOn : client.pipe.flow = .finished → pipe.flow = .finished)
    : talk.Sound { client with pipe } where
  next := sound.next
  written := sound.written
  pace := by
    cases sound.pace with
    | done finished empty => exact .done (goesOn finished) (same.trans empty)
    | reading within written counted => exact .reading within (same ▸ written) counted

/-- What there is to be read begins with the next reply. It answers the query behind those that the
client has sent and seen answered to the end.
-/
theorem Sound.exists_reply (sound : talk.Sound client) (left : client.pipe.inbound ≠ [])
    : ∃ reply later,
        talk.replies = talk.replies.take talk.taken ++ reply :: later
        ∧ talk.written = Reply.stream (talk.replies.take talk.taken) ++ client.pipe.inbound
        ∧ client.pipe.inbound <+: ended reply.line ++ Reply.stream later
        ∧ reply.query = Reply.answered (talk.replies.take talk.taken)
        ∧ reply.query + (if client.inFlight then 1 else 0) = talk.asked.length
        ∧ reply.query < talk.asked.length := by
  cases sound.pace with
  | done finished empty => exact absurd empty left
  | reading within written counted =>
      have parts := (List.take_append_drop talk.taken talk.replies).symm
      have unread : client.pipe.inbound <+: Reply.stream (talk.replies.drop talk.taken) := by
        have whole := sound.written
        rwa [written, congrArg Reply.stream parts, Reply.stream_append,
          List.prefix_append_right_inj] at whole
      cases behind : talk.replies.drop talk.taken with
      | nil =>
          rw [behind] at unread
          exact absurd (List.prefix_nil.mp unread) left
      | cons reply later =>
          rw [behind] at parts unread
          obtain ⟨turn, early⟩ := sound.next _ reply later parts
          exact ⟨reply, later, parts, written, unread, turn, turn ▸ counted, early⟩

/-- Where no query is to be answered there is nothing to be read. -/
theorem Sound.quiet (sound : talk.Sound client) (free : client.inFlight = false)
    : client.pipe.inbound = [] := by
  by_cases empty : client.pipe.inbound = []
  · exact empty
  · obtain ⟨reply, later, -, -, -, -, last, early⟩ := sound.exists_reply empty
    rw [free] at last
    exact absurd last (Nat.ne_of_lt early)

/-- The event that a client tells next is that of the next reply, which answers the last query. -/
theorem Sound.read {event : QueryEvent} (sound : talk.Sound client)
    (next : client.nextEvent? = some (.ok event, after))
    : talk.read.Sound after
      ∧ ∃ reply,
          talk.replies[talk.taken]? = some reply
          ∧ reply.Tells client.pipe event
          ∧ reply.query + 1 = talk.asked.length := by
  obtain ⟨-, busy, text, rest, arrived, decoded, rfl⟩ := Client.nextEvent?_eq_ok next
  have left : client.pipe.inbound ≠ [] := by
    intro empty
    have shorter := Arrival.length_lt arrived
    rw [empty] at shorter
    exact absurd shorter (Nat.not_lt_zero _)
  obtain ⟨reply, later, parts, written, ⟨more, begun⟩, turn, last, -⟩ := sound.exists_reply left
  rw [if_pos busy] at last
  have found : talk.replies[talk.taken]? = some reply := by
    rw [← List.head?_drop, ← List.append_cancel_left
      ((List.take_append_drop talk.taken talk.replies).trans parts).symm]
    rfl
  obtain ⟨short, -⟩ := List.getElem?_eq_some_iff.mp found
  have grown : talk.replies.take (talk.taken + 1) = talk.replies.take talk.taken ++ [reply] := by
    rw [List.take_add_one, found]
    rfl
  rcases Arrival.of_begun reply.unbroken reply.solid begun arrived with
    ⟨rfl, front, -⟩ | ⟨finished, part, rfl, rfl⟩
  · have same : event = reply.event := by
      rw [reply.decoded, Except.ok.injEq] at decoded
      exact (QueryEvent.message_injective decoded).symm
    subst same
    refine ⟨⟨sound.next, sound.written, .reading short ?_ ?_⟩, reply, found, .whole front, last⟩
    · rw [Conversation.read, grown, Reply.stream_append, written, front]
      simp [Reply.stream]
    · rw [Conversation.read, grown, Reply.answered_concat, ← last, turn, Reply.ends]
      cases reply.event.message.isTerminator <;> rfl
  · -- The backend has finished within the line, so that nothing comes behind it
    refine ⟨⟨sound.next, sound.written, .done finished rfl⟩, reply, found, ?_, last⟩
    exact .cutOff finished part decoded

-----------------------------------------------------------------------------------------
-- Those who ask
-----------------------------------------------------------------------------------------

/-- The queries since the client was passed on are all by one who has it now, and only such a query
is still to be answered.
-/
structure OwnedBy (talk : Conversation τ) (client : Client) (owner : τ) : Prop where
  within : talk.since ≤ talk.asked.length
  own : ∀ entry ∈ talk.asked.drop talk.since, entry.1 = owner
  busy : client.inFlight = true → talk.since < talk.asked.length

/-- Nobody's query is still to be answered where a free client is passed on. -/
theorem ownedBy_passOn (talk : Conversation τ) (free : client.inFlight = false) (owner : τ)
    : talk.passOn.OwnedBy client owner where
  within := Nat.le_refl _
  own := by simp [passOn]
  busy := by simp [free]

/-- The one who has the client may ask. -/
theorem OwnedBy.ask {owner : τ} (owned : talk.OwnedBy client owner) (query : Query)
    : (talk.ask owner query).OwnedBy after owner where
  within := by
    have within := owned.within
    simp only [Conversation.ask, List.length_append]
    omega
  own := by
    intro entry member
    rw [Conversation.ask, List.drop_append_of_le_length owned.within] at member
    rcases List.mem_append.mp member with earlier | last
    · exact owned.own entry earlier
    · rw [List.mem_singleton.mp last]
  busy := by
    intro _
    have within := owned.within
    simp only [Conversation.ask, List.length_append, List.length_singleton]
    omega

/-- A client that reads was asked by its owner. -/
theorem OwnedBy.read {owner : τ} (owned : talk.OwnedBy client owner)
    (busy : client.inFlight = true)
    : talk.read.OwnedBy after owner :=
  ⟨owned.within, owned.own, fun _ => owned.busy busy⟩

/-- Nothing that a backend does changes who has asked. -/
theorem OwnedBy.serve {served : Conversation τ} {owner : τ} (owned : talk.OwnedBy client owner)
    (asked : served.asked = talk.asked) (since : served.since = talk.since)
    (busy : after.inFlight = client.inFlight)
    : served.OwnedBy after owner where
  within := by simpa only [asked, since] using owned.within
  own := by simpa only [asked, since] using owned.own
  busy := by simpa only [asked, since, busy] using owned.busy

/-- The last query is the owner's, if it is still to be answered. -/
theorem OwnedBy.last {owner : τ} {number : Nat} (owned : talk.OwnedBy client owner)
    (busy : client.inFlight = true) (last : number + 1 = talk.asked.length)
    : talk.since ≤ number ∧ ∃ query, talk.asked[number]? = some (owner, query) := by
  have before := owned.busy busy
  have later : talk.since ≤ number := by omega
  have short : number < talk.asked.length := by omega
  refine ⟨later, (talk.asked[number]).2, ?_⟩
  have member : talk.asked[number] ∈ talk.asked.drop talk.since :=
    List.mem_drop_iff_getElem.mpr ⟨number - talk.since, by omega, by congr 1; omega⟩
  rw [List.getElem?_eq_getElem short, ← owned.own _ member]

end Conversation

end SourceView
