import SourceView.Proofs.Connection.Clients
import SourceView.Proofs.Connection.Exchanges

/-! Clients whose pipe is read ahead by a task of its own.
The task puts the messages into a queue that holds a few of them, from which they are taken when the
owner reads on. The owner cannot tell such a client from one that reads its pipe itself.
-/

namespace SourceView

-----------------------------------------------------------------------------------------
-- Messages that are read one after the other
-----------------------------------------------------------------------------------------

namespace Arrival

/-- A stream brings these messages one after the other, and leaves this behind them. -/
inductive Gives (flow : Flow) : List UInt8 → List Incoming → List UInt8 → Prop
  | none {stream} : Gives flow stream [] stream
  | next {stream message rest messages last} (brings : Brings flow stream message rest)
    (gives : Gives flow rest messages last)
    : Gives flow stream (message :: messages) last

variable {flow : Flow} {stream text rest last : List UInt8} {message : Incoming}
  {messages : List Incoming}

/-- What is brought next comes last, by induction on the messages before it. -/
theorem Gives.concat (gives : Gives flow stream messages rest)
    (brings : Brings flow rest message last)
    : Gives flow stream (messages ++ [message]) last := by
  induction gives with
  | none => exact .next brings .none
  | next before _ ih => exact .next before (ih brings)

/-- Where nothing was brought, the stream is as it was. -/
theorem Gives.eq_of_nil (gives : Gives flow stream [] last) : last = stream := by
  cases gives
  rfl

/-- The first of what was brought was brought first. -/
theorem Gives.exists_of_cons (gives : Gives flow stream (message :: messages) last)
    : ∃ rest, Brings flow stream message rest ∧ Gives flow rest messages last := by
  cases gives with
  | next brings gives => exact ⟨_, brings, gives⟩

/-- What comes behind a line does not change it, by induction on the stream line by line. -/
theorem of_append (arrived : of .running stream = .line text rest) (more : List UInt8)
    : of .running (stream ++ more) = .line text (rest ++ more) := by
  induction size : stream.length using Nat.strongRecOn generalizing stream with
  | ind size ih =>
      subst size
      cases cut : Text.cutLine? stream with
      | none =>
          rcases of_uncut .running cut with ⟨-, nothing⟩ | ⟨going, -⟩
          · exact absurd (nothing.symm.trans arrived) Flow.arrival_ne_line
          · cases going
      | some parts =>
          obtain ⟨line, behind⟩ := parts
          have cutToo := Text.cutLine?_append cut more
          cases blank : isBlankLine line with
          | true =>
              rw [of_blank cut blank] at arrived
              rw [of_blank cutToo blank]
              obtain ⟨-, -, shorter⟩ := Text.byteLines_of_cutLine? cut
              exact ih _ shorter arrived rfl
          | false =>
              rw [of_solid cut blank] at arrived
              cases arrived
              exact of_solid cutToo blank

/-- A line that has arrived stays one when the stream comes to its end. -/
theorem of_stopped (arrived : of .running stream = .line text rest) (later : Flow)
    : of later stream = .line text rest := by
  unfold of at arrived ⊢
  split at arrived
  · cases arrived
  · next front behind cut =>
      split at arrived
      · next whole =>
          simp only [reduceCtorEq, decide_false, Bool.false_or] at whole
          rw [if_pos (by rw [whole, Bool.or_true])]
          exact arrived
      · cases arrived

/-- What a stream brings that goes on, it brings when more comes behind it and it stops. -/
theorem Brings.extend (brings : Brings .running stream message rest) (more : List UInt8)
    (later : Flow)
    : Brings later (stream ++ more) message (rest ++ more) := by
  cases brings with
  | line arrived => exact .line (of_stopped (of_append arrived more) later)
  | failed arrived =>
      obtain ⟨going, -⟩ := lines_of_arrival (.broken _) arrived
      cases going

/-- What was read of a stream that goes on stays so, by induction on the messages. -/
theorem Gives.extend (gives : Gives .running stream messages rest) (more : List UInt8)
    (later : Flow)
    : Gives later (stream ++ more) messages (rest ++ more) := by
  induction gives with
  | none => exact .none
  | next brings _ ih => exact .next (brings.extend more later) ih

/-- What a backend does comes behind the messages that were read. -/
theorem Gives.served {pipe next : Pipe} {deed : Deed}
    (gives : Gives pipe.flow pipe.inbound messages rest) (done : pipe.undergo? deed = some next)
    : Gives next.flow next.inbound messages (rest ++ deed.bytes) := by
  obtain ⟨inbound, flow, silent⟩ := Pipe.undergo?_inbound done
  rw [inbound, flow]
  by_cases going : pipe.flow = .running
  · rw [going] at gives ⊢
    exact gives.extend deed.bytes deed.flow
  · rw [Flow.or_of_ne_running going, silent going, List.append_nil, List.append_nil]
    exact gives

end Arrival

namespace Client

/-- What a client may expect does not depend on what there is to be read. -/
theorem phase_leaving (client : Client) (inbound : List UInt8)
    : (client.leaving inbound).phase = client.phase := rfl

/-- What a client answers to a query does not depend on what there is to be read. -/
theorem ask_leaving (client : Client) (query : Query) (inbound : List UInt8)
    : (client.leaving inbound).ask query
      = ((client.ask query).1, (client.ask query).2.leaving inbound) := by
  cases phase : client.phase with
  | dead ending =>
      rw [ask_of_dead phase]
      exact ask_of_dead phase
  | busy =>
      rw [ask_of_busy phase]
      exact ask_of_busy phase
  | idle =>
      obtain ⟨alive, free⟩ := phase_eq_idle.mp phase
      unfold ask leaving Pipe.write?
      cases deserted : client.pipe.deserted with
      | true => simp [alive, free, fail, Pipe.close]
      | false => simp [alive, free]

/-- To send a query leaves what there is to be read. -/
theorem inbound_ask (client : Client) (query : Query)
    : (client.ask query).2.pipe.inbound = client.pipe.inbound
      ∧ (client.ask query).2.pipe.flow = client.pipe.flow := by
  cases phase : client.phase with
  | dead ending =>
      rw [ask_of_dead phase]
      exact ⟨rfl, rfl⟩
  | busy =>
      rw [ask_of_busy phase]
      exact ⟨rfl, rfl⟩
  | idle =>
      rcases ask_of_idle query phase with ⟨-, sent⟩ | ⟨-, failed⟩
      · rw [sent]
        exact ⟨rfl, rfl⟩
      · rw [failed]
        exact ⟨rfl, rfl⟩

/-- To begin a query does not depend on what there is to be read. -/
theorem begin?_leaving (client : Client) (query : Query) (count : Nat) (inbound : List UInt8)
    : (client.leaving inbound).begin? query count
      = (client.begin? query count).map (leaving · inbound) := by
  unfold begin? Pipe.write?
  rw [phase_leaving]
  split
  · change Option.map _ (if client.pipe.deserted = true then _ else _) = _
    split <;> rfl
  · rfl

/-- What a client makes of a message does not depend on what stands behind it. -/
theorem take_leaving (client : Client) (message : Incoming) (inbound : List UInt8)
    : (client.leaving inbound).take message
      = ((client.take message).1, (client.take message).2.leaving inbound) := by
  rcases message with cause | message
  · rfl
  · cases message <;> rfl

end Client

-----------------------------------------------------------------------------------------
-- Reading ahead
-----------------------------------------------------------------------------------------

/-- A client with the task that reads its pipe. -/
structure ReadAhead where
  /-- The client, with what the task has left in the pipe. -/
  client : Client
  /-- The messages that the owner has not taken, the first one to be taken first. -/
  queue : List Incoming := []
  /-- What the task has read and waits to put into the queue. -/
  hand : Option Incoming := none
  /-- The task has ended. -/
  halted : Bool := false

namespace ReadAhead

/-- How many messages the queue holds. -/
def capacity : Nat := 64

/-! ### The task -/

/-- The task reads the next line. It ends when there is none. A failure is passed on like a message.
-/
def read? (state : ReadAhead) : Option ReadAhead :=
  if state.halted || state.hand.isSome then none
  else
    match state.client.pipe.receive with
    | (.awaited, _) => none
    | (.ended, _) => some { state with halted := true }
    | (.failed cause, pipe) =>
      some {
        state with
        client := { state.client with pipe }
        hand := some (.error (.broken cause)) }
    | (.line text _, pipe) =>
      some {
        state with
        client := { state.client with pipe }
        hand := some (BackendMessage.decode text) }

/-- The task puts the message that it has read into the queue when there is room. It ends behind
what could not be read, and when nobody takes messages any more.
-/
def push? (state : ReadAhead) : Option ReadAhead :=
  match state.hand with
  | none => none
  | some message =>
    if state.client.ending.isSome then some { state with hand := none, halted := true }
    else if state.queue.length < capacity then
      some {
        state with
        queue := state.queue ++ [message]
        hand := none
        halted := match message with
          | .error _ => true
          | .ok _ => state.halted }
    else none

/-! ### The owner -/

/-- Send a query. -/
def ask (state : ReadAhead) (query : Query) : Except ClientError Unit × ReadAhead :=
  let (answer, client) := state.client.ask query
  (answer, { state with client })

/-- The message that is taken when the owner reads on, if there is one. -/
def front? (state : ReadAhead) : Option Incoming :=
  match state.client.phase with
  | .busy => state.queue.head?
  | _ => none

/-- Read the next part of the answer, if the task has put it into the queue. -/
def nextEvent? (state : ReadAhead) : Option (Except ClientError QueryEvent × ReadAhead) :=
  match state.client.ending with
  | some ending => some (.error (.closed ending), state)
  | none =>
    if !state.client.inFlight then some (.error .idle, state)
    else
      match state.queue with
      | message :: queue =>
        let (outcome, client) := state.client.take message
        some (outcome, { state with client, queue })
      | [] =>
        if state.halted then
          some (.error (.fault .disconnected),
            { state with client := state.client.fail .disconnected })
        else none

/-! ### Everyone -/

/-- One step of anyone, with what it shows to the owner and to the backend. -/
inductive Step : ReadAhead → List Exchange → ReadAhead → Prop
  | served {state deed pipe} (done : state.client.pipe.undergo? deed = some pipe)
    : Step state [.served deed] { state with client := { state.client with pipe } }
  -- The task
  | read {state after} (read : state.read? = some after) : Step state [] after
  | push {state after} (pushed : state.push? = some after) : Step state [] after
  | abort {state} (dead : state.client.ending.isSome = true)
    : Step state [] { state with hand := none, halted := true }
  -- The owner
  | asked {state query answer after} (asked : state.ask query = (answer, after))
    : Step state [.asked query answer] after
  | begun {state query count client} (begun : state.client.begin? query count = some client)
    : Step state [.begun query count] { state with client }
  | told {state outcome after} (told : state.nextEvent? = some (outcome, after))
    : Step state [.told state.front? outcome] after
  | gaveUp {state} : Step state [.gaveUp] state

/-- Steps, one after the other. -/
inductive Run (first : ReadAhead) : List Exchange → ReadAhead → Prop
  | none : Run first [] first
  | next {history middle exchanges final} (run : Run first history middle)
    (step : Step middle exchanges final)
    : Run first (history ++ exchanges) final

/-- The task can do nothing. -/
structure Settled (state : ReadAhead) : Prop where
  read : state.read? = none
  push : state.push? = none

/-- The owner cannot tell a client that is read ahead from one that reads its pipe itself. The
messages that were read ahead stand in the queue.
-/
structure Follows (state : ReadAhead) (plain : Client) : Prop where
  same : state.client = plain.leaving state.client.pipe.inbound
  ahead
    : plain.ending = none
      → Arrival.Gives plain.pipe.flow plain.pipe.inbound (state.queue ++ state.hand.toList)
        state.client.pipe.inbound
  halted
    : plain.ending = none
      → state.halted = true
      → state.hand = none
        ∧ ((∃ cause, state.queue.getLast? = some (.error cause))
          ∨ Arrival.of plain.pipe.flow state.client.pipe.inbound = .ended)

-----------------------------------------------------------------------------------------
-- The task is not noticed
-----------------------------------------------------------------------------------------

variable {state after : ReadAhead} {plain : Client} {query : Query}

/-- At the beginning nothing was read ahead. -/
theorem follows_new (client : Client) : Follows { client } client where
  same := rfl
  ahead := fun _ => .none
  halted := nofun

/-- The owner may expect the same of either client. -/
theorem Follows.phase (follows : state.Follows plain) : state.client.phase = plain.phase := by
  rw [follows.same]
  rfl

/-- Either client is dead if the other one is. -/
theorem Follows.dead (follows : state.Follows plain) (dead : state.client.ending.isSome = true)
    : plain.ending ≠ none := by
  rw [follows.same] at dead
  exact Option.isSome_iff_ne_none.mp dead

/-- A backend does the same to either pipe. -/
theorem exists_undergo? {pipe other next : Pipe} {deed : Deed} {inbound : List UInt8}
    (same : pipe = { other with inbound }) (done : pipe.undergo? deed = some next)
    : ∃ after,
        other.undergo? deed = some after
        ∧ next = { after with inbound := inbound ++ deed.bytes } := by
  subst same
  cases deed with
  | send bytes =>
      change Pipe.send? _ bytes = some next at done
      change ∃ after, other.send? bytes = some after ∧ _
      unfold Pipe.send? at done ⊢
      split at done
      · cases done
      · next going =>
          cases done
          exact ⟨_, if_neg going, rfl⟩
  | finish | hangUp | collect | breakOff =>
      cases done
      exact ⟨_, rfl, by rw [Deed.bytes, List.append_nil]; rfl⟩

/-- What a backend does is not read by the task before it goes on. -/
theorem Follows.served {deed : Deed} {pipe : Pipe} (follows : state.Follows plain)
    (done : state.client.pipe.undergo? deed = some pipe)
    : ∃ next,
        plain.pipe.undergo? deed = some next
        ∧ Follows { state with client := { state.client with pipe } }
          { plain with pipe := next } := by
  have same := congrArg Client.pipe follows.same
  obtain ⟨next, doneToo, rfl⟩ := exists_undergo? same done
  obtain ⟨-, flow, silent⟩ := Pipe.undergo?_inbound doneToo
  refine ⟨next, doneToo, ⟨?_, fun alive => ?_, fun alive halted => ?_⟩⟩
  · rw [follows.same]
    rfl
  · exact (follows.ahead alive).served doneToo
  · obtain ⟨free, last | ended⟩ := follows.halted alive halted
    · exact ⟨free, .inl last⟩
    · obtain ⟨finished, -⟩ := Arrival.lines_of_arrival .finished ended
      have stopped : plain.pipe.flow ≠ .running := by simp [finished]
      refine ⟨free, .inr ?_⟩
      dsimp only
      rw [flow, silent stopped, List.append_nil, Flow.or_of_ne_running stopped]
      exact ended

/-- What the task takes in its hand comes behind all that it has read before. -/
theorem Follows.grasp {message : Incoming} {rest : List UInt8} {pipe : Pipe}
    (follows : state.Follows plain) (going : ¬ state.halted = true) (free : state.hand = none)
    (brings : Arrival.Brings state.client.pipe.flow state.client.pipe.inbound message rest)
    (left : pipe = { state.client.pipe with inbound := rest })
    : Follows { state with client := { state.client with pipe }, hand := some message } plain := by
  subst left
  refine ⟨?_, fun alive => ?_, fun _ halted => absurd halted going⟩
  · rw [follows.same]
    rfl
  · have gives := follows.ahead alive
    rw [free, Option.toList_none, List.append_nil] at gives
    rw [follows.same] at brings
    exact gives.concat brings

/-- What the task reads stands next in the pipe, by cases on what it receives. -/
theorem Follows.read (follows : state.Follows plain) (read : state.read? = some after)
    : after.Follows plain := by
  unfold read? at read
  split at read
  · cases read
  · next goes =>
      rw [Bool.or_eq_true, not_or, Option.not_isSome_iff_eq_none] at goes
      obtain ⟨going, free⟩ := goes
      cases arrived : Arrival.of state.client.pipe.flow state.client.pipe.inbound with
      | awaited =>
          rw [Pipe.receive_of_arrival .running arrived] at read
          cases read
      | ended =>
          rw [Pipe.receive_of_arrival .finished arrived] at read
          cases read
          rw [follows.same] at arrived
          exact ⟨follows.same, follows.ahead, fun _ _ => ⟨free, .inr arrived⟩⟩
      | failed cause =>
          rw [Pipe.receive_of_arrival (.broken cause) arrived] at read
          cases read
          exact follows.grasp going free (.failed arrived) rfl
      | line text rest =>
          rw [Pipe.receive_of_line arrived] at read
          cases read
          exact follows.grasp going free (.line arrived) rfl

/-- Of a client that is dead the task may end at any time. -/
theorem Follows.abort (follows : state.Follows plain) (dead : state.client.ending.isSome = true)
    : Follows { state with hand := none, halted := true } plain := by
  have gone := follows.dead dead
  exact ⟨follows.same, fun alive => absurd alive gone, fun alive => absurd alive gone⟩

/-- What the task puts into the queue comes behind what stands there. -/
theorem Follows.push (follows : state.Follows plain) (pushed : state.push? = some after)
    : after.Follows plain := by
  unfold push? at pushed
  split at pushed
  · cases pushed
  · next message waits =>
      split at pushed
      · next dead =>
          cases pushed
          exact follows.abort dead
      · split at pushed
        · cases pushed
          refine ⟨follows.same, fun alive => ?_, fun alive halted => ⟨rfl, .inl ?_⟩⟩
          · have gives := follows.ahead alive
            rw [waits] at gives
            simpa using gives
          · cases message with
            | error cause => exact ⟨cause, List.getLast?_concat⟩
            | ok =>
                have free := (follows.halted alive halted).1
                cases waits.symm.trans free
        · cases pushed

/-- Either client answers the same to a query. -/
theorem Follows.asked {answer : Except ClientError Unit} (follows : state.Follows plain)
    (asked : state.ask query = (answer, after))
    : ∃ next, plain.ask query = (answer, next) ∧ after.Follows next := by
  obtain ⟨inbound, flow⟩ := plain.inbound_ask query
  rw [ask, follows.same, Client.ask_leaving] at asked
  cases asked
  refine ⟨(plain.ask query).2, rfl, rfl, fun alive => ?_, fun alive halted => ?_⟩
  · rw [inbound, flow]
    exact follows.ahead (Client.ending_ask alive)
  · rw [flow]
    exact follows.halted (Client.ending_ask alive) halted

/-- Either client begins a query if the other one does. -/
theorem Follows.begun {count : Nat} {client : Client} (follows : state.Follows plain)
    (begun : state.client.begin? query count = some client)
    : ∃ next, plain.begin? query count = some next ∧ Follows { state with client } next := by
  rw [follows.same, Client.begin?_leaving] at begun
  obtain ⟨next, begunToo, rfl⟩ := Option.map_eq_some_iff.mp begun
  obtain ⟨-, -, rfl⟩ := Client.begin?_eq_some begunToo
  exact ⟨_, begunToo, rfl, follows.ahead, follows.halted⟩

/-- A client that is dead tells so. -/
theorem nextEvent?_of_dead {ending : Ending} (dead : state.client.phase = .dead ending)
    : state.nextEvent? = some (.error (.closed ending), state) := by
  rw [nextEvent?, Client.phase_eq_dead.mp dead]

/-- A client that has not been asked tells so. -/
theorem nextEvent?_of_idle (idle : state.client.phase = .idle)
    : state.nextEvent? = some (.error .idle, state) := by
  obtain ⟨alive, free⟩ := Client.phase_eq_idle.mp idle
  rw [nextEvent?, alive, free]
  rfl

/-- A client that is busy takes what stands in the queue, and notices when the task has ended. -/
theorem nextEvent?_of_busy (busy : state.client.phase = .busy)
    : state.nextEvent?
      = match state.queue with
        | message :: queue =>
          some ((state.client.take message).1,
            { state with client := (state.client.take message).2, queue })
        | [] =>
          if state.halted then
            some (.error (.fault .disconnected),
              { state with client := state.client.fail .disconnected })
          else none := by
  obtain ⟨alive, inFlight⟩ := Client.phase_eq_busy.mp busy
  rw [nextEvent?, alive, inFlight]
  rfl

/-- The message that is taken from the queue stands next in the pipe. -/
theorem Follows.take {message : Incoming} {queue : List Incoming} (follows : state.Follows plain)
    (busy : plain.phase = .busy) (stands : state.queue = message :: queue)
    : plain.front? = some message
      ∧ ∃ next,
        plain.nextEvent? = some (message.told, next)
        ∧ Follows { state with client := (state.client.take message).2, queue } next := by
  obtain ⟨alive, -⟩ := Client.phase_eq_busy.mp busy
  have gives := follows.ahead alive
  rw [stands, List.cons_append] at gives
  obtain ⟨rest, brings, gives⟩ := gives.exists_of_cons
  obtain ⟨next, front⟩ := Client.nextEvent?_of_brings busy brings
  obtain ⟨left, still⟩ := Client.inbound_take (plain.leaving rest) message
  obtain ⟨behind, -⟩ := Client.inbound_take state.client message
  refine ⟨front, _, next, ?_, fun _ => ?_, fun goesOn halted => ?_⟩
  · have same : state.client = (plain.leaving rest).leaving state.client.pipe.inbound :=
      follows.same
    dsimp only
    rw [same, Client.take_leaving]
    rfl
  · dsimp only
    rw [left, still, behind]
    exact gives
  · obtain ⟨free, ⟨cause, last⟩ | ended⟩ := follows.halted alive halted
    · refine ⟨free, .inl ⟨cause, ?_⟩⟩
      rw [stands] at last
      cases queue with
      | cons => exact last
      | nil =>
          -- A client that has taken the last message, which could not be read, is dead
          rw [List.getLast?_singleton, Option.some.injEq] at last
          rw [last] at goesOn
          cases goesOn
    · refine ⟨free, .inr ?_⟩
      dsimp only
      rw [still, behind]
      exact ended

/-- When the task has ended and everything was taken that it has read, the pipe has ended. -/
theorem Follows.receive_of_halted (follows : state.Follows plain) (alive : plain.ending = none)
    (halted : state.halted = true) (empty : state.queue = [])
    : plain.pipe.receive = (.ended, plain.pipe) := by
  obtain ⟨free, ⟨cause, last⟩ | ended⟩ := follows.halted alive halted
  · rw [empty] at last
    cases last
  · have gives := follows.ahead alive
    rw [empty, free] at gives
    rw [gives.eq_of_nil] at ended
    exact Pipe.receive_of_arrival .finished ended

/-- When both clients have failed in the same way, nothing is left to be read by either. -/
theorem Follows.fail (follows : state.Follows plain) (fault : Fault)
    : Follows { state with client := state.client.fail fault } (plain.fail fault) where
  same := by
    rw [follows.same]
    rfl
  ahead := nofun
  halted := nofun

/-- Either client tells the same, by cases on what it may tell. -/
theorem Follows.told {outcome : Except ClientError QueryEvent} (follows : state.Follows plain)
    (told : state.nextEvent? = some (outcome, after))
    : ∃ next,
        plain.nextEvent? = some (outcome, next)
        ∧ plain.front? = state.front?
        ∧ after.Follows next := by
  cases phase : plain.phase with
  | dead ending =>
      have phaseToo := follows.phase.trans phase
      rw [nextEvent?_of_dead phaseToo] at told
      cases told
      exact ⟨plain, Client.nextEvent?_of_dead phase,
        by rw [Client.front?, front?, phase, phaseToo], follows⟩
  | idle =>
      have phaseToo := follows.phase.trans phase
      rw [nextEvent?_of_idle phaseToo] at told
      cases told
      exact ⟨plain, Client.nextEvent?_of_idle phase,
        by rw [Client.front?, front?, phase, phaseToo], follows⟩
  | busy =>
      have phaseToo := follows.phase.trans phase
      rw [nextEvent?_of_busy phaseToo] at told
      split at told
      · next message queue stands =>
          cases told
          obtain ⟨front, next, same, followsToo⟩ := follows.take phase stands
          refine ⟨next, ?_, ?_, followsToo⟩
          · rw [Client.told_take]
            exact same
          · rw [front, front?, phaseToo, stands]
            rfl
      · next stands =>
          split at told
          · next halted =>
              cases told
              obtain ⟨alive, inFlight⟩ := Client.phase_eq_busy.mp phase
              have received := follows.receive_of_halted alive halted stands
              refine ⟨plain.fail .disconnected, ?_, ?_, follows.fail .disconnected⟩
              · rw [Client.nextEvent?_of_busy alive inFlight, received]
              · rw [Client.front?, front?, phase, phaseToo, stands, received]
                rfl
          · cases told

/-- Each step is one that a client which reads its pipe itself can go along with, by cases on the
step.
-/
theorem Step.exists_sees {first : Client} {history exchanges : List Exchange}
    (step : Step state exchanges after) (sees : first.Sees history plain)
    (follows : state.Follows plain)
    : ∃ next, first.Sees (history ++ exchanges) next ∧ after.Follows next := by
  cases step with
  | served done =>
      obtain ⟨next, doneToo, followsToo⟩ := follows.served done
      exact ⟨_, sees.next (.served doneToo), followsToo⟩
  | read read =>
      rw [List.append_nil]
      exact ⟨plain, sees, follows.read read⟩
  | push pushed =>
      rw [List.append_nil]
      exact ⟨plain, sees, follows.push pushed⟩
  | abort dead =>
      rw [List.append_nil]
      exact ⟨plain, sees, follows.abort dead⟩
  | asked asked =>
      obtain ⟨next, asked, followsToo⟩ := follows.asked asked
      exact ⟨next, sees.next (.asked asked), followsToo⟩
  | begun begun =>
      obtain ⟨next, begun, followsToo⟩ := follows.begun begun
      exact ⟨next, sees.next (.begun begun), followsToo⟩
  | told told =>
      obtain ⟨next, toldToo, front, followsToo⟩ := follows.told told
      exact ⟨next, front ▸ sees.next (.told toldToo), followsToo⟩
  | gaveUp => exact ⟨plain, sees.next .gaveUp, follows⟩

/-- Whatever happens to a client that is read ahead can happen to one that reads its pipe itself, by
induction on the steps.
-/
theorem Run.exists_sees {client : Client} {before history : List Exchange} {final : ReadAhead}
    (run : Run state history final) (sees : client.Sees before plain)
    (follows : state.Follows plain)
    : ∃ next, client.Sees (before ++ history) next ∧ final.Follows next := by
  induction run with
  | none =>
      rw [List.append_nil]
      exact ⟨plain, sees, follows⟩
  | next _ step ih =>
      obtain ⟨next, seesToo, followsToo⟩ := ih
      rw [← List.append_assoc]
      exact step.exists_sees seesToo followsToo

end ReadAhead

end SourceView
