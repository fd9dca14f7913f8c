import SourceView.Proofs.Connection.ReadAhead

/-! What the owner of a connection is told from its beginning on.
The task that reads ahead comes to rest by itself, and then the owner waits only for what has not
arrived.
-/

namespace SourceView

namespace ReadAhead

variable {state after : ReadAhead} {plain : Client}

-----------------------------------------------------------------------------------------
-- The task comes to rest
-----------------------------------------------------------------------------------------

/-- A bound on the steps that the task can take by itself. What could not be read is the last that
it takes in its hand.
-/
def weight (state : ReadAhead) : Nat :=
  2 * state.client.pipe.inbound.length
    + match state.hand with
      | none => if state.halted then 0 else 3
      | some (.ok _) => 4
      | some (.error _) => 2

/-- Reading brings the task nearer to its rest, by cases on what it receives. -/
theorem weight_read (read : state.read? = some after) : after.weight < state.weight := by
  unfold read? at read
  split at read
  · cases read
  · next goes =>
      rw [Bool.or_eq_true, not_or, Bool.not_eq_true, Option.not_isSome_iff_eq_none] at goes
      obtain ⟨going, free⟩ := goes
      cases arrived : Arrival.of state.client.pipe.flow state.client.pipe.inbound with
      | awaited =>
          rw [Pipe.receive_of_arrival .running arrived] at read
          cases read
      | ended =>
          rw [Pipe.receive_of_arrival .finished arrived] at read
          cases read
          simp [weight, going, free]
      | failed cause =>
          rw [Pipe.receive_of_arrival (.broken cause) arrived] at read
          cases read
          simp [weight, going, free]
      | line text rest =>
          rw [Pipe.receive_of_line arrived] at read
          cases read
          have shorter := Arrival.length_lt arrived
          cases BackendMessage.decode text with
          | error | ok =>
              simp [weight, going, free]
              omega

/-- Putting a message into the queue brings the task nearer to its rest. -/
theorem weight_push (pushed : state.push? = some after) : after.weight < state.weight := by
  unfold push? at pushed
  split at pushed
  · cases pushed
  · next message waits =>
      split at pushed
      · cases pushed
        cases message with
        | error | ok => simp [weight, waits]
      · split at pushed
        · cases pushed
          cases message with
          | error => simp [weight, waits]
          | ok =>
              simp only [weight, waits]
              split <;> omega
        · cases pushed

/-- The task comes to rest by itself, by induction on the bound. -/
theorem Run.exists_settled {first : ReadAhead} (run : Run first [] state)
    : ∃ settled, Run first [] settled ∧ settled.Settled := by
  induction size : state.weight using Nat.strongRecOn generalizing state with
  | ind size ih =>
      subst size
      cases read : state.read? with
      | some after =>
          have later := run.next (.read read)
          rw [List.append_nil] at later
          exact ih _ (weight_read read) later rfl
      | none =>
          cases pushed : state.push? with
          | some after =>
              have later := run.next (.push pushed)
              rw [List.append_nil] at later
              exact ih _ (weight_push pushed) later rfl
          | none => exact ⟨state, run, read, pushed⟩

/-- A task at rest with an empty queue has nothing in its hand. -/
theorem Settled.free (settled : state.Settled) (stands : state.queue = []) : state.hand = none := by
  have resting := settled.push
  unfold push? at resting
  split at resting
  · assumption
  · split at resting
    · cases resting
    · rw [stands] at resting
      cases resting

/-- When the task is at rest, the owner is told whatever a client tells that reads its pipe itself.
-/
theorem Settled.waits (settled : state.Settled) (follows : state.Follows plain)
    (waits : state.nextEvent? = none)
    : plain.nextEvent? = none := by
  cases phase : plain.phase with
  | dead ending =>
      rw [nextEvent?_of_dead (follows.phase.trans phase)] at waits
      cases waits
  | idle =>
      rw [nextEvent?_of_idle (follows.phase.trans phase)] at waits
      cases waits
  | busy =>
      obtain ⟨alive, inFlight⟩ := Client.phase_eq_busy.mp phase
      rw [nextEvent?_of_busy (follows.phase.trans phase)] at waits
      split at waits
      · cases waits
      · next stands =>
          split at waits
          · cases waits
          · next going =>
              have free := settled.free stands
              have resting := settled.read
              unfold read? at resting
              rw [if_neg (by simp [going, free])] at resting
              have gives := follows.ahead alive
              rw [stands, free] at gives
              have same : state.client = plain := by
                rw [follows.same, gives.eq_of_nil]
                rfl
              rw [same] at resting
              rw [Client.nextEvent?_of_busy alive inFlight]
              cases received : plain.pipe.receive with
              | mk arrival _ =>
                  rw [received] at resting
                  cases arrival with
                  | awaited => rfl
                  | ended | failed | line => cases resting

-----------------------------------------------------------------------------------------
-- A connection from its beginning
-----------------------------------------------------------------------------------------

/-- What a connection comes to is what its first line tells, if it arrives in time. From then on the
owner is told faithfully of what stands behind that line, just like the owner of a client that reads
its pipe itself, who can ask and read on in one go. Once the task has come to rest, the owner waits
only for what has not arrived.
-/
theorem connection_read_faithfully (opened : Pipe) (arrivals : List (Nat × Deed))
    : (awaitGreeting opened arrivals).map Client.greeting
        = greetingIn (opened.after (inTime arrivals)).flow
            (opened.after (inTime arrivals)).inbound
      ∧ ∀ client,
        awaitGreeting opened arrivals = .ok client
        → ∃ heard,
          heard <+: inTime arrivals
          ∧ (∃ line,
            client.pipe.HasRead (opened.after heard).inbound [line]
            ∧ BackendMessage.decode line = .ok (.info client.greeting))
          ∧ ∀ history final,
            Run { client } history final
            → Exchange.Faithful (opened.after heard) history
              ∧ (∃ plain,
                client.Sees history plain
                ∧ ∀ query, ∃ more, client.Sees (history ++ more) (plain.search query).2)
              ∧ ∃ settled,
                Run final [] settled
                ∧ (settled.nextEvent? = none
                  → Phase.afterAll history = .busy
                    ∧ (opened.after heard).flow.or (Exchange.flow history) = .running
                    ∧ Exchange.taken history
                      = Exchange.messages (opened.after heard) history) := by
  refine ⟨greeting_awaitGreeting opened arrivals, fun client greeted => ?_⟩
  obtain ⟨heard, within, told⟩ := exists_handshake?_of_awaitGreeting greeted
  obtain ⟨line, read, decoded, -⟩ := Client.reads_of_handshake? told
  refine ⟨heard, within, ⟨line, read, decoded⟩, fun history final run => ?_⟩
  obtain ⟨plain, sees, follows⟩ := run.exists_sees .none (follows_new client)
  obtain ⟨abreast, faithful⟩ := sees.faithful told
  refine ⟨faithful, ⟨plain, sees, sees.search⟩, ?_⟩
  obtain ⟨settled, rests, rest⟩ := (Run.none : Run final [] final).exists_settled
  refine ⟨settled, rests, fun waits => ?_⟩
  obtain ⟨other, seesToo, followsToo⟩ := rests.exists_sees sees follows
  rw [List.append_nil] at seesToo
  exact (seesToo.faithful told).1.waits (rest.waits followsToo waits)

/-- A client that was greeted. -/
def newClient : Client := { greeting := { name := "a" }, pipe := {} }

/-- The greeting that comes after five milliseconds makes a client. -/
theorem awaitGreeting_newClient
    : awaitGreeting {} [(5, .send (BackendMessage.info { name := "a" }).envelope.line)]
      = .ok newClient := by
  have awaited : Client.handshake? {} = none := rfl
  have greeted := Client.handshake?_of_line { name := "a" } []
  rw [List.append_nil] at greeted
  rw [awaitGreeting, awaited]
  exact awaitGreeting_of_handshake? greeted []

/-- The client when it was asked, with what is written on its connection. -/
def askedClient (inbound : List UInt8) : Client where
  greeting := newClient.greeting
  pipe := { inbound, outbound := Query.envelope { line := "x" } |>.line }
  inFlight := true

/-- The client is greeted in time and is asked, and the backend refuses the query. -/
theorem read_of_refusal
    : ∃ client history final pipe,
        awaitGreeting {} [(5, .send (BackendMessage.info { name := "a" }).envelope.line)]
          = .ok client
        ∧ Run { client } history final
        ∧ Exchange.taken history = [.ok (.error "y")]
        ∧ Exchange.Faithful pipe history := by
  have asked : Step { client := newClient } [.asked { line := "x" } (.ok ())]
      { client := askedClient [] } := .asked rfl
  have served : Step { client := askedClient [] }
      [.served (.send (BackendMessage.error "y").envelope.line)]
      { client := askedClient (BackendMessage.error "y").envelope.line } := .served rfl
  have read : Step { client := askedClient (BackendMessage.error "y").envelope.line } []
      { client := askedClient [], hand := some (.ok (.error "y")) } := by
    have arrived := BackendMessage.of_line (.error "y") .running []
    rw [List.append_nil] at arrived
    have decoded := BackendMessage.decode_line (.error "y")
    refine .read ?_
    rw [read?, askedClient, Pipe.receive, arrived]
    dsimp only
    rw [decoded]
    rfl
  have pushed : Step { client := askedClient [], hand := some (.ok (.error "y")) } []
      { client := askedClient [], queue := [.ok (.error "y")] } := .push rfl
  have told : Step { client := askedClient [], queue := [.ok (.error "y")] }
      [.told (some (.ok (.error "y"))) (.ok (.failed "y"))]
      { client := { askedClient [] with inFlight := false } } := .told rfl
  have run := ((((Run.none.next asked).next served).next read).next pushed).next told
  obtain ⟨-, goesOn⟩ := connection_read_faithfully {}
    [(5, .send (BackendMessage.info { name := "a" }).envelope.line)]
  obtain ⟨heard, -, -, faithful⟩ := goesOn newClient awaitGreeting_newClient
  exact ⟨newClient, _, _, _, awaitGreeting_newClient, run, rfl, (faithful _ _ run).1⟩

end ReadAhead

end SourceView
