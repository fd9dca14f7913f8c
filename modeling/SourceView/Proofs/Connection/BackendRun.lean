import SourceView.Message.Browser
import SourceView.Proofs.Connection.Reading

/-! What a backend yields in answer to a query.
A client that was asked reads the results one after the other, and notices what stands behind them.
-/

namespace SourceView

-----------------------------------------------------------------------------------------
-- Runs
-----------------------------------------------------------------------------------------

/-- A query that was sent to a client, with all that there has been to read since. -/
structure BackendRun (κ : Type) where
  request : SearchRequest
  client : κ
  stream : List UInt8
  flow : Flow

/-- Cut messages where the first one stands that is no result. -/
def BackendMessage.cutResults
    : List (Except CodecError BackendMessage)
      → List Match × List (Except CodecError BackendMessage)
  | .ok (.result found) :: rest =>
    let (more, behind) := cutResults rest
    (found :: more, behind)
  | other => ([], other)

namespace BackendRun

variable {κ : Type}

/-- The messages that have arrived. -/
def messages (run : BackendRun κ) : List (Except CodecError BackendMessage) :=
  (Arrival.lines run.flow run.stream).map BackendMessage.decode

/-- The results that the backend has yielded. -/
def yielded (run : BackendRun κ) : List Match :=
  (BackendMessage.cutResults run.messages).1

/-- The backend has ended its answer behind the results. -/
def Ended (run : BackendRun κ) : Prop :=
  (∃ stats, (BackendMessage.cutResults run.messages).2.head? = some (.ok (.stats stats)))
  ∨ ∃ text, (BackendMessage.cutResults run.messages).2.head? = some (.ok (.error text))

/-- A run of which more can be read. -/
def extend (run : BackendRun κ) (bytes : List UInt8) (flow : Flow) : BackendRun κ :=
  { run with stream := run.stream ++ bytes, flow }

end BackendRun

/-- Results in front of messages are cut off with those that follow them, by induction on the
results.
-/
theorem BackendMessage.cutResults_append (read : List Match)
    (rest : List (Except CodecError BackendMessage))
    : cutResults (read.map (fun found => .ok (.result found)) ++ rest)
      = (read ++ (cutResults rest).1, (cutResults rest).2) := by
  induction read with
  | nil => rfl
  | cons found read ih => simp [cutResults, ih]

-----------------------------------------------------------------------------------------
-- Reading a run
-----------------------------------------------------------------------------------------

section Reading

variable {κ : Type} {client after : Client} {run : BackendRun κ} {read : List Match}

/-- All that has arrived are results. -/
theorem BackendRun.yielded_of_results
    (arrived : run.messages = read.map fun found => .ok (.result found))
    : run.yielded = read ∧ ¬ run.Ended := by
  have cut := BackendMessage.cutResults_append read []
  rw [List.append_nil, ← arrived] at cut
  simp [yielded, Ended, cut, BackendMessage.cutResults]

/-- Behind the results something else has arrived. -/
theorem BackendRun.yielded_of_concluded {message : Except CodecError BackendMessage}
    {rest : List (Except CodecError BackendMessage)}
    (arrived : run.messages = read.map (fun found => .ok (.result found)) ++ message :: rest)
    (concluded : ∀ found, message ≠ .ok (.result found))
    : run.yielded = read
      ∧ (run.Ended
        ↔ (∃ stats, message = .ok (.stats stats)) ∨ ∃ text, message = .ok (.error text)) := by
  have uncut : BackendMessage.cutResults (message :: rest) = ([], message :: rest) := by
    unfold BackendMessage.cutResults
    split
    · next found _ same => exact absurd (List.cons.inj same).1 (concluded found)
    · rfl
  have cut := BackendMessage.cutResults_append read (message :: rest)
  rw [uncut, ← arrived] at cut
  simp [yielded, Ended, cut]

namespace Client

/-- A client has read these results of a run, which it goes on reading. -/
structure Listens (client : Client) (run : BackendRun κ) (read : List Match) : Prop where
  alive : client.ending = none
  busy : client.inFlight = true
  flow : client.pipe.flow = run.flow
  lines
    : ∃ lines,
        client.pipe.HasRead run.stream lines
        ∧ lines.map BackendMessage.decode = read.map fun found => .ok (.result found)

/-- What follows for a run from what its client, which has read some results, tells next. -/
def Hears (client : Client) (run : BackendRun κ) (read : List Match)
    : Except ClientError QueryEvent → Prop
  | .ok (.result found) => client.Listens run (read ++ [found])
  | .ok (.done _) | .ok (.failed _) => run.yielded = read ∧ run.Ended
  | .error _ => run.yielded = read ∧ ¬ run.Ended

/-- What a client has read are the first results that its backend has yielded. -/
theorem Listens.prefix_yielded (listens : client.Listens run read) : read <+: run.yielded := by
  obtain ⟨lines, taken, results⟩ := listens.lines
  have arrived : run.messages = read.map (fun found => .ok (.result found))
      ++ (Arrival.lines run.flow client.pipe.inbound).map BackendMessage.decode := by
    rw [BackendRun.messages, ← listens.flow, taken.lines_eq, List.map_append, results]
  rw [BackendRun.yielded, arrived, BackendMessage.cutResults_append]
  exact List.prefix_append ..

/-- A client that has just been asked has read nothing. -/
theorem listens_of_ask {query : Query} (asked : client.ask query = (.ok (), after))
    (request : SearchRequest) (name : κ)
    : after.Listens {
        request
        client := name
        stream := after.pipe.inbound
        flow := after.pipe.flow } [] := by
  unfold ask at asked
  split at asked
  · cases asked
  · next alive =>
      split at asked
      · cases asked
      · split at asked
        · cases asked
        · next pipe written =>
            cases asked
            exact ⟨alive, rfl, rfl, [], pipe.hasRead_nil, rfl⟩

/-- What a client tells of a message, by cases on the message. -/
theorem hears_take {message : Except CodecError BackendMessage}
    {rest : List (Except CodecError BackendMessage)}
    (arrived : run.messages = read.map (fun found => .ok (.result found)) ++ message :: rest)
    (listens : ∀ found, message = .ok (.result found) → client.Listens run (read ++ [found]))
    : (client.take message).2.Hears run read (client.take message).1 := by
  rcases message with cause | message
  · obtain ⟨yielded, ended⟩ := BackendRun.yielded_of_concluded arrived nofun
    exact ⟨yielded, by simp [ended]⟩
  · cases message with
    | result found => exact listens found rfl
    | stats | error | info | query =>
        obtain ⟨yielded, ended⟩ := BackendRun.yielded_of_concluded arrived nofun
        exact ⟨yielded, by simp [ended]⟩

/-- A client that has been asked tells what it receives. -/
theorem nextEvent?_of_busy (alive : client.ending = none) (busy : client.inFlight = true)
    : client.nextEvent?
      = match client.pipe.receive with
        | (.awaited, _) => none
        | (.ended, _) => some (.error (.fault .disconnected), client.fail .disconnected)
        | (.failed cause, pipe) => some ({ client with pipe }.take (.error (.broken cause)))
        | (.line text _, pipe) =>
          some ({ client with pipe }.take (BackendMessage.decode text)) := by
  unfold nextEvent?
  split
  · next dead => cases alive.symm.trans dead
  · rw [busy]
    rfl

/-- What a client tells next is what stands next in the stream, by cases on what it receives. -/
theorem Listens.hears {outcome : Except ClientError QueryEvent} (listens : client.Listens run read)
    (next : client.nextEvent? = some (outcome, after))
    : after.Hears run read outcome := by
  obtain ⟨lines, taken, results⟩ := listens.lines
  rw [nextEvent?_of_busy listens.alive listens.busy] at next
  split at next
  · cases next
  · next received =>
      cases next
      apply BackendRun.yielded_of_results
      have all := taken.lines_eq_taken (by simp [received])
      rw [BackendRun.messages, ← listens.flow, all, results]
  · next received =>
      cases next
      apply BackendRun.yielded_of_results
      have all := taken.lines_eq_taken (by simp [received])
      rw [BackendRun.messages, ← listens.flow, all, results]
  · next text rest pipe received =>
      obtain ⟨takenToo, same⟩ := taken.receive received
      have arrived : run.messages = read.map (fun found => .ok (.result found))
          ++ BackendMessage.decode text
            :: (Arrival.lines pipe.flow pipe.inbound).map BackendMessage.decode := by
        rw [BackendRun.messages, ← listens.flow, ← same, takenToo.lines_eq, List.map_append,
          List.map_append, results, List.append_assoc]
        rfl
      have stays : ∀ found, BackendMessage.decode text = .ok (.result found)
          → ({ client with pipe } : Client).Listens run (read ++ [found]) := by
        intro found isResult
        refine ⟨listens.alive, listens.busy, same.trans listens.flow, _, takenToo, ?_⟩
        rw [List.map_append, List.map_append, results]
        exact congrArg (_ ++ [·]) isResult
      have heard := hears_take arrived stays
      rwa [Option.some.inj next] at heard

/-- What the backend does is more to be read. -/
theorem Listens.extend {bytes : List UInt8} {pipe : Pipe} (listens : client.Listens run read)
    (served : client.pipe.Serves bytes pipe)
    : ({ client with pipe } : Client).Listens (run.extend bytes pipe.flow) read := by
  obtain ⟨lines, taken, results⟩ := listens.lines
  exact ⟨listens.alive, listens.busy, rfl, lines, served _ _ taken, results⟩

end Client

end Reading

end SourceView
