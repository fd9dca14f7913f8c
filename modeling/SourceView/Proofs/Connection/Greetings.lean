import SourceView.Network.Action
import SourceView.Proofs.Connection.Reading

/-! How a connection begins.
A backend does things to the pipe, each at its time. The first line that is not blank has to be a
greeting and to arrive before the time is up.
-/

namespace SourceView

-----------------------------------------------------------------------------------------
-- What backends do
-----------------------------------------------------------------------------------------

/-- Something that a backend does to a pipe. -/
inductive Deed where
  | send (bytes : List UInt8)
  | finish
  | hangUp
  | collect
  /-- The connection breaks, for this cause. -/
  | breakOff (cause : String)

namespace Deed

/-- What is written. -/
def bytes : Deed → List UInt8
  | send bytes => bytes
  | finish | hangUp | collect | breakOff _ => []

/-- How a stream stands after this that was running before. -/
def flow : Deed → Flow
  | finish | hangUp => .finished
  | send _ | collect => .running
  | breakOff cause => .broken cause

end Deed

namespace Pipe

/-- Let the backend do something to a pipe, unless it is closed to that. -/
def undergo? (pipe : Pipe) : Deed → Option Pipe
  | .send bytes => pipe.send? bytes
  | .finish => some pipe.finish
  | .hangUp => some pipe.hangUp
  | .collect => some pipe.collect.2
  | .breakOff cause => some (pipe.breakOff cause)

/-- What is left of a pipe when things have happened to it at their times. -/
def after (pipe : Pipe) (arrivals : List (Nat × Deed)) : Pipe :=
  arrivals.foldl (fun pipe arrival => (pipe.undergo? arrival.2).getD pipe) pipe

variable {pipe next : Pipe} {deed : Deed}

/-- A deed adds to a pipe what is written, by cases on the deed. -/
theorem undergo?_serves (done : pipe.undergo? deed = some next)
    : pipe.Serves deed.bytes next := by
  cases deed with
  | send bytes => exact send?_serves done
  | finish =>
      cases done
      exact pipe.finish_serves
  | hangUp =>
      cases done
      exact pipe.hangUp_serves
  | collect =>
      cases done
      exact pipe.collect_serves
  | breakOff cause =>
      cases done
      exact pipe.breakOff_serves cause

/-- What a deed changes of what can be read. -/
theorem undergo?_inbound (done : pipe.undergo? deed = some next)
    : next.inbound = pipe.inbound ++ deed.bytes
      ∧ next.flow = pipe.flow.or deed.flow
      ∧ (pipe.flow ≠ .running → deed.bytes = []) := by
  cases deed with
  | send bytes =>
      change pipe.send? bytes = some next at done
      unfold send? at done
      split at done
      · cases done
      · next going =>
          cases done
          rw [Bool.or_eq_true, not_or, decide_eq_true_eq] at going
          exact ⟨rfl, (Flow.or_running _).symm, fun stopped => absurd stopped going.1⟩
  | finish | hangUp | breakOff =>
      cases done
      exact ⟨(List.append_nil _).symm, rfl, fun _ => rfl⟩
  | collect =>
      cases done
      exact ⟨(List.append_nil _).symm, (Flow.or_running _).symm, fun _ => rfl⟩

/-- Things that happen to a pipe leave what it holds, and add to it until its stream comes to an
end.
-/
theorem exists_inbound_after (pipe : Pipe) (arrivals : List (Nat × Deed))
    : ∃ more,
        (pipe.after arrivals).inbound = pipe.inbound ++ more
        ∧ (pipe.flow ≠ .running → (pipe.after arrivals).flow = pipe.flow ∧ more = []) := by
  induction arrivals generalizing pipe with
  | nil => exact ⟨[], (List.append_nil _).symm, fun _ => ⟨rfl, rfl⟩⟩
  | cons arrival arrivals ih =>
      obtain ⟨more, held, last⟩ := ih ((pipe.undergo? arrival.2).getD pipe)
      cases done : pipe.undergo? arrival.2 with
      | none =>
          rw [done] at held last
          exact ⟨more, by rw [after, List.foldl_cons, done]; exact held,
            by rw [after, List.foldl_cons, done]; exact last⟩
      | some next =>
          rw [done] at held last
          obtain ⟨grown, turned, silent⟩ := undergo?_inbound done
          refine ⟨arrival.2.bytes ++ more, ?_, fun stopped => ?_⟩
          · rw [after, List.foldl_cons, done, ← List.append_assoc, ← grown]
            exact held
          · rw [Flow.or_of_ne_running stopped] at turned
            obtain ⟨stays, nothing⟩ := last (by rwa [Option.getD_some, turned])
            rw [after, List.foldl_cons, done, silent stopped, nothing]
            exact ⟨stays.trans turned, rfl⟩

end Pipe

-----------------------------------------------------------------------------------------
-- Waiting for a greeting
-----------------------------------------------------------------------------------------

/-- Wait for the greeting on a pipe to which these things happen, each at its time since the pipe
was opened. Nothing is waited for when the time is up.
-/
def awaitGreeting (pipe : Pipe) (arrivals : List (Nat × Deed)) : Except ClientError Client :=
  match Client.handshake? pipe with
  | some outcome => outcome.mapError .fault
  | none =>
    match arrivals with
    | [] => .error .handshakeTimeout
    | (time, deed) :: later =>
      if time < Client.handshakeTimeout then awaitGreeting ((pipe.undergo? deed).getD pipe) later
      else .error .handshakeTimeout

/-- Where all that a backend writes is written at once, this is how a connection is opened. -/
theorem handshake_eq_awaitGreeting {network : Network} {name : String} {hello : List UInt8}
    {hangsUp : Bool} (fresh : network.link? (network.openLink "" hello hangsUp).1 = none)
    : (network.handshake name hello hangsUp).1
      = match awaitGreeting (Pipe.opened hello hangsUp) [] with
        | .ok client => .greeting client.greeting
        | .error cause => .failed cause := by
  have opened : (network.openLink "" hello hangsUp).2.link? (network.openLink "" hello hangsUp).1
      = some {
        place := (network.openLink "" hello hangsUp).1
        near := .bare (Pipe.opened hello hangsUp) } := by
    simp only [Network.openLink, Network.link?] at fresh ⊢
    rw [List.find?_append, fresh]
    simp
  rw [Network.handshake, awaitGreeting]
  dsimp only
  rw [opened, Option.bind_some, Link.pipe]
  dsimp only
  split
  · next waits => rw [waits]
  · next fault => rw [fault]; rfl
  · next greeted => rw [greeted]; rfl

/-- What happens before the time is up. -/
def inTime (arrivals : List (Nat × Deed)) : List (Nat × Deed) :=
  arrivals.takeWhile (·.1 < Client.handshakeTimeout)

/-- What a reader tells of a stream that waits for a greeting and finds no line. -/
def Flow.missing : Flow → ClientError
  | running => .handshakeTimeout
  | finished => .fault .disconnected
  | broken cause => .fault (.codec (.broken cause))

/-- What the first line of a stream tells that is not blank. -/
def greetingIn (flow : Flow) (stream : List UInt8) : Except ClientError Greeting :=
  match (Arrival.lines flow stream).head? with
  | none => .error flow.missing
  | some line =>
    match BackendMessage.decode line with
    | .error cause => .error (.fault (.codec cause))
    | .ok (.info greeting) => .ok greeting
    | .ok other => .error (.fault (.unexpected other.opcode))

section

variable {flow : Flow} {stream : List UInt8}

/-- A stream in which no line is found tells how it stands at its end. -/
theorem greetingIn_of_arrival (other : Flow) (arrived : Arrival.of flow stream = other.arrival)
    : greetingIn flow stream = .error other.missing := by
  obtain ⟨rfl, nothing⟩ := Arrival.lines_of_arrival other arrived
  rw [greetingIn, nothing]
  rfl

/-- A line that has arrived is the first, and stays so. -/
theorem head?_lines {text rest more : List UInt8} {later : Flow}
    (arrived : Arrival.of flow stream = .line text rest)
    (goesOn : flow ≠ .running → later = flow ∧ more = [])
    : (Arrival.lines later (stream ++ more)).head? = some text := by
  rcases Arrival.lines_of_line arrived with all | ⟨done, -, whole⟩
  · rw [all]
    rfl
  · obtain ⟨rfl, rfl⟩ := goesOn (by simp [done])
    rw [List.append_nil, done, whole]
    rfl

end

namespace Client

variable {pipe next : Pipe} {deed : Deed}

/-- A pipe with no line yet, which goes on, tells nothing in time. -/
theorem greetingIn_of_awaited (waits : handshake? pipe = none)
    : greetingIn pipe.flow pipe.inbound = .error .handshakeTimeout := by
  unfold handshake? Pipe.receive at waits
  cases arrived : Arrival.of pipe.flow pipe.inbound with
  | awaited => exact greetingIn_of_arrival .running arrived
  | ended | failed => simp [arrived] at waits
  | line text rest =>
      rw [arrived] at waits
      dsimp only at waits
      split at waits <;> cases waits

/-- What a pipe has told is told by all that comes to stand in it, by cases on what it has told. -/
theorem greetingIn_of_handshake? {outcome : Except Fault Client}
    (told : handshake? pipe = some outcome) {later : Flow} {more : List UInt8}
    (goesOn : pipe.flow ≠ .running → later = pipe.flow ∧ more = [])
    : greetingIn later (pipe.inbound ++ more) = (outcome.mapError .fault).map Client.greeting := by
  -- A stream without a line that is known to have come to its end stays as it is
  have missing : ∀ other : Flow, other ≠ .running
      → Arrival.of pipe.flow pipe.inbound = other.arrival
      → greetingIn later (pipe.inbound ++ more) = .error other.missing := by
    intro other stopped arrived
    obtain ⟨same, -⟩ := Arrival.lines_of_arrival other arrived
    obtain ⟨rfl, rfl⟩ := goesOn (same ▸ stopped)
    rw [List.append_nil]
    exact greetingIn_of_arrival other arrived
  unfold handshake? Pipe.receive at told
  cases arrived : Arrival.of pipe.flow pipe.inbound with
  | awaited => simp [arrived] at told
  | ended =>
      rw [arrived] at told
      cases told
      exact missing .finished nofun arrived
  | failed cause =>
      rw [arrived] at told
      cases told
      exact missing (.broken cause) nofun arrived
  | line text rest =>
      rw [greetingIn, head?_lines arrived goesOn]
      rw [arrived] at told
      dsimp only at told ⊢
      cases read : BackendMessage.decode text with
      | error cause =>
          rw [read] at told
          cases told
          rfl
      | ok message =>
          rw [read] at told
          cases message <;>
            · cases told
              rfl

/-- A greeting is one line, behind which the client goes on to read. -/
theorem reads_of_handshake? {client : Client} (greeted : handshake? pipe = some (.ok client))
    : ∃ line,
        client.pipe.HasRead pipe.inbound [line]
        ∧ BackendMessage.decode line = .ok (.info client.greeting)
        ∧ client.pipe.flow = pipe.flow := by
  unfold handshake? at greeted
  split at greeted
  · cases greeted
  · cases greeted
  · cases greeted
  · next line rest behind received =>
      obtain ⟨read, same⟩ := pipe.hasRead_nil.receive received
      split at greeted
      · cases greeted
      · next greeting decoded =>
          cases greeted
          exact ⟨line, read, decoded, same⟩
      · cases greeted

end Client

/-- Nothing is waited for when the greeting is there, or when it is known that there is none. -/
theorem awaitGreeting_of_handshake? {pipe : Pipe} {outcome : Except Fault Client}
    (told : Client.handshake? pipe = some outcome) (arrivals : List (Nat × Deed))
    : awaitGreeting pipe arrivals = outcome.mapError .fault := by
  unfold awaitGreeting
  rw [told]

/-- If waiting has come to a greeting, what a pipe has told was that greeting. -/
theorem handshake?_of_told {pipe : Pipe} {arrivals : List (Nat × Deed)} {client : Client}
    {outcome : Except Fault Client} (told : Client.handshake? pipe = some outcome)
    (greeted : awaitGreeting pipe arrivals = .ok client)
    : Client.handshake? pipe = some (.ok client) := by
  rw [awaitGreeting_of_handshake? told] at greeted
  cases outcome with
  | error => cases greeted
  | ok =>
      cases greeted
      exact told

/-- What comes of waiting is what the first line tells of all that is written in time, by induction
on what happens to the pipe.
-/
theorem greeting_awaitGreeting (pipe : Pipe) (arrivals : List (Nat × Deed))
    : (awaitGreeting pipe arrivals).map Client.greeting
      = greetingIn (pipe.after (inTime arrivals)).flow
          (pipe.after (inTime arrivals)).inbound := by
  induction arrivals generalizing pipe with
  | nil =>
      cases told : Client.handshake? pipe with
      | some outcome =>
          have same := Client.greetingIn_of_handshake? told fun _ => ⟨rfl, rfl⟩
          rw [List.append_nil] at same
          rw [awaitGreeting_of_handshake? told]
          exact same.symm
      | none =>
          rw [awaitGreeting, told]
          exact (Client.greetingIn_of_awaited told).symm
  | cons arrival later ih =>
      cases told : Client.handshake? pipe with
      | some outcome =>
          obtain ⟨more, held, last⟩ := pipe.exists_inbound_after (inTime (arrival :: later))
          rw [awaitGreeting_of_handshake? told, held]
          exact (Client.greetingIn_of_handshake? told last).symm
      | none =>
          rw [awaitGreeting, told]
          by_cases early : arrival.1 < Client.handshakeTimeout
          · have rest : inTime (arrival :: later) = arrival :: inTime later :=
              List.takeWhile_cons_of_pos (by simpa using early)
            dsimp only
            rw [if_pos early, ih, rest, Pipe.after, Pipe.after, List.foldl_cons]
          · have nothing : inTime (arrival :: later) = [] :=
              List.takeWhile_cons_of_neg (by simpa using early)
            dsimp only
            rw [if_neg early, nothing]
            exact (Client.greetingIn_of_awaited told).symm

/-- A greeting that was waited for was read from what had been written by then, by induction on what
happens to the pipe.
-/
theorem exists_handshake?_of_awaitGreeting {pipe : Pipe} {arrivals : List (Nat × Deed)}
    {client : Client} (greeted : awaitGreeting pipe arrivals = .ok client)
    : ∃ heard,
        heard <+: inTime arrivals
        ∧ Client.handshake? (pipe.after heard) = some (.ok client) := by
  induction arrivals generalizing pipe with
  | nil =>
      cases told : Client.handshake? pipe with
      | some outcome => exact ⟨[], List.nil_prefix, handshake?_of_told told greeted⟩
      | none =>
          rw [awaitGreeting, told] at greeted
          cases greeted
  | cons arrival later ih =>
      cases told : Client.handshake? pipe with
      | some outcome => exact ⟨[], List.nil_prefix, handshake?_of_told told greeted⟩
      | none =>
          rw [awaitGreeting, told] at greeted
          dsimp only at greeted
          split at greeted
          · next early =>
              obtain ⟨heard, within, told⟩ := ih greeted
              refine ⟨arrival :: heard, ?_, told⟩
              rw [inTime, List.takeWhile_cons_of_pos (by simpa using early)]
              exact (List.prefix_cons_inj arrival).mpr within
          · cases greeted

end SourceView
