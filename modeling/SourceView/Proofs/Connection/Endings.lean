import SourceView.Proofs.Connection.ReadAhead

/-! How clients die.
A client that is alive dies when its owner closes it, when a query cannot be written, and when what
stands next in the answer is no part of one. It is dead for good then, for this reason, and writes
nothing more.
-/

namespace SourceView

-----------------------------------------------------------------------------------------
-- What happens to a client
-----------------------------------------------------------------------------------------

/-- Something that happens to a client. -/
inductive Incident where
  | served (deed : Deed)
  -- The owner
  | ask (query : Query)
  /-- The owner has given up sending a query when this many bytes of its line were written. -/
  | begin (query : Query) (count : Nat)
  /-- The connection has broken when this many bytes of a query's line were written. -/
  | tear (query : Query) (count : Nat)
  | readOn
  | search (query : Query)
  /-- A search that waits for more, after these matches, goes on. -/
  | goOn (found : List Match)
  | close

namespace Client

/-- Send the first bytes of a query's line, whose rest cannot be written. -/
def tear (client : Client) (query : Query) (count : Nat) : Client :=
  if client.phase = .idle then
    let outbound := client.pipe.outbound ++ query.envelope.line.take count
    { client with pipe := { client.pipe with outbound } }.fail (.codec (.line .brokenPipe))
  else client

/-- What becomes of a client. Where there is nothing to be read or to be done it is left as it is.
-/
def undergo (client : Client) : Incident → Client
  | .served deed => { client with pipe := (client.pipe.undergo? deed).getD client.pipe }
  | .ask query => (client.ask query).2
  | .begin query count => (client.begin? query count).getD client
  | .tear query count => client.tear query count
  | .readOn => (client.nextEvent?.map Prod.snd).getD client
  | .search query => (client.search query).2
  | .goOn found => (client.collect found).2
  | .close => client.close

/-- What becomes of a client to which one thing after the other happens. -/
def undergoAll (client : Client) (incidents : List Incident) : Client :=
  incidents.foldl undergo client

/-- What the backend reads of it when this happens. -/
def collected (client : Client) : Incident → List UInt8
  | .served .collect => client.pipe.collect.1
  | _ => []

/-- All that the backend reads while these things happen, and what it has then left to read. -/
def delivered (client : Client) : List Incident → List UInt8
  | [] => client.pipe.outbound
  | incident :: rest => client.collected incident ++ (client.undergo incident).delivered rest

end Client

/-- No event of an answer is a greeting. -/
theorem QueryEvent.message_ne_info (event : QueryEvent) (greeting : Greeting)
    : event.message ≠ .info greeting := by
  intro same
  cases event <;> cases same

/-- No event of an answer is a query. -/
theorem QueryEvent.message_ne_query (event : QueryEvent) (query : Query)
    : event.message ≠ .query query := by
  intro same
  cases event <;> cases same

namespace Arrival

/-- What stands first in a stream is no part of an answer. -/
inductive Breaks (flow : Flow) (stream : List UInt8) : Fault → Prop
  | ended (stopped : of flow stream = .ended) : Breaks flow stream .disconnected
  /-- The connection has broken. -/
  | failed {cause} (broke : of flow stream = .failed cause)
    : Breaks flow stream (.codec (.broken cause))
  | undecodable {text rest cause} (arrived : of flow stream = .line text rest)
    (read : BackendMessage.decode text = .error cause)
    : Breaks flow stream (.codec cause)
  | misplaced {text rest message} (arrived : of flow stream = .line text rest)
    (read : BackendMessage.decode text = .ok message)
    (apart : ∀ event : QueryEvent, event.message ≠ message)
    : Breaks flow stream (.unexpected message.opcode)

/-- What stands in a stream behind some matches is no part of an answer. -/
inductive BreaksOff (flow : Flow) : List UInt8 → Fault → Prop
  | now {stream fault} (breaks : Breaks flow stream fault) : BreaksOff flow stream fault
  | behind {stream text rest found fault} (arrived : of flow stream = .line text rest)
    (read : BackendMessage.decode text = .ok (.result found))
    (breaks : BreaksOff flow rest fault)
    : BreaksOff flow stream fault

end Arrival

/-- What stands first in a pipe is no part of an answer. -/
abbrev Pipe.Breaks (pipe : Pipe) (fault : Fault) : Prop :=
  Arrival.Breaks pipe.flow pipe.inbound fault

/-- What stands in a pipe behind some matches is no part of an answer. -/
abbrev Pipe.BreaksOff (pipe : Pipe) (fault : Fault) : Prop :=
  Arrival.BreaksOff pipe.flow pipe.inbound fault

namespace Client

/-- This is the end of a client that was alive, for this reason. -/
inductive Kills (client : Client) : Incident → Ending → Prop
  | closed : Kills client .close .byOwner
  -- A query cannot be written
  | unsent {query} (idle : client.inFlight = false) (deserted : client.pipe.deserted = true)
    : Kills client (.ask query) (.byFault (.codec (.line .brokenPipe)))
  | torn {query count} (idle : client.inFlight = false)
    : Kills client (.tear query count) (.byFault (.codec (.line .brokenPipe)))
  | unsearched {query} (idle : client.inFlight = false) (deserted : client.pipe.deserted = true)
    : Kills client (.search query) (.byFault (.codec (.line .brokenPipe)))
  -- What stands next in the answer to the query is no part of one
  | read {fault} (busy : client.inFlight = true) (breaks : client.pipe.Breaks fault)
    : Kills client .readOn (.byFault fault)
  | searched {query fault} (idle : client.inFlight = false)
    (reads : client.pipe.deserted = false) (breaks : client.pipe.BreaksOff fault)
    : Kills client (.search query) (.byFault fault)
  | wentOn {found fault} (busy : client.inFlight = true) (breaks : client.pipe.BreaksOff fault)
    : Kills client (.goOn found) (.byFault fault)

end Client

-----------------------------------------------------------------------------------------
-- What stands first in a stream
-----------------------------------------------------------------------------------------

namespace Arrival

variable {flow : Flow} {stream : List UInt8} {fault other : Fault}

/-- A stream does not break off where more is to come. -/
theorem not_breaksOff_of_awaited (arrived : of flow stream = .awaited)
    : ¬ BreaksOff flow stream fault := by
  rintro (⟨stopped | broke | ⟨line, -⟩ | ⟨line, -, -⟩⟩ | ⟨line, -, -⟩)
  · cases arrived.symm.trans stopped
  · cases arrived.symm.trans broke
  all_goals cases arrived.symm.trans line

/-- A stream does not break off where an event of an answer stands. -/
theorem not_breaks_of_event {text rest : List UInt8} {event : QueryEvent}
    (arrived : of flow stream = .line text rest)
    (read : BackendMessage.decode text = .ok event.message)
    : ¬ Breaks flow stream fault := by
  rintro (stopped | broke | ⟨line, unread⟩ | ⟨line, other, apart⟩)
  · cases arrived.symm.trans stopped
  · cases arrived.symm.trans broke
  · cases arrived.symm.trans line
    cases read.symm.trans unread
  · cases arrived.symm.trans line
    cases read.symm.trans other
    exact apart event rfl

/-- A stream breaks off behind an event of an answer only if more of the answer is to come. -/
theorem breaksOff_iff_of_event {text rest : List UInt8} {event : QueryEvent}
    (arrived : of flow stream = .line text rest)
    (read : BackendMessage.decode text = .ok event.message)
    : BreaksOff flow stream fault
      ↔ (∃ found, event = .result found) ∧ BreaksOff flow rest fault := by
  constructor
  · rintro (now | ⟨line, other, breaks⟩)
    · exact absurd now (not_breaks_of_event arrived read)
    · cases arrived.symm.trans line
      have same := Except.ok.inj (read.symm.trans other)
      cases event with
      | result found => exact ⟨⟨found, rfl⟩, breaks⟩
      | done | failed => cases same
  · rintro ⟨⟨found, rfl⟩, breaks⟩
    exact .behind arrived read breaks

/-- The fault in what stands first in a stream, if that is no part of an answer. -/
def fault? : Arrival → Option Fault
  | ended => some .disconnected
  | failed cause => some (.codec (.broken cause))
  | line text _ =>
    match BackendMessage.decode text with
    | .error cause => some (.codec cause)
    | .ok message => some (.unexpected message.opcode)
  | awaited => none

/-- The fault follows from what arrives, by cases on why the stream breaks off. -/
theorem Breaks.fault?_eq (breaks : Breaks flow stream fault)
    : (of flow stream).fault? = some fault := by
  cases breaks with
  | ended stopped => rw [stopped, fault?]
  | failed broke => rw [broke, fault?]
  | undecodable arrived read => rw [arrived, fault?, read]
  | misplaced arrived read => rw [arrived, fault?, read]

/-- What stands first in a stream breaks the connection for one reason only. -/
theorem Breaks.eq (breaks : Breaks flow stream fault) (again : Breaks flow stream other)
    : other = fault :=
  Option.some.inj (again.fault?_eq.symm.trans breaks.fault?_eq)

/-- If a stream breaks off at its front it does so nowhere else. -/
theorem Breaks.breaks_of_breaksOff (breaks : Breaks flow stream fault)
    (off : BreaksOff flow stream other)
    : Breaks flow stream other := by
  rcases off with now | ⟨line, read, -⟩
  · exact now
  · have event : _ = Except.ok (QueryEvent.message (.result _)) := read
    exact absurd breaks (not_breaks_of_event line event)

end Arrival

-----------------------------------------------------------------------------------------
-- One incident
-----------------------------------------------------------------------------------------

namespace Client

variable {client : Client} {incident : Incident} {ending : Ending}

/-- A client that is asked for the next part of an answer waits for it, or tells it, or finds what
is no part of one and is dead.
-/
theorem nextEvent?_cases (busy : client.phase = .busy)
    : (Arrival.of client.pipe.flow client.pipe.inbound = .awaited ∧ client.nextEvent? = none)
      ∨ (∃ text rest event,
          Arrival.of client.pipe.flow client.pipe.inbound = .line text rest
          ∧ BackendMessage.decode text = .ok event.message
          ∧ client.nextEvent? = some (.ok event, {
            client.leaving rest with inFlight := !event.message.isTerminator }))
      ∨ ∃ fault after,
          client.pipe.Breaks fault
          ∧ client.nextEvent? = some (.error (.fault fault), after)
          ∧ after.ending = some (.byFault fault) := by
  obtain ⟨alive, inFlight⟩ := phase_eq_busy.mp busy
  rw [nextEvent?_of_busy alive inFlight, Pipe.receive]
  cases arrived : Arrival.of client.pipe.flow client.pipe.inbound with
  | awaited => exact .inl ⟨rfl, rfl⟩
  | ended => exact .inr (.inr ⟨_, _, .ended arrived, rfl, rfl⟩)
  | failed => exact .inr (.inr ⟨_, _, .failed arrived, rfl, rfl⟩)
  | line text rest =>
      dsimp only
      rcases read : BackendMessage.decode text with cause | message
      · exact .inr (.inr ⟨_, _, .undecodable arrived read, rfl, rfl⟩)
      · cases message with
        | result found =>
            refine .inr (.inl ⟨text, rest, .result found, rfl, read, ?_⟩)
            simp [take, leaving, QueryEvent.message, BackendMessage.isTerminator, inFlight]
        | stats timing => exact .inr (.inl ⟨text, rest, .done timing, rfl, read, rfl⟩)
        | error cause => exact .inr (.inl ⟨text, rest, .failed cause, rfl, read, rfl⟩)
        | info greeting =>
            exact .inr (.inr ⟨_, _, .misplaced arrived read (·.message_ne_info greeting), rfl, rfl⟩)
        | query query =>
            exact .inr (.inr ⟨_, _, .misplaced arrived read (·.message_ne_query query), rfl, rfl⟩)

/-- A client that is asked for the next part of an answer dies if that is no part of one. -/
theorem ending_readOn_iff (busy : client.phase = .busy)
    : (client.undergo .readOn).ending = some ending
      ↔ ∃ fault, client.pipe.Breaks fault ∧ ending = .byFault fault := by
  obtain ⟨alive, -⟩ := phase_eq_busy.mp busy
  rw [undergo]
  rcases nextEvent?_cases busy with
    ⟨arrived, next⟩ | ⟨text, rest, event, arrived, read, next⟩ | ⟨fault, after, breaks, next, dead⟩
  · rw [next]
    refine iff_of_false (by simp [alive]) ?_
    rintro ⟨fault, breaks, -⟩
    exact Arrival.not_breaksOff_of_awaited arrived (.now breaks)
  · rw [next]
    refine iff_of_false (by simp [leaving, alive]) ?_
    rintro ⟨fault, breaks, -⟩
    exact Arrival.not_breaks_of_event arrived read breaks
  · rw [next, Option.map_some, Option.getD_some, dead]
    constructor
    · rintro ⟨⟩
      exact ⟨fault, breaks, rfl⟩
    · rintro ⟨other, again, rfl⟩
      rw [breaks.eq again]

/-- A client that has told an event breaks off behind it only if more of the answer is to come. -/
theorem breaksOff_iff_of_nextEvent? {after : Client} {event : QueryEvent}
    (next : client.nextEvent? = some (.ok event, after))
    : after.ending = none
      ∧ after.inFlight = !event.message.isTerminator
      ∧ ∀ fault,
        client.pipe.BreaksOff fault
        ↔ (∃ found, event = .result found) ∧ after.pipe.BreaksOff fault := by
  obtain ⟨alive, -, text, rest, arrived, read, rfl⟩ := nextEvent?_eq_ok next
  exact ⟨alive, rfl, fun _ => Arrival.breaksOff_iff_of_event arrived read⟩

/-- A client that reads an answer to its end dies if what stands behind some of its matches is no
part of an answer, by induction on what is read.
-/
theorem ending_collect_iff {found : List Match} (busy : client.phase = .busy)
    : (client.collect found).2.ending = some ending
      ↔ ∃ fault, client.pipe.BreaksOff fault ∧ ending = .byFault fault := by
  obtain ⟨alive, -⟩ := phase_eq_busy.mp busy
  fun_induction collect found client with
  | case1 found client waits =>
      refine iff_of_false (by simp [alive]) ?_
      rintro ⟨fault, breaks, -⟩
      rcases nextEvent?_cases busy with
        ⟨arrived, -⟩ | ⟨text, rest, event, -, -, told⟩ | ⟨fault, after, -, told, -⟩
      · exact Arrival.not_breaksOff_of_awaited arrived breaks
      all_goals cases waits.symm.trans told
  | case2 found client cause after failed =>
      rcases nextEvent?_cases busy with
        ⟨-, waits⟩ | ⟨text, rest, event, -, -, told⟩ | ⟨fault, after, breaks, told, dead⟩
      · cases failed.symm.trans waits
      · cases failed.symm.trans told
      · cases failed.symm.trans told
        rw [dead]
        constructor
        · rintro ⟨⟩
          exact ⟨fault, .now breaks, rfl⟩
        · rintro ⟨other, off, rfl⟩
          rw [breaks.eq (breaks.breaks_of_breaksOff off)]
  | case3 found client more after told ih =>
      obtain ⟨alive, inFlight, goesOn⟩ := breaksOff_iff_of_nextEvent? told
      rw [ih (phase_eq_busy.mpr ⟨alive, inFlight⟩) alive]
      have same : ∀ fault, client.pipe.BreaksOff fault ↔ after.pipe.BreaksOff fault :=
        fun fault => (goesOn fault).trans (and_iff_right ⟨more, rfl⟩)
      simp only [same]
  | case4 found client timing after told | case5 found client text after told =>
      obtain ⟨alive, -, goesOn⟩ := breaksOff_iff_of_nextEvent? told
      refine iff_of_false (by simp [alive]) ?_
      rintro ⟨fault, breaks, -⟩
      obtain ⟨⟨found, same⟩, -⟩ := (goesOn fault).mp breaks
      cases same

/-- A search whose query was sent reads on. -/
theorem search_of_sent {query : Query} {after : Client} (sent : client.ask query = (.ok (), after))
    : client.search query = after.collect [] := by
  rw [search, sent]

/-- A search whose query could not be sent has failed. -/
theorem search_of_unsent {query : Query} {after : Client} {cause : ClientError}
    (unsent : client.ask query = (.error cause, after))
    : client.search query = (.finished (.error cause), after) := by
  rw [search, unsent]

/-- Reading an answer ends where the client could not tell the next event. -/
theorem collect_of_error {after : Client} {cause : ClientError} (found : List Match)
    (failed : client.nextEvent? = some (.error cause, after))
    : client.collect found = (.finished (.error cause), after) := by
  unfold collect
  split
  · next waits => cases failed.symm.trans waits
  · next told =>
      cases failed.symm.trans told
      rfl
  · next told => cases failed.symm.trans told
  · next told => cases failed.symm.trans told
  · next told => cases failed.symm.trans told

/-- A search ends a client that is idle if the query cannot be sent, and else if the answer breaks
off.
-/
theorem ending_search_iff {query : Query} (idle : client.phase = .idle)
    : (client.search query).2.ending = some ending
      ↔ client.pipe.deserted = true ∧ ending = .byFault (.codec (.line .brokenPipe))
        ∨ client.pipe.deserted = false
          ∧ ∃ fault,
            client.pipe.BreaksOff fault
            ∧ ending = .byFault fault := by
  obtain ⟨alive, -⟩ := phase_eq_idle.mp idle
  rcases ask_of_idle query idle with ⟨reads, sent⟩ | ⟨deserted, unsent⟩
  · rw [search_of_sent sent, ending_collect_iff]
    · simp [reads]
    · exact phase_eq_busy.mpr ⟨alive, rfl⟩
  · rw [search_of_unsent unsent]
    simp [fail, deserted, eq_comm]

/-- What has killed a client kills it, by cases on the reason. -/
theorem ending_of_kills (kills : client.Kills incident ending) (alive : client.ending = none)
    : (client.undergo incident).ending = some ending := by
  cases kills with
  | closed => simp [undergo, close, alive]
  | @unsent query free deserted =>
      rcases ask_of_idle query (phase_eq_idle.mpr ⟨alive, free⟩) with ⟨reads, -⟩ | ⟨-, unsent⟩
      · cases reads.symm.trans deserted
      · rw [undergo, unsent]
        rfl
  | torn free =>
      rw [undergo, tear, if_pos (phase_eq_idle.mpr ⟨alive, free⟩)]
      rfl
  | unsearched free deserted =>
      have idle := phase_eq_idle.mpr ⟨alive, free⟩
      exact (ending_search_iff idle).mpr (.inl ⟨deserted, rfl⟩)
  | read busy breaks =>
      exact (ending_readOn_iff (phase_eq_busy.mpr ⟨alive, busy⟩)).mpr ⟨_, breaks, rfl⟩
  | searched free reads breaks =>
      have idle := phase_eq_idle.mpr ⟨alive, free⟩
      exact (ending_search_iff idle).mpr (.inr ⟨reads, _, breaks, rfl⟩)
  | wentOn busy breaks =>
      exact (ending_collect_iff (phase_eq_busy.mpr ⟨alive, busy⟩)).mpr ⟨_, breaks, rfl⟩

/-- A client that is alive dies of nothing else, by cases on what happens to it. -/
theorem kills_of_ending (alive : client.ending = none)
    (dead : (client.undergo incident).ending = some ending)
    : client.Kills incident ending := by
  have phase : client.phase = .busy ∨ client.phase = .idle := by
    rw [phase_eq_busy, phase_eq_idle]
    cases client.inFlight <;> simp [alive]
  cases incident with
  | served deed => cases alive.symm.trans dead
  | ask query =>
      rcases phase with busy | idle
      · rw [undergo, ask_of_busy busy] at dead
        cases alive.symm.trans dead
      · rcases ask_of_idle query idle with ⟨-, sent⟩ | ⟨deserted, unsent⟩
        · rw [undergo, sent] at dead
          cases alive.symm.trans dead
        · rw [undergo, unsent] at dead
          cases dead
          exact .unsent (phase_eq_idle.mp idle).2 deserted
  | begin query count =>
      rw [undergo] at dead
      cases begun : client.begin? query count with
      | none =>
          rw [begun] at dead
          cases alive.symm.trans dead
      | some after =>
          obtain ⟨-, -, rfl⟩ := begin?_eq_some begun
          rw [begun] at dead
          cases alive.symm.trans dead
  | tear query count =>
      rcases phase with busy | idle
      · rw [undergo, tear, busy] at dead
        cases alive.symm.trans dead
      · rw [undergo, tear, if_pos idle] at dead
        cases dead
        exact .torn (phase_eq_idle.mp idle).2
  | readOn =>
      rcases phase with busy | idle
      · obtain ⟨fault, breaks, rfl⟩ := (ending_readOn_iff busy).mp dead
        exact .read (phase_eq_busy.mp busy).2 breaks
      · rw [undergo, nextEvent?_of_idle idle] at dead
        cases alive.symm.trans dead
  | search query =>
      rcases phase with busy | idle
      · rw [undergo, search_of_unsent (ask_of_busy busy)] at dead
        cases alive.symm.trans dead
      · obtain ⟨-, free⟩ := phase_eq_idle.mp idle
        rcases (ending_search_iff idle).mp dead with
          ⟨deserted, rfl⟩ | ⟨reads, fault, breaks, rfl⟩
        · exact .unsearched free deserted
        · exact .searched free reads breaks
  | goOn found =>
      rcases phase with busy | idle
      · obtain ⟨fault, breaks, rfl⟩ := (ending_collect_iff busy).mp dead
        exact .wentOn (phase_eq_busy.mp busy).2 breaks
      · rw [undergo, collect_of_error found (nextEvent?_of_idle idle)] at dead
        cases alive.symm.trans dead
  | close =>
      rw [undergo, close, alive] at dead
      cases dead
      exact .closed

/-- A client that is alive ends for this reason exactly if what happens kills it for it. -/
theorem kills_iff (alive : client.ending = none)
    : (client.undergo incident).ending = some ending ↔ client.Kills incident ending :=
  ⟨kills_of_ending alive, fun kills => ending_of_kills kills alive⟩

-----------------------------------------------------------------------------------------
-- Clients that are dead
-----------------------------------------------------------------------------------------

/-- A client that is dead tells so, whatever it is asked, and is left as it is. -/
structure Refuses (client : Client) (ending : Ending) : Prop where
  dead : client.ending = some ending
  unfit : client.isIdle = false
  ask : ∀ query, client.ask query = (.error (.closed ending), client)
  readOn : client.nextEvent? = some (.error (.closed ending), client)
  search : ∀ query, client.search query = (.finished (.error (.closed ending)), client)

/-- A dead client refuses everything. -/
theorem refuses_of_dead (dead : client.ending = some ending) : client.Refuses ending := by
  have asked : ∀ query, client.ask query = (.error (.closed ending), client) :=
    fun _ => ask_of_dead (phase_eq_dead.mpr dead)
  refine ⟨dead, by simp [isIdle, dead], asked, nextEvent?_of_dead (phase_eq_dead.mpr dead), ?_⟩
  exact fun query => search_of_unsent (asked query)

/-- A client that is dead stays so for the same reason. The backend may read what was written, and
nothing is written behind it.
-/
theorem undergo_of_dead (dead : client.ending = some ending) (incident : Incident)
    : (client.undergo incident).ending = some ending
      ∧ client.collected incident ++ (client.undergo incident).pipe.outbound
        = client.pipe.outbound := by
  have refuses := refuses_of_dead dead
  have phase := phase_eq_dead.mpr dead
  cases incident with
  | served deed =>
      refine ⟨dead, ?_⟩
      cases deed with
      | send bytes =>
          simp only [undergo, collected, Pipe.undergo?, Pipe.send?]
          split <;> rfl
      | finish | hangUp | breakOff => rfl
      | collect => exact List.append_nil _
  | ask query => simp [undergo, collected, refuses.ask, dead]
  | begin query count => simp [undergo, collected, begin?, phase, dead]
  | tear query count => simp [undergo, collected, tear, phase, dead]
  | readOn => simp [undergo, collected, refuses.readOn, dead]
  | search query => simp [undergo, collected, refuses.search, dead]
  | goOn found => simp [undergo, collected, collect_of_error found refuses.readOn, dead]
  | close => simp [undergo, collected, close, dead, Pipe.close]

/-- A dead client stays so for the same reason, and nothing more is written, by induction on what
happens.
-/
theorem undergoAll_of_dead (dead : client.ending = some ending) (incidents : List Incident)
    : (client.undergoAll incidents).ending = some ending
      ∧ client.delivered incidents = client.pipe.outbound := by
  induction incidents generalizing client with
  | nil => exact ⟨dead, rfl⟩
  | cons incident incidents ih =>
      obtain ⟨still, kept⟩ := undergo_of_dead dead incident
      obtain ⟨after, delivered⟩ := ih still
      refine ⟨after, ?_⟩
      rw [Client.delivered, delivered, kept]

/-- One of these things has killed a client, which was alive before. -/
def Killed (client : Client) (incidents : List Incident) (ending : Ending) : Prop :=
  ∃ before incident rest,
    incidents = before ++ incident :: rest
    ∧ (client.undergoAll before).ending = none
    ∧ (client.undergoAll before).Kills incident ending

/-- One of several things has killed a client if the first has, or one of the others has killed what
the first left.
-/
theorem killed_cons {incidents : List Incident}
    : client.Killed (incident :: incidents) ending
      ↔ client.ending = none ∧ client.Kills incident ending
        ∨ (client.undergo incident).Killed incidents ending := by
  constructor
  · rintro ⟨before, first, rest, same, alive, kills⟩
    cases before with
    | nil =>
        cases same
        exact .inl ⟨alive, kills⟩
    | cons _ before =>
        cases same
        exact .inr ⟨before, first, rest, rfl, alive, kills⟩
  · rintro (⟨alive, kills⟩ | ⟨before, first, rest, rfl, alive, kills⟩)
    · exact ⟨[], incident, incidents, rfl, alive, kills⟩
    · exact ⟨incident :: before, first, rest, rfl, alive, kills⟩

/-- A client is dead just if it was, or if something has killed it since, by induction on what has
happened.
-/
theorem ending_undergoAll_iff (incidents : List Incident)
    : (client.undergoAll incidents).ending = some ending
      ↔ client.ending = some ending ∨ client.Killed incidents ending := by
  induction incidents generalizing client with
  | nil => simp [undergoAll, Killed]
  | cons incident incidents ih =>
      have step : (client.undergo incident).ending = some ending
          ↔ client.ending = some ending ∨ client.ending = none ∧ client.Kills incident ending := by
        cases alive : client.ending with
        | none => simp [kills_iff alive]
        | some before => simp [(undergo_of_dead alive incident).1]
      rw [killed_cons, ← or_assoc, ← step]
      exact ih

-----------------------------------------------------------------------------------------
-- Clients that are read ahead
-----------------------------------------------------------------------------------------

/-- All that the owner of a client sees comes of such incidents, by induction on what is seen. -/
theorem Sees.exists_incidents {first : Client} {history : List Exchange}
    (sees : first.Sees history client)
    : ∃ incidents, client = first.undergoAll incidents := by
  induction sees with
  | none => exact ⟨[], rfl⟩
  | @next history client exchange after before does ih =>
      obtain ⟨incidents, rfl⟩ := ih
      have more : ∀ incident, after = (first.undergoAll incidents).undergo incident
          → ∃ incidents, after = first.undergoAll incidents := by
        rintro incident rfl
        exact ⟨incidents ++ [incident], by simp [undergoAll]⟩
      cases does with
      | served done => exact more (.served _) (by rw [undergo, done]; rfl)
      | asked asked => exact more (.ask _) (by rw [undergo, asked])
      | begun begun => exact more (.begin _ _) (by rw [undergo, begun]; rfl)
      | told told => exact more .readOn (by rw [undergo, told]; rfl)
      | gaveUp => exact ⟨incidents, rfl⟩

/-- A client whose pipe is read ahead is, but for what is left in the pipe, one to which such things
have happened.
-/
theorem exists_incidents_of_readAhead {history : List Exchange} {final : ReadAhead}
    (run : ReadAhead.Run { client } history final)
    : ∃ incidents,
        final.client = (client.undergoAll incidents).leaving final.client.pipe.inbound := by
  obtain ⟨plain, sees, follows⟩ := run.exists_sees .none (ReadAhead.follows_new client)
  obtain ⟨incidents, rfl⟩ := sees.exists_incidents
  exact ⟨incidents, follows.same⟩

-----------------------------------------------------------------------------------------
-- Answers that kill nobody
-----------------------------------------------------------------------------------------

variable {after : Client} {query : Query}

/-- A client that has not sent a query is dead, or there was one in flight. -/
theorem of_ask_error {cause : ClientError} (failed : client.ask query = (.error cause, after))
    : (∃ ending, cause = .closed ending)
      ∨ (∃ fault, cause = .fault fault)
      ∨ cause = .busy ∧ after = client ∧ client.ending = none := by
  cases phase : client.phase with
  | dead ending =>
      rw [ask_of_dead phase] at failed
      cases failed
      exact .inl ⟨ending, rfl⟩
  | busy =>
      rw [ask_of_busy phase] at failed
      cases failed
      exact .inr (.inr ⟨rfl, rfl, (phase_eq_busy.mp phase).1⟩)
  | idle =>
      rcases ask_of_idle query phase with ⟨-, sent⟩ | ⟨-, unsent⟩
      · cases failed.symm.trans sent
      · cases failed.symm.trans unsent
        exact .inr (.inl ⟨_, rfl⟩)

/-- A client that could not tell the next event is dead, or there was nothing to be told. -/
theorem of_nextEvent?_error {cause : ClientError}
    (failed : client.nextEvent? = some (.error cause, after))
    : (∃ ending, cause = .closed ending)
      ∨ (∃ fault, cause = .fault fault)
      ∨ cause = .idle ∧ after = client ∧ client.ending = none := by
  cases phase : client.phase with
  | dead ending =>
      rw [nextEvent?_of_dead phase] at failed
      cases failed
      exact .inl ⟨ending, rfl⟩
  | idle =>
      rw [nextEvent?_of_idle phase] at failed
      cases failed
      exact .inr (.inr ⟨rfl, rfl, (phase_eq_idle.mp phase).1⟩)
  | busy =>
      rcases nextEvent?_cases phase with
        ⟨-, waits⟩ | ⟨text, rest, event, -, -, told⟩ | ⟨fault, after, -, told, -⟩
      · cases failed.symm.trans waits
      · cases failed.symm.trans told
      · cases failed.symm.trans told
        exact .inr (.inl ⟨fault, rfl⟩)

/-- A client whose query was refused is idle, by induction on what is read. -/
theorem isIdle_of_collect {found : List Match} {text : String}
    (rejected : client.collect found = (.finished (.error (.rejected text)), after))
    : after.isIdle = true := by
  fun_induction collect found client with
  | case1 => cases rejected
  | case2 found client cause after failed =>
      cases rejected
      rcases of_nextEvent?_error failed with ⟨_, same⟩ | ⟨_, same⟩ | ⟨same, -⟩ <;> cases same
  | case3 found client more after told ih => exact ih rejected
  | case4 => cases rejected
  | case5 found client text after told =>
      cases rejected
      obtain ⟨alive, free, -⟩ := breaksOff_iff_of_nextEvent? told
      simp [isIdle, alive, free, QueryEvent.message, BackendMessage.isTerminator]

/-- A client whose query was rejected can be asked again. -/
theorem isIdle_of_search {text : String}
    (rejected : client.search query = (.finished (.error (.rejected text)), after))
    : after.isIdle = true := by
  rcases asked : client.ask query with ⟨cause | ⟨⟩, next⟩
  · rw [search_of_unsent asked] at rejected
    cases rejected
    rcases of_ask_error asked with ⟨_, same⟩ | ⟨_, same⟩ | ⟨same, -⟩ <;> cases same
  · rw [search_of_sent asked] at rejected
    exact isIdle_of_collect rejected

/-- A client is dead just if it was, or if it has been killed since, by its owner or by a fault in
what was to be written or read next. It is dead for good then, and for that reason: it does
nothing more that it is asked, and all that the backend still reads was written before. A client
that says that a query is in flight or that none is, that tells an event or that was refused an
answer is alive.
-/
theorem dies_once_of_its_cause (client : Client) (incidents : List Incident)
    : (∀ ending,
        (client.undergoAll incidents).ending = some ending
        ↔ client.ending = some ending ∨ client.Killed incidents ending)
      ∧ (∀ ending,
        client.ending = some ending
        → (client.undergoAll incidents).Refuses ending
          ∧ client.delivered incidents = client.pipe.outbound)
      ∧ (∀ query after,
        client.ask query = (.error .busy, after) → after = client ∧ client.ending = none)
      ∧ (∀ after,
        client.nextEvent? = some (.error .idle, after) → after = client ∧ client.ending = none)
      ∧ (∀ event after,
        client.nextEvent? = some (.ok event, after)
        → after.isIdle = event.message.isTerminator ∧ after.ending = none)
      ∧ (∀ query text after,
        client.search query = (.finished (.error (.rejected text)), after)
        → after.isIdle = true) := by
  refine ⟨fun _ => ending_undergoAll_iff incidents, fun ending dead => ?_,
    fun query after failed => ?_, fun after failed => ?_, fun event after told => ?_,
    fun _ _ _ => isIdle_of_search⟩
  · obtain ⟨still, delivered⟩ := undergoAll_of_dead dead incidents
    exact ⟨refuses_of_dead still, delivered⟩
  · rcases of_ask_error failed with ⟨_, same⟩ | ⟨_, same⟩ | ⟨-, same⟩
    · cases same
    · cases same
    · exact same
  · rcases of_nextEvent?_error failed with ⟨_, same⟩ | ⟨_, same⟩ | ⟨-, same⟩
    · cases same
    · cases same
    · exact same
  · obtain ⟨alive, inFlight, -⟩ := breaksOff_iff_of_nextEvent? told
    exact ⟨by simp [isIdle, alive, inFlight], alive⟩

/-- A client that was asked, and has a second greeting instead of an answer in its pipe. -/
def greetedAgain : Client where
  greeting := { name := "a" }
  pipe := { inbound := (BackendMessage.info { name := "a" }).envelope.line ++ [] }
  inFlight := true

/-- The client dies of the second greeting, and not of being closed and asked again. -/
theorem ending_of_greetedAgain
    : (greetedAgain.undergoAll [.ask {}, .readOn, .close, .search {}]).ending
      = some (.byFault (.unexpected "info")) := by
  have decoded : BackendMessage.decode (BackendMessage.info { name := "a" }).envelope.line
      = .ok (.info { name := "a" }) :=
    BackendMessage.decode_line (.info { name := "a" })
  have breaks : Arrival.Breaks .running greetedAgain.pipe.inbound (.unexpected "info") :=
    .misplaced (BackendMessage.of_line _ .running []) decoded (·.message_ne_info _)
  have killed : greetedAgain.Killed [.ask {}, .readOn, .close, .search {}]
      (.byFault (.unexpected "info")) :=
    ⟨[.ask {}], .readOn, [.close, .search {}], rfl, rfl, .read rfl breaks⟩
  exact ((dies_once_of_its_cause greetedAgain _).1 _).mpr (.inr killed)

/-- A client that waits for an answer dies when the connection breaks. -/
example (greeting : Greeting) (cause : String)
    : (({ greeting, pipe := {}, inFlight := true } : Client).undergoAll
        [.served (.breakOff cause), .readOn]).ending
      = some (.byFault (.codec (.broken cause))) := rfl

end Client

end SourceView
