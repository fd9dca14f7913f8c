import SourceView.Proofs.Connection.Exchanges
import SourceView.Proofs.Pool.Conservation

/-! Clients that come back to a pool, with what is still to be said on their connections.
Whoever has a client may let it go at any time, even while a query is being written. The pool keeps
the client if it is alive and takes itself to be idle.
-/

namespace SourceView

-----------------------------------------------------------------------------------------
-- Queries and the ends of their answers
-----------------------------------------------------------------------------------------

namespace Exchange

/-- A query was given up when some of its line was written. -/
def tears : Exchange → Bool
  | begun _ count => 0 < count
  | _ => false

/-- Some of a query's line was written. -/
def writes : Exchange → Bool
  | asked _ (.ok ()) => true
  | exchange => exchange.tears

/-- The end of an answer was read. -/
def ends : Exchange → Bool
  | told _ (.ok (.done _)) | told _ (.ok (.failed _)) => true
  | _ => false

/-- The end of the answer to a query was read behind it. It is the one that has the query's place
among the queries, and it had not arrived before the query was written.
-/
def Answered (pipe : Pipe) (before : List Exchange) (query : Exchange) (later : List Exchange)
    : Prop :=
  ∃ front ending rest,
    later = front ++ ending :: rest
    ∧ ending.ends = true
    ∧ (before ++ query :: front).countP ends = before.countP writes
    ∧ (messages pipe before).length ≤ (taken (before ++ query :: front)).length

variable {pipe : Pipe} {history before later : List Exchange} {exchange query : Exchange}

/-- What holds of a history holds of its beginning. -/
theorem Faithful.of_prefix (faithful : Faithful pipe (before ++ later)) : Faithful pipe before where
  inOrder := by
    rintro first behind rfl
    exact faithful.inOrder first (behind ++ later) (List.append_assoc ..)
  fits := by
    rintro first other behind rfl
    exact faithful.fits first other (behind ++ later) (by simp)

/-- What happens next takes up a query, or ends the answer to one, or neither. -/
theorem Fits.balance (fits : Fits pipe history exchange) (whole : exchange.tears = false)
    (alive : ∀ ending, (Phase.afterAll history).after exchange ≠ .dead ending)
    : (∀ ending, Phase.afterAll history ≠ .dead ending)
      ∧ (if exchange.writes then 1 else 0) + (if Phase.afterAll history = .busy then 1 else 0)
        = (if exchange.ends then 1 else 0)
          + if (Phase.afterAll history).after exchange = .busy then 1 else 0 := by
  cases fits with
  | served | gaveUp => exact ⟨alive, rfl⟩
  | sent query phase => exact ⟨by simp [phase], by simp [phase, writes, ends, Phase.after]⟩
  | askedBusy query phase | unasked phase =>
      exact ⟨by simp [phase], by simp [phase, writes, tears, ends, Phase.after]⟩
  | begun query count phase =>
      refine ⟨by simp [phase], ?_⟩
      simp [phase, writes, whole, ends, Phase.after]
  | unsent query phase | ended phase finished all => exact absurd rfl (alive _)
  | askedDead query phase | toldDead phase => exact absurd phase (alive _)
  | @told message phase next =>
      refine ⟨by simp [phase], ?_⟩
      rcases message with cause | message
      · exact absurd rfl (alive _)
      · cases message with
        | result | stats | error => simp [phase, writes, tears, ends, Incoming.told, Phase.after]
        | info | query => exact absurd rfl (alive _)

/-- As long as no query was torn, each has had an end but the one that is to be answered, by
induction on the history from its end.
-/
theorem Faithful.countP_writes (faithful : Faithful pipe history)
    (whole : ∀ exchange ∈ history, exchange.tears = false)
    (alive : ∀ ending, Phase.afterAll history ≠ .dead ending)
    : history.countP writes
      = history.countP ends + if Phase.afterAll history = .busy then 1 else 0 := by
  induction history using List.reverseRecOn with
  | nil => rfl
  | append_singleton history exchange ih =>
      rw [afterAll_concat] at alive ⊢
      obtain ⟨aliveBefore, balance⟩ :=
        (faithful.fits history exchange [] rfl).balance (whole exchange (by simp)) alive
      have counts := ih faithful.of_prefix (fun other member => whole other (by simp [member]))
        aliveBefore
      rw [List.countP_append, List.countP_append, List.countP_singleton, List.countP_singleton]
      omega

/-- Only the end of an answer makes a client idle that was not. -/
theorem ends_of_after_eq_idle {phase : Phase} (idle : phase.after exchange = .idle)
    (other : phase ≠ .idle)
    : exchange.ends = true := by
  unfold Phase.after at idle
  split at idle
  · cases idle
  · cases idle
  · cases idle
  · rfl
  · rfl
  all_goals exact absurd idle other

/-- Whoever comes to rest has read the end of an answer, by induction on the history. -/
theorem exists_ends {phase : Phase} (idle : later.foldl Phase.after phase = .idle)
    (other : phase ≠ .idle)
    : ∃ front ending rest,
        later = front ++ ending :: rest
        ∧ ending.ends = true
        ∧ ∀ exchange ∈ front, exchange.ends = false := by
  induction later generalizing phase with
  | nil => exact absurd idle other
  | cons first later ih =>
      cases ends : first.ends with
      | true => exact ⟨[], first, later, rfl, ends, by simp⟩
      | false =>
          have still : phase.after first ≠ .idle := by
            intro rests
            cases ends.symm.trans (ends_of_after_eq_idle rests other)
          obtain ⟨front, ending, rest, rfl, ended, unended⟩ := ih idle still
          refine ⟨first :: front, ending, rest, rfl, ended, ?_⟩
          intro exchange member
          rcases List.mem_cons.mp member with rfl | behind
          · exact ends
          · exact unended exchange behind

/-- A query that was written when everything had been read was answered, if the client has come to
rest since and no query was torn before.
-/
theorem Faithful.answered (faithful : Faithful pipe (before ++ query :: later))
    (written : query.writes = true)
    (whole : ∀ exchange ∈ before ++ [query], exchange.tears = false)
    (read : taken before = messages pipe before)
    (idle : Phase.afterAll (before ++ query :: later) = .idle)
    : Answered pipe before query later := by
  have fits := faithful.fits before query later rfl
  have untorn := whole query (by simp)
  have sent : Phase.afterAll before = .idle
      ∧ query.ends = false ∧ (Phase.afterAll before).after query = .busy := by
    cases fits with
    | sent _ phase => exact ⟨phase, rfl, rfl⟩
    | begun _ count phase => cases untorn.symm.trans written
    | served | gaveUp | unsent | askedBusy | askedDead | told | ended | unasked | toldDead =>
        cases written
  obtain ⟨phase, endless, busy⟩ := sent
  have counts := faithful.of_prefix.countP_writes
    (fun exchange member => whole exchange (List.mem_append_left _ member)) (by simp [phase])
  rw [Phase.afterAll, List.foldl_append, List.foldl_cons] at idle
  have goesOn : later.foldl Phase.after .busy = .idle := busy ▸ idle
  obtain ⟨front, ending, rest, rfl, ended, unended⟩ := exists_ends goesOn (by simp)
  refine ⟨front, ending, rest, rfl, ended, ?_, ?_⟩
  · have unended : front.countP ends = 0 := by
      rw [List.countP_eq_zero]
      intro exchange member
      simp [unended exchange member]
    rw [List.countP_append, List.countP_cons, unended, counts, phase, endless]
    rfl
  · rw [← read, taken, taken, List.flatMap_append, List.length_append]
    exact Nat.le_add_right ..

end Exchange

/-- A client is idle if it is alive and its query has been answered. -/
theorem Client.isIdle_iff {client : Client}
    : client.isIdle = true ↔ client.ending = none ∧ client.inFlight = false := by
  rw [isIdle, Bool.and_eq_true, Bool.not_eq_true', Option.isNone_iff_eq_none]

/-- A closed pool gives up each client that is released. -/
theorem Pool.release_of_closed {κ τ : Type} {pool : Pool κ τ} {client : κ}
    (closed : pool.closed = true) (clean : Bool)
    : pool.release client clean
      = (false, {
        pool with
        checkedOut := pool.checkedOut - 1
        pending := pool.pending + 1 }) := by
  simp [release, returnToken, closed]

-----------------------------------------------------------------------------------------
-- A pool and what happens on its connections
-----------------------------------------------------------------------------------------

/-- A pool in use, with what has happened on its connections. -/
structure Custody (κ τ : Type) extends Circulation κ τ where
  /-- What stood in the pipe of each connection before the greeting was read. -/
  opened : κ → Pipe := fun _ => {}
  /-- What has happened on each connection since. -/
  histories : κ → List Exchange := fun _ => []

namespace Custody

variable {κ τ : Type}

/-- A pool that has yet to dial. -/
def create (address : String) (size : Nat) : Custody κ τ :=
  { toCirculation := .create address size }

section Connections

variable [DecidableEq κ]

/-- This has happened to a client, and has left it so. -/
def happen (state : Custody κ τ) (name : κ) (exchange : Exchange) (client : Client)
    : Custody κ τ :=
  { state with
    toCirculation := state.setClient name client
    histories := override state.histories name (state.histories name ++ [exchange]) }

/-- An attempt to dial has brought a client. -/
def dialled (state : Custody κ τ) (name : κ) (pipe : Pipe) (client : Client) : Custody κ τ where
  toCirculation := state.toCirculation.dialled name client
  opened := override state.opened name pipe
  histories := override state.histories name []

variable {state : Custody κ τ} {name : κ} {client after : Client} {exchange : Exchange}

/-- What someone does with a client is a step of those who use the pool. -/
theorem use_of_does (does : client.Does exchange after)
    : client.Use after ∨ ∃ pipe, after = { client with pipe } := by
  cases does with
  | served => exact .inr ⟨_, rfl⟩
  | @asked query answer after asked =>
      have use : client.Use (client.ask query).2 := .ask query
      rw [asked] at use
      exact .inl use
  | begun begun =>
      obtain ⟨-, -, rfl⟩ := Client.begin?_eq_some begun
      exact .inr ⟨_, rfl⟩
  | told told => exact .inl (.read told)
  | gaveUp => exact .inr ⟨client.pipe, rfl⟩

/-- A client that is alive behind something was alive before it. -/
theorem ending_of_does (does : client.Does exchange after) (alive : after.ending = none)
    : client.ending = none := by
  rcases use_of_does does with use | ⟨pipe, rfl⟩
  · exact use.ending alive
  · exact alive

/-- As long as the client of a connection is alive, it has come to where the history says. -/
def Recorded (state : Custody κ τ) : Prop :=
  ∀ name client,
    state.clients name = some client
    → client.ending = none
    → client.Abreast (state.opened name) (state.histories name)
      ∧ Exchange.Faithful (state.opened name) (state.histories name)

/-- What happens to a client is recorded. -/
theorem Recorded.happen (recorded : state.Recorded) (known : state.clients name = some client)
    (does : client.Does exchange after)
    : (state.happen name exchange after).Recorded := by
  intro other found located alive
  simp only [Custody.happen, Circulation.setClient, override] at located ⊢
  split at located
  · next same =>
      cases located
      subst same
      rw [if_pos rfl]
      obtain ⟨abreast, faithful⟩ := recorded other client known (ending_of_does does alive)
      obtain ⟨moved, fits⟩ := abreast.does does
      exact ⟨moved, faithful.concat fits moved.inOrder⟩
  · next apart =>
      rw [if_neg apart]
      exact recorded other found located alive

/-- A client that was dialled has nothing behind it that is not recorded. -/
theorem Recorded.dialled {pipe : Pipe} (recorded : state.Recorded)
    (greeted : Client.handshake? pipe = some (.ok client))
    : (state.dialled name pipe client).Recorded := by
  intro other found located alive
  simp only [Custody.dialled, Circulation.dialled, Circulation.setClient, override] at located ⊢
  split at located
  · next same =>
      cases located
      rw [if_pos same, if_pos same]
      split at alive
      · next kept =>
          rw [if_pos kept]
          exact ⟨Client.abreast_of_handshake? greeted, Exchange.faithful_nil pipe⟩
      · cases alive
  · next apart =>
      rw [if_neg apart, if_neg apart]
      exact recorded other found located alive

end Connections

-----------------------------------------------------------------------------------------
-- Steps
-----------------------------------------------------------------------------------------

section Steps

variable [DecidableEq κ] [DecidableEq τ]

/-- One step of anyone. -/
inductive Step : Custody κ τ → Custody κ τ → Prop
  /-- Someone who holds a client asks it or reads from it, or gives that up. -/
  | call {state name client exchange after} (holds : name ∈ state.held)
    (known : state.clients name = some client) (does : client.Does exchange after)
    : Step state (state.happen name exchange after)
  | serve {state name client deed pipe} (known : state.clients name = some client)
    (done : client.pipe.undergo? deed = some pipe)
    : Step state (state.happen name (.served deed) { client with pipe })
  | dialled {state name pipe client} (dialling : state.pool.supervisor = .dialling)
    (new : state.clients name = none) (greeted : Client.handshake? pipe = some (.ok client))
    : Step state (state.dialled name pipe client)
  /-- Anyone takes a step that only closes clients, if it does anything to them. -/
  | move {state after} (step : Circulation.Step state.toCirculation after)
    (still
      : ∀ name client,
        after.clients name = some client
        → client.ending = none
        → state.clients name = some client)
    : Step state { state with toCirculation := after }

/-- Steps, one after the other. -/
inductive Run : Custody κ τ → Custody κ τ → Prop
  | none {state} : Run state state
  | next {state middle final} (run : Run state middle) (step : Step middle final)
    : Run state final

variable {state next : Custody κ τ}

/-- Each step is one of the pool. -/
theorem Step.circulation (step : Step state next)
    : Circulation.Step state.toCirculation next.toCirculation := by
  cases step with
  | call holds known does =>
      rcases use_of_does does with use | ⟨pipe, rfl⟩
      · exact .use holds known use
      · exact .serve known pipe
  | serve known done => exact .serve known _
  | dialled dialling new greeted => exact .dialled dialling new greeted
  | move step still => exact step

/-- Steps are a run of the pool, by induction on the run. -/
theorem Run.circulation (run : Run state next)
    : Circulation.Run state.toCirculation next.toCirculation := by
  induction run with
  | none => exact .none
  | next _ step ih => exact ih.next step.circulation

/-- Each step keeps the record of what happened, by cases on the step. -/
theorem Step.recorded (step : Step state next) (recorded : state.Recorded) : next.Recorded := by
  cases step with
  | call holds known does => exact recorded.happen known does
  | serve known done => exact recorded.happen known (.served done)
  | dialled dialling new greeted => exact recorded.dialled greeted
  | move step still =>
      intro other found located alive
      exact recorded other found (still other found located alive) alive

/-- A run keeps the record of what happened, by induction on the run. -/
theorem Run.recorded {address : String} {size : Nat} (run : Run (create address size) state)
    : state.Recorded := by
  induction run with
  | none => exact nofun
  | next _ step ih => exact step.recorded ih

-----------------------------------------------------------------------------------------
-- Clients that come back
-----------------------------------------------------------------------------------------

/-- A client that comes back is kept if it is idle and the pool is open, and then each query of
which something was written on its connection has been answered, unless a query was torn before, or
something stood unread in the pipe when the query was written. Otherwise the client is closed, and
its token goes back to the supervisor of an open pool.
-/
theorem returned_clients_answered (address : String) (size : Nat) (state : Custody κ τ)
    (run : Run (create address size) state) (name : κ) (client : Client)
    (holds : name ∈ state.held) (known : state.clients name = some client)
    : (client.isIdle = true ∧ state.pool.closed = false
        → (state.putBack name client).pool.idleQueue = state.pool.idleQueue ++ [name]
          ∧ (state.putBack name client).clients name = some client
          ∧ ∀ before query later,
            state.histories name = before ++ query :: later
            → query.writes = true
            → Exchange.Answered (state.opened name) before query later
              ∨ (∃ exchange ∈ before ++ [query], exchange.tears = true)
              ∨ Exchange.taken before ≠ Exchange.messages (state.opened name) before)
      ∧ (¬ (client.isIdle = true ∧ state.pool.closed = false)
        → (state.putBack name client).pool.idleQueue = state.pool.idleQueue
          ∧ (state.putBack name client).clients name = some client.close
          ∧ (state.putBack name client).pool.pending = state.pool.pending + 1
          ∧ (state.pool.closed = false
            → (state.putBack name client).pool.tokens = state.pool.tokens + 1)) := by
  refine ⟨fun ⟨idle, isOpen⟩ => ?_, fun unfit => ?_⟩
  · have balanced := run.circulation.balanced isOpen
    have kept : state.pool.release name true = _ :=
      Pool.release_of_clean isOpen balanced.undrained (balanced.room_of_held holds).1
    refine ⟨?_, ?_, fun before query later split written => ?_⟩
    · rw [Circulation.putBack, idle, kept]
      rfl
    · rw [Circulation.putBack, idle, kept]
      exact override_self
    · obtain ⟨alive, free⟩ := Client.isIdle_iff.mp idle
      obtain ⟨abreast, faithful⟩ := run.recorded name client known alive
      have rests := abreast.phase.symm.trans (Client.phase_eq_idle.mpr ⟨alive, free⟩)
      by_cases torn : ∃ exchange ∈ before ++ [query], exchange.tears = true
      · exact .inr (.inl torn)
      by_cases read : Exchange.taken before = Exchange.messages (state.opened name) before
      · rw [split] at faithful rests
        refine .inl (faithful.answered written (fun exchange member => ?_) read rests)
        exact eq_false_of_ne_true fun tears => torn ⟨exchange, member, tears⟩
      · exact .inr (.inr read)
  · cases isOpen : state.pool.closed with
    | true =>
        have closed : state.pool.release name client.isIdle = _ :=
          Pool.release_of_closed isOpen client.isIdle
        rw [Circulation.putBack, closed]
        refine ⟨rfl, override_self, rfl, fun opened => ?_⟩
        cases opened
    | false =>
        have balanced := run.circulation.balanced isOpen
        have busy : client.isIdle = false := eq_false_of_ne_true fun idle => unfit ⟨idle, isOpen⟩
        have closed : state.pool.release name false = _ :=
          Pool.release_of_unfit isOpen (balanced.room_of_held holds).2
        rw [Circulation.putBack, busy, closed]
        exact ⟨rfl, override_self, rfl, fun _ => rfl⟩

end Steps

-----------------------------------------------------------------------------------------
-- A pool of one
-----------------------------------------------------------------------------------------

/-- What a backend writes when it is connected to, with this behind it. -/
def hello (rest : List UInt8) : Pipe where
  inbound := (BackendMessage.info { name := "a" }).envelope.line ++ rest

/-- A pool whose one client is held by someone, and is now this one. -/
def heldCustody (rest : List UInt8) (client : Client) (history : List Exchange)
    : Custody Nat Nat where
  pool := {
    address := "a:1"
    size := 1
    tokens := 0
    delay := 10
    offer := ({ name := "a" } : Greeting).offer
    pending := 0
    checkedOut := 1 }
  clients := override (fun _ => none) 0 (some client)
  held := [0]
  opened := override (fun _ => {}) 0 (hello rest)
  histories := override (fun _ => []) 0 history

/-- The client of the pool, with this left in its pipe. -/
def newClient (rest : List UInt8) : Client where
  greeting := { name := "a" }
  pipe := { inbound := rest }

/-- The pool with a client that is held comes of a dial and a request. -/
theorem run_heldCustody (rest : List UInt8)
    : Run (create "a:1" 1) (heldCustody rest (newClient rest) []) := by
  have dialling : Run (create "a:1" 1 : Custody Nat Nat) _ :=
    Run.none.next (.move (.startDial rfl) fun _ _ known _ => known)
  have dialled : Run (create "a:1" 1 : Custody Nat Nat) (Custody.dialled _ 0 (hello rest) _) :=
    dialling.next (.dialled rfl rfl (Client.handshake?_of_line { name := "a" } rest))
  have waiting := dialled.next (.move (.request 7) fun _ _ known _ => known)
  exact waiting.next
    (.move (@Circulation.Step.grant Nat Nat _ _ _ 7 0 _ rfl) fun _ _ known _ => known)

/-- What happens to the client in someone's hands is the whole change. -/
theorem run_happen {rest : List UInt8} {client after : Client} {history : List Exchange}
    {exchange : Exchange} (run : Run (create "a:1" 1) (heldCustody rest client history))
    (does : client.Does exchange after)
    : Run (create "a:1" 1) (heldCustody rest after (history ++ [exchange])) := by
  have same : (heldCustody rest client history).happen 0 exchange after
      = heldCustody rest after (history ++ [exchange]) := by
    rw [happen, Circulation.setClient, heldCustody, override_override, override_override]
    rfl
  exact same ▸ run.next (.call List.mem_cons_self rfl does)

/-- The client when it was asked, with this to be read. -/
def askedClient (inbound : List UInt8) : Client where
  greeting := { name := "a" }
  pipe := { inbound, outbound := (Query.envelope { line := "x" }).line }
  inFlight := true

/-- A client that is asked and then reads this message has no query to be answered. -/
theorem run_told {rest : List UInt8} {history : List Exchange} {message : BackendMessage}
    (run : Run (create "a:1" 1)
      (heldCustody rest (askedClient (message.envelope.line ++ [])) history))
    : Run (create "a:1" 1)
        (heldCustody rest (((askedClient []).take (.ok message)).2)
          (history ++ [.told (some (.ok message)) (Incoming.told (.ok message))])) := by
  have busy : (askedClient (message.envelope.line ++ [])).phase = .busy := rfl
  obtain ⟨told, front⟩ := Client.nextEvent?_of_message busy message rfl
  exact front ▸ run_happen run (.told told)

/-- A client that has read the end of the answer is kept. -/
theorem returned_after_refusal
    : ∃ (state : Custody Nat Nat) (client : Client),
        Run (create "a:1" 1) state
        ∧ 0 ∈ state.held
        ∧ state.clients 0 = some client
        ∧ (state.putBack 0 client).pool.idleQueue = [0]
        ∧ (state.putBack 0 client).clients 0 = some client := by
  have asked := run_happen (run_heldCustody [])
    (@Client.Does.asked _ { line := "x" } (.ok ()) (askedClient []) rfl)
  have served := run_happen asked
    (@Client.Does.served _ (.send ((BackendMessage.error "y").envelope.line ++ [])) _ rfl)
  have told := run_told served
  obtain ⟨kept, -⟩ := returned_clients_answered "a:1" 1 _ told 0 _ List.mem_cons_self rfl
  obtain ⟨queued, known, -⟩ := kept ⟨rfl, rfl⟩
  exact ⟨_, _, told, List.mem_cons_self, rfl, queued, known⟩

/-- A message that is written with the greeting has arrived when the greeting is read. -/
theorem messages_hello_ne_nil (message : BackendMessage)
    : Exchange.messages (hello (message.envelope.line ++ [])) [] ≠ [] := by
  have abreast := Client.abreast_of_handshake?
    (Client.handshake?_of_line { name := "a" } (message.envelope.line ++ []))
  have first : (Arrival.lines .running (message.envelope.line ++ [] ++ [])).head? = some _ :=
    head?_lines (message.of_line .running []) fun _ => ⟨rfl, rfl⟩
  intro nothing
  obtain ⟨-, unread⟩ := List.append_eq_nil_iff.mp ((abreast.messages_eq rfl).symm.trans nothing)
  have left := List.map_eq_nil_iff.mp (List.append_eq_nil_iff.mp unread).1
  rw [List.append_nil] at first
  rw [left] at first
  cases first

/-- A client is kept although a query on its connection was not answered: when the query was given
up while it was being written, and when the backend had written the end of an answer before.
-/
theorem exists_unanswered_kept
    : (∃ (state : Custody Nat Nat) (client : Client),
        Run (create "a:1" 1) state
        ∧ 0 ∈ state.held
        ∧ state.clients 0 = some client
        ∧ (state.putBack 0 client).pool.idleQueue = [0]
        ∧ state.histories 0 = [.begun { line := "x" } 1]
        ∧ ¬ Exchange.Answered (state.opened 0) [] (.begun { line := "x" } 1) [])
      ∧ ∃ (state : Custody Nat Nat) (client : Client) (later : List Exchange),
          Run (create "a:1" 1) state
          ∧ 0 ∈ state.held
          ∧ state.clients 0 = some client
          ∧ (state.putBack 0 client).pool.idleQueue = [0]
          ∧ state.histories 0 = .asked { line := "x" } (.ok ()) :: later
          ∧ ¬ Exchange.Answered (state.opened 0) [] (.asked { line := "x" } (.ok ())) later := by
  refine ⟨?_, ?_⟩
  · have begun := run_happen (run_heldCustody [])
      (@Client.Does.begun _ { line := "x" } 1 _ rfl)
    refine ⟨_, _, begun, List.mem_cons_self, rfl, rfl, rfl, ?_⟩
    rintro ⟨front, ending, rest, split, -⟩
    simp at split
  · have asked := run_happen (run_heldCustody ((BackendMessage.stats {}).envelope.line ++ []))
      (@Client.Does.asked _ { line := "x" } (.ok ()) (askedClient _) rfl)
    have told := run_told asked
    refine ⟨_, _, _, told, List.mem_cons_self, rfl, rfl, rfl, ?_⟩
    rintro ⟨front, ending, rest, split, -, -, fresh⟩
    cases front with
    | cons => simp at split
    | nil => exact messages_hello_ne_nil _ (List.length_eq_zero_iff.mp (Nat.le_zero.mp fresh))

end Custody

end SourceView
