import SourceView.Proofs.Connection.BackendRun
import SourceView.Proofs.Connection.Clients
import SourceView.Proofs.Session.FrameOrder

/-! A session at work: the clients that it is granted, and what their backends write.
Whatever can happen around a session happens one thing at a time and in any order. A client that
the session holds is touched by nobody else but its backend; any other client may change in any way.
-/

namespace SourceView

-----------------------------------------------------------------------------------------
-- A session and its clients
-----------------------------------------------------------------------------------------

/-- A session, the clients it can be granted, and what has become of it so far. -/
structure Service (κ : Type) where
  session : Session κ := {}
  clients : κ → Client
  effects : List (Session.Effect κ) := []
  /-- The queries that were sent, the last one first. -/
  runs : List (BackendRun κ) := []

/-- What can happen around a session. -/
inductive Happening (κ : Type) where
  -- The browser
  | frame (text : List UInt8)
  | left
  | deafened
  -- The pools
  | granted (name : κ)
  | refused (cause : PoolError)
  -- The session's client
  | read
  -- The backends
  | sent (name : κ) (bytes : List UInt8)
  | finished (name : κ)
  | hungUp (name : κ)
  | collected (name : κ)
  | brokeOff (name : κ) (cause : String)
  -- Others who use the clients
  | replaced (name : κ) (client : Client)

/-- The search that a happening asks for. -/
def Happening.request? {κ : Type} : Happening κ → Option SearchRequest
  | .frame text => (Session.Input.frame text : Session.Input κ).request?
  | _ => none

namespace Service

variable {κ : Type} [DecidableEq κ]

/-- The client behind a name is now this one. -/
def setClient (service : Service κ) (name : κ) (client : Client) : Service κ :=
  { service with clients := override service.clients name client }

/-- The session handles an input. What it wants done is only noted. -/
def hear (service : Service κ) (setting : Session.Setting) (input : Session.Input κ)
    : Service κ :=
  let turn := service.session.handle setting input
  { service with session := turn.session, effects := service.effects ++ turn.effects }

/-- A client is asked. If it cannot be asked, the session hears of that before anything else. -/
def ask (service : Service κ) (setting : Session.Setting) (name : κ) (query : Query)
    : Service κ :=
  match (service.clients name).ask query with
  | (.error cause, client) => (service.setClient name client).hear setting (.event (.error cause))
  | (.ok (), client) =>
    let started := service.session.running.toList.map fun running => {
      request := running.request
      client := name
      stream := client.pipe.inbound
      flow := client.pipe.flow }
    { service.setClient name client with runs := started ++ service.runs }

/-- Do what the session wants done. What becomes of a client that it has given back is up to those
who use it next.
-/
def perform (setting : Session.Setting) (service : Service κ) : Session.Effect κ → Service κ
  | .ask name query => service.ask setting name query
  | .reply _ | .release _ _ | .close _ => service

/-- The session handles an input, and what it wants done is done. -/
def feed (service : Service κ) (setting : Session.Setting) (input : Session.Input κ)
    : Service κ :=
  (service.session.handle setting input).effects.foldl (perform setting)
    (service.hear setting input)

/-- The session's client reads the next part of the answer, if it has arrived. A session that has
ended reads no more.
-/
def read (service : Service κ) (setting : Session.Setting) : Service κ :=
  match service.session.ended, service.session.holds? with
  | false, some (_, name) =>
    match (service.clients name).nextEvent? with
    | none => service
    | some (outcome, client) => (service.setClient name client).feed setting (.event outcome)
  | _, _ => service

/-- The session holds a client. -/
def holds (service : Service κ) (name : κ) : Bool :=
  (service.session.holds?.map Prod.snd) == some name

/-- A backend has done something to a pipe, and has perhaps written. That counts for the last query
if the session holds the client.
-/
def serve (service : Service κ) (name : κ) (bytes : List UInt8) (pipe : Pipe) : Service κ :=
  { service.setClient name { service.clients name with pipe } with
    runs :=
      match service.runs with
      | [] => []
      | run :: rest =>
        if service.holds name then run.extend bytes pipe.flow :: rest else run :: rest }

/-- What comes of a happening. What cannot happen changes nothing. -/
def happen (service : Service κ) (setting : Session.Setting) : Happening κ → Service κ
  | .frame text => service.feed setting (.frame text)
  | .left => service.feed setting .left
  | .deafened => service.feed setting .deafened
  | .granted name =>
    if service.session.waitsFor?.isSome then service.feed setting (.granted name) else service
  | .refused cause =>
    if service.session.waitsFor?.isSome then service.feed setting (.refused cause) else service
  | .read => service.read setting
  | .sent name bytes =>
    match (service.clients name).pipe.send? bytes with
    | none => service
    | some pipe => service.serve name bytes pipe
  | .finished name => service.serve name [] (service.clients name).pipe.finish
  | .hungUp name => service.serve name [] (service.clients name).pipe.hangUp
  | .collected name => service.serve name [] (service.clients name).pipe.collect.2
  | .brokeOff name cause => service.serve name [] ((service.clients name).pipe.breakOff cause)
  | .replaced name client =>
    if service.holds name then service else service.setClient name client

/-- What comes of happenings, one after the other, each in a setting of its own. -/
def run (service : Service κ) (happenings : List (Session.Setting × Happening κ)) : Service κ :=
  happenings.foldl (fun service (setting, happening) => service.happen setting happening) service

end Service

/-- The numbers of the searches that happenings ask for, in order. -/
def Happening.requested {κ : Type} (happenings : List (Session.Setting × Happening κ))
    : List UInt64 :=
  happenings.filterMap fun (_, happening) => happening.request?.map SearchRequest.id

/-- The searches that are asked for come in their order. -/
theorem Happening.requested_cons {κ : Type} (setting : Session.Setting) (happening : Happening κ)
    (rest : List (Session.Setting × Happening κ))
    : requested ((setting, happening) :: rest)
      = (happening.request?.map SearchRequest.id).toList ++ requested rest := by
  cases asked : happening.request? with
  | none => simp [requested, asked]
  | some request => simp [requested, asked]

-----------------------------------------------------------------------------------------
-- What a session asks, and what it holds
-----------------------------------------------------------------------------------------

namespace Session

variable {κ : Type} {setting : Setting} {input : Input κ} {session next : Session κ}
  {effects : List (Effect κ)} {running : RunningSearch κ} {name : κ}

/-- Nobody is asked. -/
def Unasked (effects : List (Effect κ)) : Prop :=
  ∀ name query, .ask name query ∉ effects

/-- No effects ask nothing. -/
theorem unasked_nil : Unasked ([] : List (Effect κ)) :=
  fun _ _ member => nomatch member

/-- Effects one behind the other ask nothing if none of both does. -/
theorem Unasked.append {more : List (Effect κ)} (first : Unasked effects) (later : Unasked more)
    : Unasked (effects ++ more) := by
  intro name query member
  rcases List.mem_append.mp member with asked | asked
  · exact first name query asked
  · exact later name query asked

/-- Telling something asks nothing. -/
theorem unasked_saying (session : Session κ) (message : BrowserMessage)
    : Unasked (session.saying message) := by
  rw [saying]
  split
  · exact unasked_nil
  · simp [Unasked]

/-- Giving back a client asks nothing. -/
theorem unasked_releasing (session : Session κ) : Unasked session.releasing := by
  rw [releasing]
  split
  · simp [Unasked]
  · exact unasked_nil

/-- Only a session that is granted a client asks, by cases on the move. -/
theorem Move.unasked (move : Move setting input session effects next)
    (ungranted : ∀ name, input ≠ .granted name)
    : Unasked effects := by
  cases move with
  | deafen | start => exact unasked_nil
  | stop =>
      simp only [shutDown]
      split
      · simp [Unasked]
      · exact unasked_nil
  | complain | reject | pass => exact unasked_saying _ _
  | ask granted => exact absurd granted (ungranted _)
  | decline granted => exact absurd granted (ungranted _)
  | giveUp =>
      split
      · exact unasked_nil
      · exact unasked_saying _ _
  | finish =>
      apply (unasked_releasing session).append
      split
      · exact unasked_nil
      · exact unasked_saying _ _
  | retry | drop => exact unasked_releasing session

/-- A turn asks nothing unless a client is granted, by induction on its moves. -/
theorem Moves.unasked (moves : Moves setting input session effects next)
    (ungranted : ∀ name, input ≠ .granted name)
    : Unasked effects := by
  induction moves with
  | none => exact unasked_nil
  | next move _ ih => exact (move.unasked ungranted).append ih

/-- An input asks nothing unless it grants a client. -/
theorem handle_unasked (settled : session.Settled) (ungranted : ∀ name, input ≠ .granted name)
    : Unasked (session.handle setting input).effects :=
  (handle_moves settled).unasked ungranted

/-- A session holds a client for a search. -/
def HoldsFor (session : Session κ) (name : κ) (request : SearchRequest) : Prop :=
  ∃ running,
    session.running = some running ∧ running.client = some name ∧ running.request = request

/-- Without asking, a session gets hold of no client, by cases on the move. -/
theorem Move.holdsFor {request : SearchRequest} (move : Move setting input session effects next)
    (unasked : Unasked effects) (holds : next.HoldsFor name request)
    : session.HoldsFor name request := by
  obtain ⟨running, busy, granted, same⟩ := holds
  cases move with
  | deafen | complain | pass | reject => exact ⟨running, busy, granted, same⟩
  | start =>
      cases busy
      cases granted
  | ask => exact absurd List.mem_cons_self (unasked _ _)
  | stop | decline | giveUp | finish | retry | drop => cases busy

/-- A turn that asks nothing leaves the session with the client that it held for a search, by
induction on its moves.
-/
theorem Moves.holdsFor {request : SearchRequest}
    (moves : Moves setting input session effects next) (unasked : Unasked effects)
    (holds : next.HoldsFor name request)
    : session.HoldsFor name request := by
  induction moves with
  | none => exact holds
  | next move _ ih =>
      have later := ih (fun name query asked => unasked name query (List.mem_append_right _ asked))
        holds
      exact move.holdsFor
        (fun name query asked => unasked name query (List.mem_append_left _ asked)) later

/-- An input that asks nothing leaves the session with the client that it held for a search. -/
theorem handle_holdsFor {request : SearchRequest} (settled : session.Settled)
    (unasked : Unasked (session.handle setting input).effects)
    (holds : (session.handle setting input).session.HoldsFor name request)
    : session.HoldsFor name request := by
  have before := (handle_moves settled).holdsFor unasked holds
  rcases session.arrive_eq input with same | ⟨newer, asked, taken⟩
  · rwa [same] at before
  · rw [taken, takeIn] at before
    split at before
    · next running busy =>
        obtain ⟨_, same, granted, forIt⟩ := before
        cases same
        exact ⟨running, busy, granted, forIt⟩
    · next idle =>
        split at before
        · exact before
        · exact before

/-- Starting the search that waits asks nothing yet. -/
theorem startPending_unasked (idle : session.running = none)
    : Unasked (startPending setting session).effects := by
  have moves : Moves setting (.left : Input κ) session _ _ := startPending_moves idle
  exact moves.unasked nofun

/-- A search that has just been started has no client. -/
theorem startPending_unheld {request : SearchRequest} (idle : session.running = none)
    : ¬ (startPending setting session).session.HoldsFor name request := by
  intro holds
  have moves : Moves setting (.left : Input κ) session _ _ := startPending_moves idle
  obtain ⟨running, busy, -⟩ := moves.holdsFor (startPending_unasked idle) holds
  cases idle.symm.trans busy

/-- A search whose client has failed has no client when it is put back. -/
theorem requeue_unheld {request : SearchRequest} (busy : session.running = some running)
    : ¬ (requeue setting session).session.HoldsFor name request := by
  rw [requeue, busy]
  exact startPending_unheld (by split <;> rfl)

end Session

-----------------------------------------------------------------------------------------
-- Feeding a session
-----------------------------------------------------------------------------------------

namespace Service

variable {κ : Type} [DecidableEq κ] {service : Service κ} {setting : Session.Setting}
  {input : Session.Input κ} {name : κ}

/-- Where nobody is asked, there is nothing to be done but to note it. -/
theorem feed_eq_hear (unasked : Session.Unasked (service.session.handle setting input).effects)
    : service.feed setting input = service.hear setting input := by
  rw [feed]
  generalize service.hear setting input = heard
  generalize (service.session.handle setting input).effects = effects at unasked
  induction effects generalizing heard with
  | nil => rfl
  | cons effect rest ih =>
      have later := fun name query asked => unasked name query (List.mem_cons_of_mem effect asked)
      cases effect with
      | ask name query => exact absurd List.mem_cons_self (unasked name query)
      | reply | release | close => exact ih heard later

/-- The session holds a client if it holds it for some search. -/
theorem holds_iff
    : service.holds name = true ↔ ∃ request, service.session.HoldsFor name request := by
  rw [holds, Session.holds?]
  split
  · next client backend request started stale busy =>
      simp only [Option.map_some, beq_iff_eq, Option.some.injEq]
      refine ⟨?_, ?_⟩
      · rintro rfl
        exact ⟨_, _, busy, rfl, rfl⟩
      · rintro ⟨_, _, same, granted, -⟩
        cases busy.symm.trans same
        exact Option.some.inj granted
  · next free =>
      simp only [Option.map_none, Option.none_beq_some, Bool.false_eq_true, false_iff]
      rintro ⟨_, running, busy, granted, -⟩
      cases running
      cases granted
      exact free _ _ _ _ _ busy

/-- Reading does nothing, or it feeds the session with what its client has read. -/
theorem read_cases (service : Service κ) (setting : Session.Setting)
    : service.read setting = service
      ∨ ∃ name outcome client,
        service.session.ended = false
        ∧ service.holds name = true
        ∧ (service.clients name).nextEvent? = some (outcome, client)
        ∧ service.read setting
          = (service.setClient name client).feed setting (.event outcome) := by
  cases ended : service.session.ended with
  | true => exact .inl (by rw [read, ended])
  | false =>
      cases held : service.session.holds? with
      | none => exact .inl (by rw [read, ended, held])
      | some lease =>
          obtain ⟨backend, name⟩ := lease
          cases next : (service.clients name).nextEvent? with
          | none => exact .inl (by simp only [read, ended, held, next])
          | some outcome =>
              have holds : service.holds name = true := by simp [Service.holds, held]
              exact .inr ⟨name, _, _, rfl, holds, next, by simp only [read, ended, held, next]⟩

end Service

end SourceView
