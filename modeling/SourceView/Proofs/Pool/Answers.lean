import SourceView.Proofs.Pool.Orderly

/-! Whoever has a client gets the answers to his own queries.
A query that was given up is never answered to anyone else.
-/

namespace SourceView

open Text (ended)

-----------------------------------------------------------------------------------------
-- A pool in common is a pool in use
-----------------------------------------------------------------------------------------

/-- Runs follow one behind the other, by induction on the later one. -/
theorem Circulation.Run.trans {κ τ : Type} [DecidableEq κ] [DecidableEq τ]
    {first middle final : Circulation κ τ} (run : Run first middle) (more : Run middle final)
    : Run first final := by
  induction more with
  | none => exact run
  | next _ step ih => exact ih.next step

namespace Commons

variable {κ τ : Type} [DecidableEq κ] [DecidableEq τ] {state next : Commons κ τ}

/-- What sessions, searches, backends and the supervisor do to a pool in common can be done to any
pool in use.
-/
theorem Step.circulates (step : Step state next) (orderly : state.Orderly)
    : Circulation.Run state.toCirculation next.toCirculation := by
  cases step with
  | openSession | startSearch | reply => exact .none
  | call user => exact Circulation.Run.none.next (.withdraw user)
  | request user => exact Circulation.Run.none.next (.request user)
  | @grant user name pool setting granted =>
      exact (Circulation.Run.none.next (.grant granted)).next (.withdraw user)
  | @refuse user pool setting refused =>
      exact (Circulation.Run.none.next (.refuse refused)).next (.withdraw user)
  | @read user name client event after setting ready holds known next =>
      have has := ((orderly.faithful user).hand_eq ready).trans holds
      have listed := (orderly.held user name has).listed
      exact (Circulation.Run.none.next (.use listed known (.read next))).next (.withdraw user)
  | @readFailed user name client cause after setting ready holds known next =>
      have has := ((orderly.faithful user).hand_eq ready).trans holds
      have listed := (orderly.held user name has).listed
      exact (Circulation.Run.none.next (.use listed known (.read next))).next (.withdraw user)
  | @ask user name query errands client after due known asked =>
      obtain ⟨has, -⟩ := (due ▸ (orderly.faithful user).leads).of_ask
      have same : (client.ask query).2 = after := by rw [asked]
      have use : client.Use after := same ▸ .ask query
      exact Circulation.Run.none.next (.use (orderly.held user name has).listed known use)
  | @askFailed user name query errands client cause after setting due known failed =>
      obtain ⟨has, -⟩ := (due ▸ (orderly.faithful user).leads).of_ask
      have same : (client.ask query).2 = after := by rw [failed]
      have use : client.Use after := same ▸ .ask query
      have listed := (orderly.held user name has).listed
      exact (Circulation.Run.none.next (.use listed known use)).next (.withdraw user)
  | @close user name errands client due known =>
      obtain ⟨has, -⟩ := (due ▸ (orderly.faithful user).leads).of_close
      exact Circulation.Run.none.next (.use (orderly.held user name has).listed known .close)
  | @release user backend name errands client due known =>
      obtain ⟨has, -⟩ := (due ▸ (orderly.faithful user).leads).of_release
      exact Circulation.Run.none.next (.putBack (orderly.held user name has).listed known)
  | vanish user => exact Circulation.Run.none.next (.withdraw user)
  | @drop user name client holds known =>
      have listed := (orderly.held user name holds).listed
      exact (Circulation.Run.none.next (.withdraw user)).next (.putBack listed known)
  | @answer client reply name known => exact Circulation.Run.none.next (.serve known client.pipe)
  | send name known | finish name known | hangUp name known | collect name known
  | breakOff name cause known =>
      exact Circulation.Run.none.next (.serve known _)
  | startDial started => exact Circulation.Run.none.next (.startDial started)
  | dialFailed now => exact Circulation.Run.none.next (.dialFailed now)
  | redial now elapsed => exact Circulation.Run.none.next (.redial now elapsed)
  | dialled dialling new greeted => exact Circulation.Run.none.next (.dialled dialling new greeted)
  | cancel => exact Circulation.Run.none.next .cancel
  | drain closed => exact Circulation.Run.none.next (.drain closed)

/-- Whatever is done, the clients of a pool stay in order, by induction on the run. -/
theorem Run.orderly {address : String} {size : Nat} (run : Run (create address size) state)
    : state.Orderly := by
  induction run with
  | none => exact orderly_create address size
  | next _ step ih => exact step.orderly ih

/-- What is done around a pool is a run of the pool, by induction on the run. -/
theorem Run.circulates {address : String} {size : Nat} (run : Run (create address size) state)
    : Circulation.Run (.create address size) state.toCirculation := by
  induction run with
  | none => exact .none
  | next earlier step ih => exact ih.trans (step.circulates earlier.orderly)

/-- The tokens of a pool in common are neither lost nor doubled. -/
theorem Run.balanced {address : String} {size : Nat} (run : Run (create address size) state)
    (isOpen : state.pool.closed = false)
    : state.toCirculation.Balanced (max size 1) :=
  run.circulates.balanced isOpen

-----------------------------------------------------------------------------------------
-- Answers
-----------------------------------------------------------------------------------------

/-- On the connection of an idle client nothing is left to be read, so that nobody gets a client
with an answer to someone else's query.
-/
theorem idle_client_quiet (address : String) (size : Nat) (state : Commons κ τ)
    (run : Run (create address size) state) (name : κ) (client : Client)
    (known : state.clients name = some client) (idle : client.isIdle = true)
    : client.pipe.inbound = [] := by
  rw [Client.isIdle, Bool.and_eq_true, Bool.not_eq_true'] at idle
  have alive : client.ending = none := Option.isNone_iff_eq_none.mp idle.1
  exact (run.orderly.sound name client known alive).quiet idle.2

/-- Whatever sessions and searches share a pool, and whatever becomes of them, of their clients and
of the backends: an event that a client tells the one who reads from it is told by a reply to the
last query that was sent on the connection, and he has sent that query himself, since he got the
client.
-/
theorem events_answer_own_query (address : String) (size : Nat) (state : Commons κ τ)
    (run : Run (create address size) state) (user : τ) (name : κ) (client after : Client)
    (event : QueryEvent) (ready : (state.users user).errands = [])
    (holds : (state.users user).task.holds? = some name)
    (known : state.clients name = some client)
    (next : client.nextEvent? = some (.ok event, after))
    : ∃ reply query,
        (state.talks name).replies[(state.talks name).taken]? = some reply
        ∧ reply.Tells client.pipe event
        ∧ (state.talks name).asked[reply.query]? = some (user, query)
        ∧ (state.talks name).since ≤ reply.query
        ∧ reply.query + 1 = (state.talks name).asked.length := by
  have orderly := run.orderly
  have has := ((orderly.faithful user).hand_eq ready).trans holds
  obtain ⟨alive, busy, -⟩ := Client.nextEvent?_eq_ok next
  obtain ⟨-, reply, found, tells, last⟩ := (orderly.sound name client known alive).read next
  have owned := (orderly.held user name has).owned client known alive
  obtain ⟨since, query, own⟩ := owned.last busy last
  exact ⟨reply, query, found, tells, own, since, last⟩

/-- A search for one word. -/
def wordSearch : PageSearch Nat where
  backend := "a"
  query := { line := "x", foldCase := true }
  patience := 1000
  due := 1000

/-- The search for a word waits for a client from its start. -/
theorem start_wordSearch
    : PageSearch.start (fun _ => .ok "a") 0 1000 "" "x" = .ok wordSearch := by
  have parsed : Query.parse "x" = .ok wordSearch.query := by decide +kernel
  have solid : (Text.trimmed "x").isEmpty = false := by cbv
  rw [PageSearch.start, solid, parsed]
  rfl

/-- The search is granted a client and asks, and the backend replies. -/
theorem exists_run_wordSearch (reply : Reply) (first : reply.query = 0)
    : ∃ (state : Commons Nat Nat) (client : Client),
        Run (create "a:1" 1) state
        ∧ (state.users 7).errands = []
        ∧ (state.users 7).task.holds? = some 0
        ∧ state.clients 0 = some client
        ∧ client.ending = none
        ∧ client.inFlight = true
        ∧ client.pipe.inbound = ended reply.line ++ [] := by
  have waiting : Run (create "a:1" 1 : Commons Nat Nat) _ :=
    (Run.none.next (.startSearch 7 rfl start_wordSearch)).next (.request 7 ⟨rfl, rfl⟩)
  have dialled : Run (create "a:1" 1) (Commons.dialled _ 0 Circulation.greeted) :=
    (waiting.next (.startDial rfl)).next (.dialled rfl rfl Circulation.handshake_greeted rfl)
  have granted := dialled.next (@Step.grant Nat Nat _ _ _ 7 0 _ { now := 0, resolve := .ok } rfl)
  have asked := granted.next (@Step.ask Nat Nat _ _ _ 7 _ _ _ _ _ rfl rfl rfl)
  have turn : reply.query < 1 := first ▸ Nat.one_pos
  have answered := asked.next (@Step.answer Nat Nat _ _ _ _ reply 0 rfl ⟨first, turn⟩)
  have follows : [] ++ ended reply.line <+: Reply.stream ([] ++ [reply]) := by
    simp [Reply.stream]
  have sent := answered.next (@Step.send Nat Nat _ _ _ _ (ended reply.line) _ 0 rfl follows rfl)
  exact ⟨_, _, sent, rfl, rfl, rfl, rfl, rfl, (List.append_nil _).symm⟩

/-- A search that is told of a failure has sent the query that failed. -/
theorem event_of_wordSearch
    : ∃ (state : Commons Nat Nat) (client after : Client) (reply : Reply) (query : Query),
        Run (create "a:1" 1) state
        ∧ state.clients 0 = some client
        ∧ client.nextEvent? = some (.ok (.failed "y"), after)
        ∧ reply.Tells client.pipe (.failed "y")
        ∧ (state.talks 0).asked[reply.query]? = some (7, query) := by
  obtain ⟨state, client, run, ready, holds, known, alive, busy, front⟩ :=
    exists_run_wordSearch (.written 0 (.failed "y")) rfl
  obtain ⟨after, next⟩ := Client.nextEvent?_of_reply alive busy front
  obtain ⟨reply, query, -, tells, own, -⟩ :=
    events_answer_own_query "a:1" 1 state run 7 0 client after (.failed "y") ready holds known next
  exact ⟨state, client, after, reply, query, run, known, next, tells, own⟩

end Commons

end SourceView
