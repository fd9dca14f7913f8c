import SourceView.Proofs.Session.Service
import SourceView.Proofs.Session.Repetitions

/-! The slots of a session and the searches that it accepts.
A search is accepted unless it repeats the last one while nothing runs. Only the newest of those
that were accepted is pursued, so no other one is ever sent to a backend.
-/

namespace SourceView.Session

variable {κ : Type} {setting : Setting} {input : Input κ} {session next : Session κ}
  {request : SearchRequest} {effects : List (Effect κ)}

-----------------------------------------------------------------------------------------
-- Searches that are accepted
-----------------------------------------------------------------------------------------

/-- A session ignores a search that repeats the last one while nothing runs. -/
def ignores (session : Session κ) (request : SearchRequest) : Bool :=
  session.running.isNone && !request.isNew session.last

/-- The search that a session accepts with an input: one that it is asked for before it has ended,
and that it does not ignore.
-/
def accepts? (session : Session κ) (input : Input κ) : Option SearchRequest :=
  if session.ended then none
  else input.request?.filter fun request => !session.ignores request

/-- The searches that a session accepts with inputs that it handles one after the other. -/
def accepted (session : Session κ) : List (Setting × Input κ) → List SearchRequest
  | [] => []
  | (setting, input) :: rest =>
    (session.accepts? input).toList ++ accepted (session.handle setting input).session rest

-----------------------------------------------------------------------------------------
-- The newest search
-----------------------------------------------------------------------------------------

/-- A move takes up no search that was not pursued before, by cases on the move. -/
theorem Move.pursues_before (move : Move setting input session effects next)
    (pursues : next.Pursues request)
    : session.Pursues request := by
  cases move with
  | deafen | complain | pass => exact pursues
  | stop | decline | giveUp | finish | drop =>
      rcases pursues with ⟨_, busy, -⟩ | waits
      · cases busy
      · exact .inr waits
  | start idle waits =>
      rcases pursues with ⟨_, busy, rfl, -⟩ | later
      · cases busy
        exact .inr waits
      · cases later
  | reject idle =>
      rcases pursues with ⟨running, busy, -⟩ | later
      · cases idle.symm.trans busy
      · cases later
  | @ask running client granted busy current =>
      rcases pursues with ⟨_, same, rfl, -⟩ | waits
      · cases same
        exact .inl ⟨running, busy, rfl, current⟩
      · exact .inr waits
  | @retry running cause heard busy current =>
      rcases pursues with ⟨_, idle, -⟩ | waits
      · cases idle
      · exact .inl ⟨running, busy, Option.some.inj waits, current⟩

/-- A search that is pursued behind a turn was pursued before it, by induction on the moves. -/
theorem Moves.pursues_before (moves : Moves setting input session effects next)
    (pursues : next.Pursues request)
    : session.Pursues request := by
  induction moves with
  | none => exact pursues
  | next move _ ih => exact move.pursues_before (ih pursues)

/-- What is pursued once a search has been taken in is that search, or the search was ignored, by
cases on what runs and on whether it repeats the last.
-/
theorem pursues_of_takeIn {newer : SearchRequest}
    (pursues : (session.takeIn newer).Pursues request)
    : session.ignores newer = false ∧ newer = request
      ∨ session.ignores newer = true ∧ session.Pursues request := by
  unfold takeIn at pursues
  cases busy : session.running with
  | some running =>
      -- Whatever runs has just become stale, so the search that is pursued is the one that waits
      simp only [busy] at pursues
      rcases pursues with ⟨_, same, -, current⟩ | waits
      · cases same
        cases current
      · exact .inl ⟨by simp [ignores, busy], Option.some.inj waits⟩
  | none =>
      simp only [busy] at pursues
      cases new : newer.isNew session.last with
      | true =>
          rw [new, if_pos rfl] at pursues
          rcases pursues with ⟨_, same, -⟩ | waits
          · cases same
          · exact .inl ⟨by simp [ignores, new], Option.some.inj waits⟩
      | false =>
          rw [new, if_neg Bool.false_ne_true] at pursues
          exact .inr ⟨by simp [ignores, busy, new], pursues⟩

/-- What is pursued once an input has arrived was accepted with it, or was pursued before and
nothing was accepted.
-/
theorem pursues_of_arrive (pursues : (session.arrive input).Pursues request)
    : session.accepts? input = some request
      ∨ session.accepts? input = none ∧ session.Pursues request := by
  unfold arrive at pursues
  cases asked : input.request? with
  | none =>
      rw [asked] at pursues
      exact .inr ⟨by simp [accepts?, asked], pursues⟩
  | some newer =>
      simp only [asked] at pursues
      cases ended : session.ended with
      | true =>
          rw [ended, if_pos rfl] at pursues
          exact .inr ⟨by simp [accepts?, ended], pursues⟩
      | false =>
          rw [ended, if_neg Bool.false_ne_true] at pursues
          rcases pursues_of_takeIn pursues with ⟨taken, rfl⟩ | ⟨ignored, before⟩
          · exact .inl (by simp [accepts?, ended, asked, taken])
          · exact .inr ⟨by simp [accepts?, ended, asked, ignored], before⟩

/-- Nothing but the newest of some searches is pursued. -/
def OnlyNewest (session : Session κ) (accepted : List SearchRequest) : Prop :=
  ∀ request, session.Pursues request → accepted.getLast? = some request

/-- At its start a session pursues nothing. -/
theorem onlyNewest_empty : ({} : Session κ).OnlyNewest [] := by
  rintro request (⟨_, busy, -⟩ | waits)
  · cases busy
  · cases waits

/-- A turn pursues only the newest search, if what it accepts is counted in. -/
theorem OnlyNewest.handle {before : List SearchRequest} (newest : session.OnlyNewest before)
    (settled : session.Settled)
    : (session.handle setting input).session.OnlyNewest
        (before ++ (session.accepts? input).toList) := by
  intro request pursues
  have arrived : (session.arrive input).Pursues request :=
    (handle_moves settled).pursues_before pursues
  rcases pursues_of_arrive arrived with taken | ⟨untaken, pursued⟩
  · simp [taken]
  · simpa [untaken] using newest request pursued

/-- A run pursues only the newest search, by induction on the inputs. -/
theorem OnlyNewest.run {before : List SearchRequest} (newest : session.OnlyNewest before)
    (settled : session.Settled) (inputs : List (Setting × Input κ))
    : (session.run inputs).session.OnlyNewest (before ++ session.accepted inputs) := by
  induction inputs generalizing session before with
  | nil => simpa [Session.run, accepted] using newest
  | cons head rest ih =>
      rw [Session.run, accepted, ← List.append_assoc, session_after]
      exact ih (newest.handle settled) (handle_settled settled head.1 head.2)

-----------------------------------------------------------------------------------------
-- Queries that are written
-----------------------------------------------------------------------------------------

/-- A session asks only when it is granted a client for a search that is not stale. It asks that
client for the search, which it goes on to run.
-/
theorem asks_of_handle {client : κ} {query : Query} (settled : session.Settled)
    (asks : .ask client query ∈ (session.handle setting input).effects)
    : ∃ running,
        session.running = some running
        ∧ running.stale = false
        ∧ query = running.request.query
        ∧ (session.handle setting input).session
          = { session with running := some { running with client := some client } } := by
  obtain ⟨name, rfl⟩ : ∃ name, input = .granted name := by
    refine Classical.byContradiction fun ungranted => ?_
    exact handle_unasked settled (fun name granted => ungranted ⟨name, granted⟩) client query asks
  cases ended : session.ended with
  | true => simp [handle, ended] at asks
  | false =>
      have turn : session.handle setting (.granted name) = handleGrant setting session name := by
        simp [handle, ended]
      rw [turn] at asks ⊢
      unfold handleGrant at asks ⊢
      cases busy : session.running with
      | none => simp [busy] at asks
      | some running =>
          simp only [busy] at asks
          cases stale : running.stale with
          | true =>
              rw [stale, if_pos rfl, effects_after] at asks
              have released : Unasked [Effect.release running.backend name] := by simp [Unasked]
              exact absurd asks (released.append (startPending_unasked rfl) client query)
          | false =>
              simp only [stale, Bool.false_eq_true, if_false, List.mem_singleton,
                Effect.ask.injEq] at asks ⊢
              obtain ⟨rfl, rfl⟩ := asks
              exact ⟨running, rfl, stale, rfl, by simp [ended, stale]⟩

/-- Between any two inputs, a search waits only while another one runs, which is stale exactly then
and was started last. Whatever query a session sends next, it is that of the search that it runs,
which is not stale, and none was accepted after it.
-/
theorem slots_of_run (inputs : List (Setting × Input κ)) (setting : Setting) (input : Input κ)
    : let session := (({} : Session κ).run inputs).session
      let next := (({} : Session κ).run (inputs ++ [(setting, input)])).session
      (session.ended = false → session.pending ≠ none → session.running ≠ none)
      ∧ (∀ running, session.running = some running
          → (running.stale = true ↔ session.pending ≠ none)
            ∧ session.last = some running.request)
      ∧ ∀ client query, .ask client query ∈ (session.handle setting input).effects
          → ∃ running,
              next.running = some running
              ∧ running.client = some client
              ∧ running.stale = false
              ∧ running.request.query = query
              ∧ (({} : Session κ).accepted (inputs ++ [(setting, input)])).getLast?
                = some running.request := by
  intro session next
  have settled : session.Settled := run_settled settled_empty inputs
  refine ⟨fun going waits idle => waits (settled.waits going idle),
    fun running busy => ⟨settled.stale running busy, settled.last running busy⟩, ?_⟩
  intro client query asks
  obtain ⟨running, busy, current, rfl, turn⟩ := asks_of_handle settled asks
  have reached
      : next = { session with running := some { running with client := some client } } := by
    simpa only [next, run_concat, session_after] using turn
  have pursues : next.Pursues running.request := by
    rw [reached]
    exact .inl ⟨_, rfl, rfl, current⟩
  refine ⟨{ running with client := some client }, by rw [reached], rfl, current, rfl, ?_⟩
  have newest := onlyNewest_empty.run settled_empty (inputs ++ [(setting, input)])
  exact newest running.request pursues

/-- Two searches arrive before the pool grants a client, which goes back to the pool. -/
def twoSearches : List (Setting × Input Unit) := [
  (oneBackend, .frame firstFrame),
  (oneBackend, .frame secondFrame),
  (oneBackend, .granted ())]

/-- The query that is sent at the next grant is that of the second search. -/
theorem second_asked_after_twoSearches
    : let session := (({} : Session Unit).run twoSearches).session
      (session.handle oneBackend (.granted ())).effects = [.ask () { line := "b" }]
      ∧ ∃ running : RunningSearch Unit,
          running.stale = false
          ∧ running.request.query = { line := "b" }
          ∧ (({} : Session Unit).accepted
              (twoSearches ++ [(oneBackend, .granted ())])).getLast? = some running.request := by
  intro session
  have effects : (session.handle oneBackend (.granted ())).effects
      = [.ask () { line := "b" }] := by
    simp [session, twoSearches, run, handle, handleFrame, decode_firstFrame, decode_secondFrame,
      handleRequest, SearchRequest.isNew, start, oneBackend, handleGrant, startPending]
  refine ⟨effects, ?_⟩
  obtain ⟨-, -, asked⟩ := slots_of_run twoSearches oneBackend (.granted ())
  obtain ⟨running, -, -, current, query, newest⟩ := asked () { line := "b" }
    (effects ▸ List.mem_singleton_self _)
  exact ⟨running, current, query, newest⟩

end SourceView.Session
