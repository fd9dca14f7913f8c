import SourceView.Proofs.Session.Runs

/-! What a turn of a session leaves to be done.
Messages are sent last. What is done before that is the same for a client that the session gives up
in whatever way: it goes back to its pool at once if its part in the search is over, and is closed
first if the session ends while it is held.
-/

namespace SourceView.Session

variable {κ : Type} {setting : Setting} {session : Session κ}

/-- A message is to be sent. -/
def Effect.isReply : Effect κ → Bool
  | reply _ => true
  | ask .. | release .. | close _ => false

/-- Nothing but messages are to be sent. -/
def Replies (effects : List (Effect κ)) : Prop :=
  ∀ effect ∈ effects, effect.isReply = true

theorem replies_nil : Replies ([] : List (Effect κ)) := nofun

/-- One more message leaves nothing to be done but to send messages. -/
theorem Replies.cons {effects : List (Effect κ)} (replies : Replies effects)
    (message : BrowserMessage)
    : Replies (.reply message :: effects) := by
  intro effect member
  rcases List.mem_cons.mp member with rfl | later
  · rfl
  · exact replies effect later

/-- Where nothing is to be done but to send messages, the first one may have been sent. -/
theorem Replies.tail {effect : Effect κ} {effects : List (Effect κ)}
    (replies : Replies (effect :: effects))
    : Replies effects :=
  fun other later => replies other (List.mem_cons_of_mem effect later)

-----------------------------------------------------------------------------------------
-- Turns without a client
-----------------------------------------------------------------------------------------

/-- A turn leaves the session without a client, and nothing to be done to any. -/
structure Turn.Free (turn : Turn κ) : Prop where
  replies : Replies turn.effects
  unheld : turn.session.holds? = none

/-- A session that runs no search holds no client. -/
theorem holds?_eq_none (idle : session.running = none) : session.holds? = none := by
  rw [holds?, idle]

/-- A session that waits for a client holds none. -/
theorem holds?_of_waitsFor? {backend : String} (waits : session.waitsFor? = some backend)
    : session.holds? = none := by
  unfold waitsFor? at waits
  split at waits
  · next busy => rw [holds?, busy]
  · cases waits

/-- A session that holds no client has nothing to do to shut down. -/
theorem effects_shutDown (unheld : session.holds? = none) : session.shutDown.effects = [] := by
  rw [shutDown, unheld]

/-- Telling something leaves a session without a client free. -/
theorem free_replying {message : BrowserMessage} {rest : Turn κ} (unheld : session.holds? = none)
    (free : rest.Free)
    : (session.replying message rest).Free := by
  rw [replying]
  split
  · refine ⟨?_, rfl⟩
    rw [effects_shutDown unheld]
    exact replies_nil
  · exact ⟨free.replies.cons message, free.unheld⟩

/-- The browser is not told of a search that is stale. -/
theorem free_unless_stale {stale : Bool} {message : BrowserMessage} {rest : Turn κ}
    (unheld : session.holds? = none) (free : rest.Free)
    : (if stale then rest else session.replying message rest).Free := by
  split
  · exact free
  · exact free_replying unheld free

/-- A session without a client stays free when it starts a search. -/
theorem free_start (unheld : session.holds? = none) (request : SearchRequest)
    : (start setting session request).Free := by
  rw [start]
  split
  · exact free_replying unheld ⟨replies_nil, unheld⟩
  · exact ⟨replies_nil, rfl⟩

/-- A session without a client stays free when it starts the search that waits. -/
theorem free_startPending (unheld : session.holds? = none)
    : (startPending setting session).Free := by
  rw [startPending]
  split
  · next request _ =>
      have alone : ({ session with pending := none } : Session κ).holds? = none := unheld
      exact free_start alone request
  · exact ⟨replies_nil, unheld⟩

-----------------------------------------------------------------------------------------
-- Turns that keep the client
-----------------------------------------------------------------------------------------

/-- A turn leaves the session with the client that it held, unless it ends the session. -/
inductive Turn.Keeps (turn : Turn κ) (session : Session κ) : Prop
  | goesOn (replies : Replies turn.effects) (same : turn.session.holds? = session.holds?)
    (ends : turn.session.ended = true → turn.session.holds? = none)
  | stops (effects : turn.effects = session.shutDown.effects)
    (unheld : turn.session.holds? = none)

/-- A turn that keeps the client and ends the session leaves none. -/
theorem Turn.Keeps.ends {turn : Turn κ} (keeps : turn.Keeps session)
    (ended : turn.session.ended = true)
    : turn.session.holds? = none := by
  cases keeps with
  | goesOn _ _ ends => exact ends ended
  | stops _ unheld => exact unheld

/-- A turn of a session without a client keeps what there was. -/
theorem Turn.Free.keeps {turn : Turn κ} (free : turn.Free) (unheld : session.holds? = none)
    : turn.Keeps session :=
  .goesOn free.replies (free.unheld.trans unheld.symm) fun _ => free.unheld

/-- Shutting down gives the client up, and nothing else. -/
theorem keeps_shutDown (session : Session κ) : session.shutDown.Keeps session :=
  .stops rfl rfl

/-- A search that is given up gives its client back before the next one starts. -/
theorem exists_requeue {running : RunningSearch κ} (busy : session.running = some running)
    : ∃ rest : Session κ,
        rest.holds? = none
        ∧ requeue setting session = (startPending setting rest).after session.releasing := by
  unfold requeue
  rw [busy]
  cases session.pending with
  | none => exact ⟨_, rfl, rfl⟩
  | some request => exact ⟨_, rfl, rfl⟩

section Going

variable (setting) (going : session.ended = false)

include going

/-- A turn that does nothing. -/
theorem keeps_idle : ({ session } : Turn κ).Keeps session :=
  .goesOn replies_nil rfl fun ended => by cases going.symm.trans ended

/-- Telling something leaves the session the client that it held, unless nobody listens. -/
theorem keeps_replying (message : BrowserMessage)
    : (session.replying message { session }).Keeps session := by
  rw [replying]
  split
  · exact keeps_shutDown session
  · exact .goesOn (replies_nil.cons message) rfl fun ended => by cases going.symm.trans ended

/-- A search that is asked for leaves the session the client that it held. -/
theorem keeps_handleRequest (request : SearchRequest)
    : (handleRequest setting session request).Keeps session := by
  unfold handleRequest
  split
  · next running busy =>
      refine .goesOn replies_nil ?_ fun ended => by cases going.symm.trans ended
      simp only [holds?, busy]
      rcases running with ⟨request, backend, _ | client, started, stale⟩ <;> rfl
  · next idle =>
      split
      · exact (free_start (holds?_eq_none idle) request).keeps (holds?_eq_none idle)
      · exact keeps_idle going

/-- A message from the browser leaves the session the client that it held. -/
theorem keeps_handleFrame (text : List UInt8)
    : (handleFrame setting session text).Keeps session := by
  rw [handleFrame]
  split
  · exact keeps_handleRequest setting going _
  · exact keeps_replying going _
  · exact keeps_replying going _

/-- The session's own part in the search goes on when a message arrives or a result is read. -/
theorem keeps_handle {input : Input κ}
    (keeps
      : (∃ text, input = .frame text)
        ∨ input = .left
        ∨ input = .deafened
        ∨ ∃ found, input = .event (.ok (.result found)))
    : (session.handle setting input).Keeps session := by
  unfold handle
  rw [if_neg (Bool.eq_false_iff.mp going)]
  rcases keeps with ⟨text, rfl⟩ | rfl | rfl | ⟨found, rfl⟩
  · exact keeps_handleFrame setting going text
  · exact keeps_shutDown session
  · exact .goesOn replies_nil rfl fun ended => by cases going.symm.trans ended
  · dsimp only
    unfold handleEvent
    split
    · exact keeps_idle going
    · dsimp only
      split
      · exact keeps_idle going
      · exact keeps_replying going _

-----------------------------------------------------------------------------------------
-- Turns that give the client back
-----------------------------------------------------------------------------------------

/-- When the answer has ended or the client has failed, the client goes back to its pool before
anything else is done.
-/
theorem exists_handle_event {outcome : Except ClientError QueryEvent}
    (ends : ∀ found, outcome ≠ .ok (.result found))
    : ∃ rest : Turn κ,
        rest.Free ∧ session.handle setting (.event outcome) = rest.after session.releasing := by
  have handled : session.handle setting (.event outcome) = handleEvent setting session outcome :=
    if_neg (Bool.eq_false_iff.mp going)
  rw [handled]
  unfold handleEvent
  split
  · next idle =>
      have unheld := holds?_eq_none idle
      refine ⟨{ session }, ⟨replies_nil, unheld⟩, ?_⟩
      rw [releasing, unheld]
      rfl
  · next running busy =>
      rcases outcome with cause | found | stats | text
      · obtain ⟨rest, goesOn, same⟩ := exists_requeue busy
        exact ⟨_, free_startPending goesOn, same⟩
      · exact absurd rfl (ends found)
      · exact ⟨_, free_unless_stale rfl (free_startPending rfl), rfl⟩
      · exact ⟨_, free_unless_stale rfl (free_startPending rfl), rfl⟩

/-- A session that is turned away holds no client. -/
theorem free_handle_refused (unheld : session.holds? = none) (cause : PoolError)
    : (session.handle setting (.refused cause)).Free := by
  have handled : session.handle setting (.refused cause) = handleRefusal setting session cause :=
    if_neg (Bool.eq_false_iff.mp going)
  rw [handled]
  unfold handleRefusal
  split
  · exact ⟨replies_nil, unheld⟩
  · exact free_unless_stale rfl (free_startPending rfl)

/-- A client that was waited for is asked, or given back because the search is stale. -/
theorem handle_granted_cases {backend : String} (waits : session.waitsFor? = some backend)
    (client : κ)
    : (∃ rest : Turn κ,
        rest.Free
        ∧ session.handle setting (.granted client) = rest.after [.release backend client])
      ∨ ∃ query,
          (session.handle setting (.granted client)).effects = [.ask client query]
          ∧ (session.handle setting (.granted client)).session.holds? = some (backend, client)
          ∧ (session.handle setting (.granted client)).session.ended = false := by
  have handled : session.handle setting (.granted client) = handleGrant setting session client :=
    if_neg (Bool.eq_false_iff.mp going)
  rw [handled]
  unfold waitsFor? at waits
  split at waits
  · next request backend started stale busy =>
      cases waits
      rw [handleGrant, busy]
      dsimp only
      split
      · exact .inl ⟨_, free_startPending rfl, rfl⟩
      · exact .inr ⟨_, rfl, rfl, going⟩
  · cases waits

end Going

end SourceView.Session
