import SourceView.Proofs.Session.Runs

/-! Turns of a session as moves, one after the other.
A search that arrives is taken in before anything else. What follows is made of moves, each of which
sends at most one message, so that turns keep what moves keep.
-/

namespace SourceView.Session

variable {κ : Type}

-----------------------------------------------------------------------------------------
-- Searches that arrive
-----------------------------------------------------------------------------------------

/-- The session with a search that has just arrived, which waits unless it repeats the last one. -/
def takeIn (session : Session κ) (request : SearchRequest) : Session κ :=
  match session.running with
  | some running =>
    { session with running := some { running with stale := true }, pending := some request }
  | none =>
    if request.isNew session.last then { session with pending := some request } else session

/-- The session with what an input asks for. -/
def arrive (session : Session κ) (input : Input κ) : Session κ :=
  match input.request? with
  | some request => if session.ended then session else session.takeIn request
  | none => session

/-- An input leaves a session as it is, or brings a search to be taken in. -/
theorem arrive_eq (session : Session κ) (input : Input κ)
    : session.arrive input = session
      ∨ ∃ request, input.request? = some request
        ∧ session.arrive input = session.takeIn request := by
  rw [arrive]
  cases asked : input.request? with
  | none => exact .inl rfl
  | some request =>
      dsimp only
      split
      · exact .inl rfl
      · exact .inr ⟨request, rfl, rfl⟩

-----------------------------------------------------------------------------------------
-- Moves
-----------------------------------------------------------------------------------------

/-- Send a message, if anybody listens. -/
def saying (session : Session κ) (message : BrowserMessage) : List (Effect κ) :=
  if session.deaf then [] else [.reply message]

/-- The end of the answer to a search, told to the browser. -/
def ending? (setting : Setting) (running : RunningSearch κ) : QueryEvent → Option BrowserMessage
  | .result _ => none
  | .done stats =>
    some (.searchDone running.request.id (UInt64.ofNat (setting.now - running.started)) stats)
  | .failed text => some (.queryError running.request.id text)

section Moves

variable (setting : Setting) (input : Input κ)

/-- One thing that a session does in answer to an input, with what it wants done. -/
inductive Move : Session κ → List (Effect κ) → Session κ → Prop
  | deafen {session} (deafened : input = .deafened)
    : Move session [] { session with deaf := true }
  | stop {session} (gone : input = .left ∨ session.deaf = true)
    : Move session session.shutDown.effects session.shutDown.session
  | complain {session text} (reason : String) (read : input = .frame text)
    : Move session (session.saying (.error reason)) session
  | start {session request backend} (idle : session.running = none)
    (waits : session.pending = some request)
    (resolved : setting.resolve request.backend = .ok backend)
    : Move session [] {
        session with
        pending := none
        last := some request
        running := some { request, backend, started := setting.now } }
  | reject {session request cause} (idle : session.running = none)
    (waits : session.pending = some request)
    (unresolved : setting.resolve request.backend = .error cause)
    : Move session (session.saying (.queryError request.id cause.message))
        { session with pending := none }
  | ask {session running client} (granted : input = .granted client)
    (busy : session.running = some running) (current : running.stale = false)
    : Move session [.ask client running.request.query]
        { session with running := some { running with client := some client } }
  | decline {session running client} (granted : input = .granted client)
    (busy : session.running = some running) (stale : running.stale = true)
    : Move session [.release running.backend client] { session with running := none }
  | giveUp {session running cause} (refused : input = .refused cause)
    (busy : session.running = some running)
    : Move session
        (if running.stale then []
          else session.saying (.queryError running.request.id cause.message))
        { session with running := none }
  | pass {session running found} (heard : input = .event (.ok (.result found)))
    (busy : session.running = some running) (current : running.stale = false)
    : Move session (session.saying (.result running.request.id found)) session
  | finish {session running event message} (heard : input = .event (.ok event))
    (busy : session.running = some running) (ends : ending? setting running event = some message)
    : Move session
        (session.releasing ++ if running.stale then [] else session.saying message)
        { session with running := none }
  | retry {session running cause} (heard : input = .event (.error cause))
    (busy : session.running = some running) (current : running.stale = false)
    : Move session session.releasing
        { session with running := none, pending := some running.request, last := none }
  | drop {session running cause} (heard : input = .event (.error cause))
    (busy : session.running = some running) (stale : running.stale = true)
    : Move session session.releasing { session with running := none }

/-- Moves, one after the other. -/
inductive Moves : Session κ → List (Effect κ) → Session κ → Prop
  | none {session} : Moves session [] session
  | next {session middle final effects more} (move : Move setting input session effects middle)
    (moves : Moves middle more final)
    : Moves session (effects ++ more) final

end Moves

variable {setting : Setting} {input : Input κ}

/-- One move is a turn of moves. -/
theorem Move.moves {session final : Session κ} {effects : List (Effect κ)}
    (move : Move setting input session effects final)
    : Moves setting input session effects final := by
  have moves := Moves.next move .none
  rwa [List.append_nil] at moves

/-- A move that ends with a message goes on as the rest of the turn does, or stops if nobody
listens.
-/
theorem Move.replying {before session : Session κ} {effects : List (Effect κ)}
    {message : BrowserMessage} {rest : Turn κ}
    (move : Move setting input before (effects ++ session.saying message) session)
    (moves : Moves setting input session rest.effects rest.session)
    : Moves setting input before (effects ++ (session.replying message rest).effects)
        (session.replying message rest).session := by
  cases deaf : session.deaf with
  | false =>
      simp only [saying, deaf, Bool.false_eq_true, if_false] at move
      simp only [Session.replying, deaf, Bool.false_eq_true, if_false]
      rw [effects_after, ← List.append_assoc]
      exact .next move moves
  | true =>
      simp only [saying, deaf, if_true, List.append_nil] at move
      simp only [Session.replying, deaf, if_true]
      exact .next move (Move.stop (.inr deaf)).moves

/-- A move that ends with a message is a turn that tells it, and that stops if nobody listens. -/
theorem Move.replyingOnly {before session : Session κ} {effects : List (Effect κ)}
    {message : BrowserMessage}
    (move : Move setting input before (effects ++ session.saying message) session)
    : Moves setting input before (effects ++ (session.replying message { session }).effects)
        (session.replying message { session }).session := by
  have rest : Moves setting input session ({ session } : Turn κ).effects session := .none
  exact move.replying rest

/-- Starting the search that waits comes of moves. -/
theorem start_moves {session : Session κ} {request : SearchRequest}
    (idle : session.running = none) (waits : session.pending = some request)
    : Moves setting input session
        (Session.start setting { session with pending := none } request).effects
        (Session.start setting { session with pending := none } request).session := by
  simp only [Session.start]
  cases found : setting.resolve request.backend with
  | error cause =>
      have move : Move setting input session
          ([] ++ saying { session with pending := none } (.queryError request.id cause.message))
          { session with pending := none } :=
        .reject idle waits found
      exact move.replyingOnly
  | ok backend => exact (Move.start idle waits found).moves

/-- Starting the search that waits, if one does, comes of moves. -/
theorem startPending_moves {session : Session κ} (idle : session.running = none)
    : Moves setting input session (startPending setting session).effects
        (startPending setting session).session := by
  rw [startPending]
  cases waits : session.pending with
  | none => exact .none
  | some request => exact start_moves idle waits

/-- A search that is asked for is handled by moves once it was taken in. -/
theorem handleRequest_moves {session : Session κ} (settled : session.Settled)
    (going : session.ended = false) (request : SearchRequest)
    : Moves setting input (session.takeIn request) (handleRequest setting session request).effects
        (handleRequest setting session request).session := by
  unfold handleRequest takeIn
  cases busy : session.running with
  | some running => exact .none
  | none =>
      dsimp only
      split
      · have alone : { session with pending := none } = session := by
          rw [← settled.waits going busy]
        have moves : Moves setting input { session with pending := some request }
            (Session.start setting { session with pending := none } request).effects
            (Session.start setting { session with pending := none } request).session :=
          start_moves busy rfl
        rw [alone] at moves
        rwa [busy] at moves
      · exact .none

/-- A search whose client has failed is put back, or given up, by moves. -/
theorem requeue_moves {session : Session κ} {cause : ClientError} (settled : session.Settled)
    (heard : input = .event (.error cause))
    : Moves setting input session (requeue setting session).effects
        (requeue setting session).session := by
  unfold requeue
  cases busy : session.running with
  | none => exact .none
  | some running =>
      cases waits : session.pending with
      | none =>
          have current : running.stale = false := by
            simpa [waits] using settled.stale running busy
          exact .next (.retry heard busy current) (startPending_moves rfl)
      | some request =>
          have stale : running.stale = true := by
            simp [settled.stale running busy, waits]
          have moves : Moves setting input session
              (session.releasing ++ (startPending setting { session with running := none }).effects)
              (startPending setting { session with running := none }).session :=
            .next (.drop heard busy stale) (startPending_moves rfl)
          rwa [waits] at moves

/-- A message from the browser is handled by moves once its search was taken in. -/
theorem handleFrame_moves {session : Session κ} (settled : session.Settled)
    (going : session.ended = false) (text : List UInt8)
    : Moves setting (.frame text) (session.arrive (.frame text))
        (handleFrame setting session text).effects (handleFrame setting session text).session := by
  have complain : ∀ reason,
      Moves setting (.frame text) session
        (session.replying (.error reason) { session }).effects
        (session.replying (.error reason) { session }).session := by
    intro reason
    have move : Move setting (.frame text) session
        ([] ++ session.saying (.error reason)) session :=
      .complain reason rfl
    exact move.replyingOnly
  cases read : BrowserMessage.registry.decode text with
  | error cause =>
      simp only [handleFrame, arrive, Input.request?, read]
      exact complain _
  | ok message =>
      cases message with
      | query request =>
          simp only [handleFrame, arrive, Input.request?, read, going]
          exact handleRequest_moves settled going request
      | result | searchDone | queryError | error =>
          simp only [handleFrame, arrive, Input.request?, read]
          exact complain _

/-- A client that is granted is handled by moves. -/
theorem handleGrant_moves (session : Session κ) (client : κ)
    : Moves setting (.granted client) session (handleGrant setting session client).effects
        (handleGrant setting session client).session := by
  unfold handleGrant
  cases busy : session.running with
  | none => exact .none
  | some running =>
      dsimp only
      by_cases stale : running.stale = true
      · rw [if_pos stale]
        exact .next (.decline rfl busy stale) (startPending_moves rfl)
      · rw [if_neg stale]
        exact (Move.ask rfl busy (Bool.eq_false_iff.mpr stale)).moves

/-- A refusal is handled by moves. -/
theorem handleRefusal_moves (session : Session κ) (cause : PoolError)
    : Moves setting (.refused cause) session (handleRefusal setting session cause).effects
        (handleRefusal setting session cause).session := by
  unfold handleRefusal
  cases busy : session.running with
  | none => exact .none
  | some running =>
      have move : Move setting (.refused cause) session _ { session with running := none } :=
        .giveUp rfl busy
      have rest : Moves setting (.refused cause : Input κ) { session with running := none }
          (startPending setting { session with running := none }).effects
          (startPending setting { session with running := none }).session :=
        startPending_moves rfl
      dsimp only
      by_cases stale : running.stale = true
      · rw [if_pos stale] at move ⊢
        exact .next move rest
      · rw [if_neg stale, ← List.nil_append (session.saying _)] at move
        rw [if_neg stale]
        exact move.replying rest

/-- The answer has ended: that is told unless the search is stale, and the next search starts. -/
theorem finish_moves {session : Session κ} {running : RunningSearch κ} {event : QueryEvent}
    {message : BrowserMessage} {turn : Turn κ} (busy : session.running = some running)
    (ends : ending? setting running event = some message)
    (turns
      : turn = if running.stale then startPending setting { session with running := none }
          else replying { session with running := none } message
            (startPending setting { session with running := none }))
    : Moves setting (.event (.ok event)) session (session.releasing ++ turn.effects)
        turn.session := by
  have move : Move setting (.event (.ok event)) session _ { session with running := none } :=
    .finish rfl busy ends
  rw [turns]
  by_cases stale : running.stale = true
  · rw [if_pos stale, List.append_nil] at move
    rw [if_pos stale]
    exact .next move (startPending_moves rfl)
  · rw [if_neg stale] at move ⊢
    exact move.replying (startPending_moves rfl)

/-- An event from the client is handled by moves. -/
theorem handleEvent_moves {session : Session κ} (settled : session.Settled)
    (outcome : Except ClientError QueryEvent)
    : Moves setting (.event outcome) session (handleEvent setting session outcome).effects
        (handleEvent setting session outcome).session := by
  unfold handleEvent
  cases busy : session.running with
  | none => exact .none
  | some running =>
      rcases outcome with cause | found | stats | text
      · exact requeue_moves settled rfl
      · dsimp only
        by_cases stale : running.stale = true
        · rw [if_pos stale]
          exact .none
        · rw [if_neg stale]
          have move : Move setting (.event (.ok (.result found))) session
              ([] ++ session.saying (.result running.request.id found)) session :=
            .pass rfl busy (Bool.eq_false_iff.mpr stale)
          exact move.replyingOnly
      · exact finish_moves busy rfl rfl
      · exact finish_moves busy rfl rfl

/-- A turn is made of moves, by cases on the input and on what the session runs. -/
theorem handle_moves {session : Session κ} (settled : session.Settled)
    : Moves setting input (session.arrive input) (session.handle setting input).effects
        (session.handle setting input).session := by
  unfold handle
  by_cases ended : session.ended = true
  · have unchanged : session.arrive input = session := by
      rw [arrive]
      split <;> simp [ended]
    rw [if_pos ended, unchanged]
    exact .none
  · rw [if_neg ended]
    cases input with
    | frame text => exact handleFrame_moves settled (Bool.eq_false_iff.mpr ended) text
    | left => exact (Move.stop (.inl rfl)).moves
    | deafened => exact (Move.deafen rfl).moves
    | granted client => exact handleGrant_moves session client
    | refused cause => exact handleRefusal_moves session cause
    | event outcome => exact handleEvent_moves settled outcome

end SourceView.Session
