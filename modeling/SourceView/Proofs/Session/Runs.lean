import SourceView.Session.Basic

/-! Runs of a session, and what holds of it between two inputs.
A search waits only behind another one, which it has made stale.
-/

namespace SourceView.Session

variable {κ : Type}

@[simp] theorem session_after (effects : List (Effect κ)) (turn : Turn κ)
    : (turn.after effects).session = turn.session := rfl

@[simp] theorem effects_after (effects : List (Effect κ)) (turn : Turn κ)
    : (turn.after effects).effects = effects ++ turn.effects := rfl

-----------------------------------------------------------------------------------------
-- Between two inputs
-----------------------------------------------------------------------------------------

/-- Between two inputs, a search waits exactly if the running one is stale, and the running one was
started last.
-/
structure Settled (session : Session κ) : Prop where
  waits : session.ended = false → session.running = none → session.pending = none
  stale
    : ∀ running, session.running = some running
      → (running.stale = true ↔ session.pending ≠ none)
  last
    : ∀ running, session.running = some running → session.last = some running.request

/-- A session is settled at its start. -/
theorem settled_empty : ({} : Session κ).Settled :=
  ⟨fun _ _ => rfl, by simp, by simp⟩

/-- A session that has shut down is settled. -/
theorem shutDown_settled (session : Session κ) : session.shutDown.session.Settled :=
  ⟨by simp [shutDown], by simp [shutDown], by simp [shutDown]⟩

/-- Telling something leaves a session settled. -/
theorem replying_settled {session : Session κ} {message : BrowserMessage} {rest : Turn κ}
    (settled : rest.session.Settled)
    : (session.replying message rest).session.Settled := by
  rw [replying]
  split
  · exact shutDown_settled session
  · exact settled

/-- Starting a search leaves a session settled. -/
theorem start_settled {setting : Setting} {session : Session κ} {request : SearchRequest}
    (idle : session.running = none) (alone : session.pending = none)
    : (start setting session request).session.Settled := by
  rw [start]
  cases setting.resolve request.backend with
  | error cause =>
      apply replying_settled
      exact ⟨fun _ _ => alone, by simp [idle], by simp [idle]⟩
  | ok backend => exact ⟨nofun, by simp [alone], by simp⟩

/-- Starting the search that waits leaves a session settled. -/
theorem startPending_settled {setting : Setting} {session : Session κ}
    (idle : session.running = none)
    : (startPending setting session).session.Settled := by
  rw [startPending]
  cases waiting : session.pending with
  | none => exact ⟨fun _ _ => waiting, by simp [idle], by simp [idle]⟩
  | some request => exact start_settled idle rfl

/-- A search that is asked for leaves a session settled. -/
theorem handleRequest_settled {setting : Setting} {session : Session κ}
    (settled : session.Settled) (going : session.ended = false) (request : SearchRequest)
    : (handleRequest setting session request).session.Settled := by
  unfold handleRequest
  cases busy : session.running with
  | some running => exact ⟨nofun, by simp, by simpa using settled.last running busy⟩
  | none =>
      dsimp only
      split
      · exact start_settled busy (settled.waits going busy)
      · exact settled

/-- A search whose client has failed leaves a session settled. -/
theorem requeue_settled {setting : Setting} {session : Session κ} (settled : session.Settled)
    : (requeue setting session).session.Settled := by
  rw [requeue]
  cases session.running with
  | none => exact settled
  | some running =>
      cases session.pending with
      | none => exact startPending_settled rfl
      | some request => exact startPending_settled rfl

/-- A message from the browser leaves a session settled. -/
theorem handleFrame_settled {setting : Setting} {session : Session κ}
    (settled : session.Settled) (going : session.ended = false) (text : List UInt8)
    : (handleFrame setting session text).session.Settled := by
  rw [handleFrame]
  split
  · exact handleRequest_settled settled going _
  · exact replying_settled settled
  · exact replying_settled settled

/-- A client that is granted leaves a session settled. -/
theorem handleGrant_settled {setting : Setting} {session : Session κ}
    (settled : session.Settled) (client : κ)
    : (handleGrant setting session client).session.Settled := by
  unfold handleGrant
  cases busy : session.running with
  | none => exact settled
  | some running =>
      dsimp only
      split
      · exact startPending_settled rfl
      · exact ⟨nofun, by simpa using settled.stale running busy,
          by simpa using settled.last running busy⟩

/-- A refusal leaves a session settled. -/
theorem handleRefusal_settled {setting : Setting} {session : Session κ}
    (settled : session.Settled) (cause : PoolError)
    : (handleRefusal setting session cause).session.Settled := by
  unfold handleRefusal
  cases session.running with
  | none => exact settled
  | some running =>
      dsimp only
      split
      · exact startPending_settled rfl
      · exact replying_settled (startPending_settled rfl)

/-- An event from the client leaves a session settled. -/
theorem handleEvent_settled {setting : Setting} {session : Session κ}
    (settled : session.Settled) (outcome : Except ClientError QueryEvent)
    : (handleEvent setting session outcome).session.Settled := by
  unfold handleEvent
  cases session.running with
  | none => exact settled
  | some running =>
      rcases outcome with cause | found | stats | text
      · exact requeue_settled settled
      · dsimp only
        split
        · exact settled
        · exact replying_settled settled
      · rw [session_after]
        split
        · exact startPending_settled rfl
        · exact replying_settled (startPending_settled rfl)
      · rw [session_after]
        split
        · exact startPending_settled rfl
        · exact replying_settled (startPending_settled rfl)

/-- A turn leaves the session settled, by cases on the input. -/
theorem handle_settled {session : Session κ} (settled : session.Settled) (setting : Setting)
    (input : Input κ)
    : (session.handle setting input).session.Settled := by
  unfold handle
  by_cases ended : session.ended = true
  · rw [if_pos ended]
    exact settled
  · rw [if_neg ended]
    cases input with
    | frame text => exact handleFrame_settled settled (Bool.eq_false_iff.mpr ended) text
    | left => exact shutDown_settled session
    | deafened => exact ⟨settled.waits, settled.stale, settled.last⟩
    | granted client => exact handleGrant_settled settled client
    | refused cause => exact handleRefusal_settled settled cause
    | event outcome => exact handleEvent_settled settled outcome

-----------------------------------------------------------------------------------------
-- Inputs one after the other
-----------------------------------------------------------------------------------------

/-- Handle inputs one after the other, each in a setting of its own. -/
def run (session : Session κ) : List (Setting × Input κ) → Turn κ
  | [] => { session }
  | (setting, input) :: rest =>
    let turn := session.handle setting input
    (run turn.session rest).after turn.effects

/-- The search that an input asks for. -/
def Input.request? : Input κ → Option SearchRequest
  | .frame text =>
    match BrowserMessage.registry.decode text with
    | .ok (.query request) => some request
    | _ => none
  | _ => none

/-- The numbers of the searches that inputs ask for, in order. -/
def requested (inputs : List (Setting × Input κ)) : List UInt64 :=
  inputs.filterMap fun (_, input) => input.request?.map SearchRequest.id

/-- Inputs one behind the other ask for their searches one behind the other. -/
theorem requested_append (first rest : List (Setting × Input κ))
    : requested (first ++ rest) = requested first ++ requested rest :=
  List.filterMap_append

/-- A search is asked for with the first input or with one of the others. -/
theorem mem_requested_cons {id : UInt64} {head : Setting × Input κ}
    {rest : List (Setting × Input κ)}
    : id ∈ requested (head :: rest)
      ↔ (∃ request, head.2.request? = some request ∧ request.id = id) ∨ id ∈ requested rest := by
  simp [requested]

/-- Where numbers are distinct, no later search has the number of the first. -/
theorem requested_nodup_cons {head : Setting × Input κ} {rest : List (Setting × Input κ)}
    (distinct : (requested (head :: rest)).Nodup)
    : (requested rest).Nodup
      ∧ ∀ request, head.2.request? = some request → request.id ∉ requested rest := by
  simp only [requested, List.filterMap_cons] at distinct
  cases asked : head.2.request? with
  | none =>
      simp only [asked, Option.map_none] at distinct
      exact ⟨distinct, by simp⟩
  | some request =>
      simp only [asked, Option.map_some, List.nodup_cons] at distinct
      refine ⟨distinct.2, ?_⟩
      intro _ same
      cases same
      exact distinct.1

/-- Inputs are handled one behind the other, by induction on the first ones. -/
theorem run_append (session : Session κ) (first rest : List (Setting × Input κ))
    : session.run (first ++ rest)
      = ((session.run first).session.run rest).after (session.run first).effects := by
  induction first generalizing session with
  | nil => rfl
  | cons head more ih => simp [run, ih, Turn.after]

/-- Inputs leave a session settled, by induction on them. -/
theorem run_settled {session : Session κ} (settled : session.Settled)
    (inputs : List (Setting × Input κ))
    : (session.run inputs).session.Settled := by
  induction inputs generalizing session with
  | nil => exact settled
  | cons head rest ih => exact ih (handle_settled settled head.1 head.2)

/-- A session that has ended does nothing any more, by induction on the inputs. -/
theorem run_of_ended {session : Session κ} (ended : session.ended = true)
    (inputs : List (Setting × Input κ))
    : session.run inputs = { session } := by
  induction inputs with
  | nil => rfl
  | cons head rest ih =>
      have unchanged : session.handle head.1 head.2 = { session } := by
        simp [handle, ended]
      rw [run, unchanged]
      simp [ih, Turn.after]

end SourceView.Session
