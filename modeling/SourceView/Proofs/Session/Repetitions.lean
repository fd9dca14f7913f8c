import SourceView.Proofs.Session.Fates

/-! Searches that are ignored because they repeat the last one.
The last search was answered, or it was overtaken and the search that came next was turned down, as
its backend was unknown. In the second case nobody was ever told the answer.
-/

namespace SourceView.Session

open BrowserMessage

variable {κ : Type} {setting : Setting} {input : Input κ} {session : Session κ}
  {request : SearchRequest}

-----------------------------------------------------------------------------------------
-- Turns that do not end the session
-----------------------------------------------------------------------------------------

/-- A message that does not end the session is sent, and the rest of the turn follows. -/
theorem replying_of_going {message : BrowserMessage} {rest : Turn κ}
    (going : (session.replying message rest).session.ended = false)
    : session.replying message rest = rest.after [.reply message] := by
  unfold replying at going ⊢
  split
  · next deaf =>
      rw [if_pos deaf] at going
      cases going
  · rfl

/-- A session that goes on had not ended before. -/
theorem ended_of_handle (going : (session.handle setting input).session.ended = false)
    : session.ended = false := by
  cases ended : session.ended with
  | false => rfl
  | true =>
      have unchanged : session.handle setting input = { session } := by simp [handle, ended]
      rw [unchanged] at going
      cases ended.symm.trans going

/-- A search that waits and cannot be started is turned down, and the last one stays the last. -/
theorem startPending_of_idle
    (going : (startPending setting session).session.ended = false)
    (idle : (startPending setting session).session.running = none)
    : (startPending setting session).session.last = session.last
      ∧ ∀ newer, session.pending = some newer
        → ∃ cause, setting.resolve newer.backend = .error cause
          ∧ .queryError newer.id cause.message
            ∈ numbered (startPending setting session).effects := by
  unfold startPending at going idle ⊢
  cases waits : session.pending with
  | none => exact ⟨rfl, nofun⟩
  | some newer =>
      simp only [waits, start] at going idle ⊢
      cases found : setting.resolve newer.backend with
      | ok backend => simp [found] at idle
      | error cause =>
          simp only [found] at going ⊢
          rw [replying_of_going going]
          refine ⟨rfl, ?_⟩
          intro _ same
          cases same
          exact ⟨cause, found, mem_numbered.mpr ⟨List.mem_cons_self, rfl⟩⟩

/-- How a search can end: its answer ends, or it was stale and the next one is turned down, or it
was not stale and is forgotten.
-/
def Concluded (setting : Setting) (session : Session κ) (running : RunningSearch κ) (turn : Turn κ)
    : Prop :=
  turn.session.last = none
  ∨ turn.session.last = session.last
    ∧ ((∃ message ∈ numbered turn.effects, message.Ends running.request.id)
      ∨ running.stale = true
        ∧ ∃ newer cause, session.pending = some newer
          ∧ setting.resolve newer.backend = .error cause
          ∧ .queryError newer.id cause.message ∈ numbered turn.effects)

/-- A search that has ended has ended with what was done before it, too. -/
theorem Concluded.after {running : RunningSearch κ} {turn : Turn κ}
    (concluded : Concluded setting session running turn) (effects : List (Effect κ))
    : Concluded setting session running (turn.after effects) := by
  unfold Concluded at concluded ⊢
  rw [effects_after, numbered_append]
  rcases concluded with forgotten | ⟨same, told | turnedDown⟩
  · exact .inl forgotten
  · obtain ⟨message, said, ends⟩ := told
    exact .inr ⟨same, .inl ⟨message, List.mem_append_right _ said, ends⟩⟩
  · obtain ⟨stale, newer, cause, waits, unknown, said⟩ := turnedDown
    exact .inr
      ⟨same, .inr ⟨stale, newer, cause, waits, unknown, List.mem_append_right _ said⟩⟩

/-- A stale search is over, and nothing runs in its place. -/
theorem concluded_of_stale {running : RunningSearch κ} {rest : Turn κ} (settled : session.Settled)
    (busy : session.running = some running) (stale : running.stale = true)
    (rests : rest = startPending setting { session with running := none })
    (going : rest.session.ended = false) (idle : rest.session.running = none)
    : Concluded setting session running rest := by
  subst rests
  obtain ⟨same, turnedDown⟩ := startPending_of_idle going idle
  have waits : session.pending ≠ none := (settled.stale running busy).mp stale
  obtain ⟨newer, waiting⟩ := Option.ne_none_iff_exists'.mp waits
  obtain ⟨cause, unknown, said⟩ := turnedDown newer waiting
  exact .inr ⟨same, .inr ⟨stale, newer, cause, waiting, unknown, said⟩⟩

/-- The end of an answer is told unless the search is stale, and nothing runs afterwards. -/
theorem concluded_of_told {running : RunningSearch κ} {message : BrowserMessage}
    (settled : session.Settled) (busy : session.running = some running)
    (ends : message.Ends running.request.id) {turn : Turn κ}
    (turns
      : turn = if running.stale then startPending setting { session with running := none }
          else replying { session with running := none } message
            (startPending setting { session with running := none }))
    (going : turn.session.ended = false) (idle : turn.session.running = none)
    : Concluded setting session running turn := by
  subst turns
  cases stale : running.stale with
  | true =>
      simp only [stale, if_true] at going idle ⊢
      exact concluded_of_stale settled busy stale rfl going idle
  | false =>
      simp only [stale, Bool.false_eq_true, if_false] at going idle ⊢
      have told := replying_of_going going
      rw [told] at going idle ⊢
      obtain ⟨same, -⟩ := startPending_of_idle going idle
      refine .inr ⟨same, .inl ⟨message, ?_, ends⟩⟩
      have about : message.id?.isSome := by rw [ends.id?_eq]; rfl
      exact mem_numbered.mpr ⟨List.mem_cons_self, about⟩

/-- A session that only says something goes on with the search that it runs. -/
theorem running_of_replying {message : BrowserMessage}
    (going : (session.replying message { session }).session.ended = false)
    : (session.replying message { session }).session.running = session.running := by
  rw [replying_of_going going]
  rfl

/-- A frame does not conclude a search. -/
theorem running_handleFrame {running : RunningSearch κ} {text : List UInt8}
    (busy : session.running = some running)
    (going : (handleFrame setting session text).session.ended = false)
    : (handleFrame setting session text).session.running ≠ none := by
  cases read : BrowserMessage.registry.decode text with
  | error cause =>
      simp only [handleFrame, read] at going ⊢
      simp [running_of_replying going, busy]
  | ok message =>
      cases message with
      | query request => simp [handleFrame, read, handleRequest, busy]
      | result | searchDone | queryError | error =>
          simp only [handleFrame, read] at going ⊢
          simp [running_of_replying going, busy]

/-- A search whose client has failed has ended if nothing runs behind it. -/
theorem requeue_concluded {running : RunningSearch κ} (settled : session.Settled)
    (busy : session.running = some running)
    (going : (requeue setting session).session.ended = false)
    (idle : (requeue setting session).session.running = none)
    : Concluded setting session running (requeue setting session) := by
  unfold requeue at going idle ⊢
  simp only [busy, session_after] at going idle ⊢
  apply Concluded.after
  cases waits : session.pending with
  | none =>
      -- The last search is forgotten here, so that it can be asked for again
      simp only [waits] at going idle ⊢
      exact .inl (startPending_of_idle going idle).1
  | some newer =>
      -- Here it is not, although nobody is told its answer
      have stale : running.stale = true := by simp [settled.stale running busy, waits]
      simp only [waits] at going idle ⊢
      exact concluded_of_stale settled busy stale (by rw [waits]) going idle

/-- However the running search comes to an end, it is concluded, by cases on the input. -/
theorem handle_concluded {running : RunningSearch κ} (settled : session.Settled)
    (busy : session.running = some running)
    (going : (session.handle setting input).session.ended = false)
    (idle : (session.handle setting input).session.running = none)
    : Concluded setting session running (session.handle setting input) := by
  have goingBefore := ended_of_handle going
  unfold handle at going idle ⊢
  simp only [goingBefore, Bool.false_eq_true, if_false] at going idle ⊢
  cases input with
  | frame text => exact absurd idle (running_handleFrame busy going)
  | left => cases going
  | deafened => cases busy.symm.trans idle
  | granted client =>
      simp only [handleGrant, busy] at going idle ⊢
      cases stale : running.stale with
      | true =>
          simp only [stale, if_true, session_after] at going idle ⊢
          exact (concluded_of_stale settled busy stale rfl going idle).after _
      | false => simp [stale] at idle
  | refused cause =>
      have ends : (queryError running.request.id cause.message).Ends running.request.id := rfl
      simp only [handleRefusal, busy] at going idle ⊢
      exact concluded_of_told settled busy ends rfl going idle
  | event outcome =>
      simp only [handleEvent, busy] at going idle ⊢
      rcases outcome with cause | found | stats | text
      · exact requeue_concluded settled busy going idle
      · dsimp only at going idle
        split at idle
        · cases busy.symm.trans idle
        · next current =>
            rw [if_neg current] at going
            cases busy.symm.trans ((running_of_replying going).symm.trans idle)
      · have ends : (searchDone running.request.id
            (UInt64.ofNat (setting.now - running.started)) stats).Ends running.request.id := rfl
        exact (concluded_of_told settled busy ends rfl going idle).after _
      · have ends : (queryError running.request.id text).Ends running.request.id := rfl
        exact (concluded_of_told settled busy ends rfl going idle).after _

/-- Telling something does not change which search was the last. -/
theorem last_replying (session : Session κ) (message : BrowserMessage)
    : (session.replying message { session }).session.last = session.last := by
  unfold replying
  split <;> rfl

/-- A message from the browser after which nothing runs does not change which search was the last.
-/
theorem last_handleFrame {text : List UInt8} (idleBefore : session.running = none)
    (idle : (handleFrame setting session text).session.running = none)
    : (handleFrame setting session text).session.last = session.last := by
  cases read : BrowserMessage.registry.decode text with
  | error cause =>
      simp only [handleFrame, read]
      exact last_replying ..
  | ok message =>
      cases message with
      | query request =>
          simp only [handleFrame, read, handleRequest, idleBefore] at idle ⊢
          cases new : request.isNew session.last with
          | false => rfl
          | true =>
              simp only [new, if_true, start] at idle ⊢
              cases found : setting.resolve request.backend with
              | ok backend => simp [found] at idle
              | error cause => exact last_replying ..
      | result | searchDone | queryError | error =>
          simp only [handleFrame, read]
          exact last_replying ..

/-- A session that runs nothing before and after a turn has started nothing in it. -/
theorem last_of_idle (idleBefore : session.running = none)
    (idle : (session.handle setting input).session.running = none)
    : (session.handle setting input).session.last = session.last := by
  unfold handle at idle ⊢
  by_cases ended : session.ended = true
  · rw [if_pos ended]
  · rw [if_neg ended] at idle ⊢
    cases input with
    | frame text => exact last_handleFrame idleBefore idle
    | left | deafened => rfl
    | granted client => simp [handleGrant, idleBefore]
    | refused cause => simp [handleRefusal, idleBefore]
    | event outcome => simp [handleEvent, idleBefore]

-----------------------------------------------------------------------------------------
-- The search that a repetition repeats
-----------------------------------------------------------------------------------------

/-- After a point at which a search ran, the end of its answer was told. -/
def Answered (inputs : List (Setting × Input κ)) (request : SearchRequest) : Prop :=
  ∃ first rest,
    inputs = first ++ rest
    ∧ (({} : Session κ).run first).session.Runs request
    ∧ ∃ message ∈ numbered ((({} : Session κ).run first).session.run rest).effects,
        message.Ends request.id

/-- A search was stale when it came to its end, and the one that waited for it was turned down
because its backend was unknown.
-/
def Forfeited (inputs : List (Setting × Input κ)) (request : SearchRequest) : Prop :=
  ∃ first setting input rest running newer cause,
    inputs = first ++ (setting, input) :: rest
    ∧ (({} : Session κ).run first).session.running = some running
    ∧ running.request = request
    ∧ running.stale = true
    ∧ (({} : Session κ).run first).session.pending = some newer
    ∧ setting.resolve newer.backend = .error cause
    ∧ .queryError newer.id cause.message
      ∈ numbered ((({} : Session κ).run first).session.handle setting input).effects

section Runs

variable {inputs : List (Setting × Input κ)}

/-- A search that was answered stays so. -/
theorem Answered.append (answered : Answered inputs request) (more : List (Setting × Input κ))
    : Answered (inputs ++ more) request := by
  obtain ⟨first, rest, rfl, runs, message, said, ends⟩ := answered
  refine ⟨first, rest ++ more, List.append_assoc .., runs, message, ?_, ends⟩
  rw [run_append, effects_after, numbered_append]
  exact List.mem_append_left _ said

/-- A search that was answered has had its end told. -/
theorem Answered.told (answered : Answered inputs request)
    : ∃ message ∈ numbered (({} : Session κ).run inputs).effects, message.Ends request.id := by
  obtain ⟨first, rest, rfl, -, message, said, ends⟩ := answered
  refine ⟨message, ?_, ends⟩
  rw [run_append, effects_after, numbered_append]
  exact List.mem_append_right _ said

/-- A search that was forfeited stays so. -/
theorem Forfeited.append (forfeited : Forfeited inputs request) (more : List (Setting × Input κ))
    : Forfeited (inputs ++ more) request := by
  obtain ⟨first, setting, input, rest, running, newer, cause, rfl, facts⟩ := forfeited
  exact ⟨first, setting, input, rest ++ more, running, newer, cause, by simp, facts⟩

/-- While nothing runs, the last search was answered or forfeited, by induction on the inputs from
their end.
-/
theorem last_answered_or_forfeited {last : SearchRequest}
    (going : (({} : Session κ).run inputs).session.ended = false)
    (idle : (({} : Session κ).run inputs).session.running = none)
    (known : (({} : Session κ).run inputs).session.last = some last)
    : Answered inputs last ∨ Forfeited inputs last := by
  induction backwards : inputs.reverse generalizing inputs with
  | nil =>
      rw [List.reverse_eq_nil_iff.mp backwards] at known
      cases known
  | cons head before ih =>
      obtain ⟨setting, input⟩ := head
      obtain ⟨inputs, rfl⟩ : ∃ first, before = first.reverse :=
        ⟨before.reverse, before.reverse_reverse.symm⟩
      rw [← List.reverse_concat, List.reverse_inj] at backwards
      subst backwards
      rw [run_concat, session_after] at going idle known
      cases busy : (({} : Session κ).run inputs).session.running with
      | none =>
          -- Nothing ran before the input either, so the last search had come to its end earlier
          rw [last_of_idle busy idle] at known
          rcases ih (ended_of_handle going) busy known rfl with answered | forfeited
          · exact .inl (answered.append _)
          · exact .inr (forfeited.append _)
      | some running =>
          have settled : (({} : Session κ).run inputs).session.Settled :=
            run_settled settled_empty inputs
          have runs : (({} : Session κ).run inputs).session.Runs running.request :=
            ⟨running, busy, rfl⟩
          rcases handle_concluded settled busy going idle with forgotten | ⟨same, told | turnedDown⟩
          · cases forgotten.symm.trans known
          · rw [same, settled.last running busy] at known
            cases known
            obtain ⟨message, said, ends⟩ := told
            refine .inl ⟨inputs, [(setting, input)], rfl, runs, message, ?_, ends⟩
            simpa [run] using said
          · rw [same, settled.last running busy] at known
            cases known
            obtain ⟨stale, newer, cause, waits, unknown, said⟩ := turnedDown
            exact .inr ⟨inputs, setting, input, [], running, newer, cause, rfl, busy, rfl, stale,
              waits, unknown, said⟩

end Runs

/-- A search that is ignored on arrival repeats the last search that was started. That one was
answered, or nobody was told its answer because a later search took its place, and the backend of
the later one was unknown.
-/
theorem ignored_repeats_answered_or_forfeited (inputs : List (Setting × Input κ))
    (setting : Setting) (text : List UInt8) (request : SearchRequest)
    (read : BrowserMessage.registry.decode text = .ok (.query request))
    (going : (({} : Session κ).run inputs).session.ended = false)
    (idle : (({} : Session κ).run inputs).session.running = none)
    (ignored : request.isNew (({} : Session κ).run inputs).session.last = false)
    : let session := (({} : Session κ).run inputs).session
      session.handle setting (.frame text) = { session }
      ∧ ∃ last,
          session.last = some last
          ∧ last.sameSearch request = true
          ∧ (Answered inputs last ∨ Forfeited inputs last) := by
  have asked : (Input.frame text : Input κ).request? = some request :=
    Input.request?_eq_some.mpr ⟨text, rfl, read⟩
  refine ⟨handle_of_ignored asked idle ignored, ?_⟩
  cases known : (({} : Session κ).run inputs).session.last with
  | none => simp [known, SearchRequest.isNew] at ignored
  | some last =>
      have same : last.sameSearch request = true := by
        simpa [known, SearchRequest.isNew] using ignored
      exact ⟨last, rfl, same, last_answered_or_forfeited going idle known⟩

/-- A message that asks for the first search again. -/
def repeatingFrame : List UInt8 :=
  Text.Utf8.bytes "\x7b\"opcode\":\"query\",\"body\":\x7b\"id\":3,\"line\":\"a\"\x7d\x7d"

/-- The message asks for the first search under another number. -/
theorem decode_repeatingFrame
    : BrowserMessage.registry.decode repeatingFrame
      = .ok (.query { id := 3, query := { line := "a" } }) := by
  cbv

/-- A message that asks a backend which there is not. -/
def strayFrame : List UInt8 :=
  Text.Utf8.bytes
    "\x7b\"opcode\":\"query\",\"body\":\x7b\"id\":2,\"line\":\"b\",\"backend\":\"x\"\x7d\x7d"

/-- The message asks a backend that is unknown. -/
theorem decode_strayFrame
    : BrowserMessage.registry.decode strayFrame
      = .ok (.query { id := 2, backend := "x", query := { line := "b" } }) := by
  cbv

/-- A setting with one backend, which is the one to ask if none is named. -/
def oneBackend : Setting where
  now := 0
  resolve name := if name = "" then .ok "b" else .error (.unknownBackend name)

/-- The first search is answered. -/
def answeredInputs : List (Setting × Input Unit) := [
  (oneBackend, .frame firstFrame),
  (oneBackend, .granted ()),
  (oneBackend, .event (.ok (.done {})))]

/-- When the first search was answered it is the last one. -/
theorem session_answeredInputs
    : (({} : Session Unit).run answeredInputs).session
      = { last := some { id := 1, query := { line := "a" } } } := by
  simp [answeredInputs, run, handle, handleFrame, decode_firstFrame, handleRequest,
    SearchRequest.isNew, start, oneBackend, handleGrant, handleEvent, replying, startPending]

/-- A search that was answered is ignored when it is asked for again. -/
theorem ignored_after_answeredInputs
    : let session := (({} : Session Unit).run answeredInputs).session
      session.handle oneBackend (.frame repeatingFrame) = { session }
      ∧ ∃ last,
          session.last = some last
          ∧ last.sameSearch { id := 3, query := { line := "a" } } = true
          ∧ (Answered answeredInputs last ∨ Forfeited answeredInputs last) := by
  have reached := session_answeredInputs
  apply ignored_repeats_answered_or_forfeited answeredInputs oneBackend repeatingFrame _
    decode_repeatingFrame
  · rw [reached]
  · rw [reached]
  · rw [reached]
    decide

/-- The first search is overtaken by one for a backend that there is not. -/
def overtakenInputs : List (Setting × Input Unit) := [
  (oneBackend, .frame firstFrame),
  (oneBackend, .granted ()),
  (oneBackend, .frame strayFrame),
  (oneBackend, .event (.ok (.done {})))]

/-- When the first search was overtaken it is the last one, although its answer was not told. -/
theorem run_overtakenInputs
    : ({} : Session Unit).run overtakenInputs
      = { session := { last := some { id := 1, query := { line := "a" } } }
          effects := [
            .ask () { line := "a" },
            .release "b" (),
            .reply (.queryError 2 "unknown backend: x")] } := by
  simp [overtakenInputs, run, handle, handleFrame, decode_firstFrame, decode_strayFrame,
    handleRequest, SearchRequest.isNew, start, oneBackend, handleGrant, handleEvent, replying,
    startPending, Turn.after, releasing, holds?, PoolError.message]

/-- A search that is ignored as a repetition need not repeat one that was answered. -/
theorem exists_ignored_unanswered
    : ¬ ∀ (inputs : List (Setting × Input Unit)) text request last,
        BrowserMessage.registry.decode text = .ok (.query request)
        → (({} : Session Unit).run inputs).session.ended = false
        → (({} : Session Unit).run inputs).session.running = none
        → (({} : Session Unit).run inputs).session.last = some last
        → request.isNew (some last) = false
        → Answered inputs last := by
  intro always
  have reached := congrArg Turn.session run_overtakenInputs
  have said := congrArg (fun turn => numbered turn.effects) run_overtakenInputs
  have answered : Answered overtakenInputs { id := 1, query := { line := "a" } } := by
    apply always overtakenInputs repeatingFrame _ _ decode_repeatingFrame
    · rw [reached]
    · rw [reached]
    · rw [reached]
    · decide
  obtain ⟨message, told, ends⟩ := answered.told
  rw [said] at told
  obtain rfl := List.mem_singleton.mp told
  exact absurd ends (by decide)

end SourceView.Session
