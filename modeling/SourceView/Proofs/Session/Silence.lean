import SourceView.Proofs.Session.Messages

/-! Searches about which a session says nothing more.
It says nothing about a search that it neither runs nor keeps, nor about one that it runs although a
newer one has arrived.
-/

namespace SourceView.Session

open BrowserMessage

variable {κ : Type} {setting : Setting} {input : Input κ}

/-- A session neither runs nor keeps a search. -/
structure Lacks (session : Session κ) (id : UInt64) : Prop where
  running : ∀ running, session.running = some running → running.request.id ≠ id
  pending : ∀ request, session.pending = some request → request.id ≠ id

/-- A session does not keep a search, and does not tell the answer if it runs it. -/
structure Silences (session : Session κ) (id : UInt64) : Prop where
  running
    : ∀ running, session.running = some running → running.stale = false → running.request.id ≠ id
  pending : ∀ request, session.pending = some request → request.id ≠ id

section Silences

variable {session next : Session κ} {id : UInt64} {request : SearchRequest}
  {message : BrowserMessage}

/-- A session that lacks a search tells nothing of it. -/
theorem Lacks.silences (lacks : session.Lacks id) : session.Silences id :=
  ⟨fun running busy _ => lacks.running running busy, lacks.pending⟩

/-- What is said about another search is not about this one. -/
theorem absent_saying (about : message.id? = some request.id) (apart : request.id ≠ id)
    : Absent id (numbered (session.saying message)) := by
  rcases numbered_saying_of_id session about with unsaid | said
  · rw [unsaid]
    exact absent_nil id
  · rw [said]
    exact (absent_nil id).concat about apart

/-- A move leaves a session without a search that it lacked, by cases on the move. -/
theorem Move.lacks {effects : List (Effect κ)} (move : Move setting input session effects next)
    (lacks : session.Lacks id)
    : next.Lacks id := by
  cases move with
  | deafen => exact ⟨lacks.running, lacks.pending⟩
  | complain | pass => exact lacks
  | start idle waits =>
      refine ⟨?_, by simp⟩
      intro _ same
      cases same
      exact lacks.pending _ waits
  | reject idle => exact ⟨lacks.running, by simp⟩
  | @ask running client granted busy =>
      refine ⟨?_, lacks.pending⟩
      intro _ same
      cases same
      exact lacks.running running busy
  | @retry running cause heard busy =>
      refine ⟨by simp, ?_⟩
      intro _ same
      cases same
      exact lacks.running running busy
  | stop | decline | giveUp | finish | drop => exact ⟨by simp [shutDown], lacks.pending⟩

/-- A move says nothing about a search that is silenced, which stays so, by cases on the move. -/
theorem Move.silences {effects : List (Effect κ)} (move : Move setting input session effects next)
    (silences : session.Silences id)
    : next.Silences id ∧ Absent id (numbered effects) := by
  have nothing := absent_nil id
  cases move with
  | deafen => exact ⟨⟨silences.running, silences.pending⟩, nothing⟩
  | stop =>
      rw [numbered_shutDown]
      exact ⟨⟨by simp [shutDown], silences.pending⟩, nothing⟩
  | complain =>
      rw [numbered_saying_error]
      exact ⟨silences, nothing⟩
  | start idle waits =>
      refine ⟨⟨?_, by simp⟩, nothing⟩
      intro _ same _
      cases same
      exact silences.pending _ waits
  | reject idle waits =>
      exact ⟨⟨silences.running, by simp⟩, absent_saying rfl (silences.pending _ waits)⟩
  | @ask running client granted busy =>
      refine ⟨⟨?_, silences.pending⟩, nothing⟩
      intro _ same
      cases same
      exact silences.running running busy
  | decline => exact ⟨⟨by simp, silences.pending⟩, nothing⟩
  | @giveUp running cause refused busy =>
      refine ⟨⟨by simp, silences.pending⟩, ?_⟩
      split
      · exact nothing
      · rename_i current
        exact absent_saying rfl (silences.running running busy (Bool.eq_false_iff.mpr current))
  | @pass running found heard busy current =>
      exact ⟨silences, absent_saying rfl (silences.running running busy current)⟩
  | @finish running event message heard busy ends =>
      refine ⟨⟨by simp, silences.pending⟩, ?_⟩
      rw [numbered_append, numbered_releasing, List.nil_append]
      split
      · exact nothing
      · rename_i current
        exact absent_saying (ending?_ends ends).id?_eq
          (silences.running running busy (Bool.eq_false_iff.mpr current))
  | @retry running cause heard busy current =>
      rw [numbered_releasing]
      refine ⟨⟨by simp, ?_⟩, nothing⟩
      intro _ same
      cases same
      exact silences.running running busy current
  | drop =>
      rw [numbered_releasing]
      exact ⟨⟨by simp, silences.pending⟩, nothing⟩

/-- A turn leaves a session without a search that it lacked, by induction on its moves. -/
theorem Moves.lacks {effects : List (Effect κ)} (moves : Moves setting input session effects next)
    (lacks : session.Lacks id)
    : next.Lacks id := by
  induction moves with
  | none => exact lacks
  | next move _ ih => exact ih (move.lacks lacks)

/-- A turn tells nothing of a search that the session keeps silent about, by induction on its moves.
-/
theorem Moves.silences {effects : List (Effect κ)}
    (moves : Moves setting input session effects next) (silences : session.Silences id)
    : next.Silences id ∧ Absent id (numbered effects) := by
  induction moves with
  | none => exact ⟨silences, absent_nil id⟩
  | next move _ ih =>
      obtain ⟨middle, absent⟩ := move.silences silences
      obtain ⟨final, absentLater⟩ := ih middle
      rw [numbered_append]
      exact ⟨final, absent.append absentLater⟩

/-- Taking in another search leaves a session without this one. -/
theorem Lacks.takeIn (lacks : session.Lacks id) (apart : request.id ≠ id)
    : (session.takeIn request).Lacks id := by
  unfold Session.takeIn
  cases busy : session.running with
  | some running =>
      refine ⟨?_, ?_⟩
      · intro _ same
        cases same
        exact lacks.running running busy
      · intro _ same
        cases same
        exact apart
  | none =>
      dsimp only
      split
      · refine ⟨by simp, ?_⟩
        intro _ same
        cases same
        exact apart
      · exact lacks

/-- A search that arrives silences whatever runs. -/
theorem Silences.takeIn (silences : session.Silences id) (apart : request.id ≠ id)
    : (session.takeIn request).Silences id := by
  unfold Session.takeIn
  cases session.running with
  | some running => exact ⟨by simp, by simpa using apart⟩
  | none =>
      dsimp only
      split
      · exact ⟨by simp, by simpa using apart⟩
      · exact silences

end Silences

-----------------------------------------------------------------------------------------
-- Turns and runs
-----------------------------------------------------------------------------------------

section Runs

variable {session : Session κ} {id : UInt64}

/-- An input that does not ask for a search leaves a session without it. -/
theorem handle_lacks (settled : session.Settled) (lacks : session.Lacks id)
    (apart : ∀ request, input.request? = some request → request.id ≠ id)
    : (session.handle setting input).session.Lacks id := by
  apply (handle_moves settled).lacks
  rcases session.arrive_eq input with same | ⟨request, asked, taken⟩
  · rwa [same]
  · rw [taken]
    exact lacks.takeIn (apart request asked)

/-- An input that does not ask for a search has nothing told of it that the session keeps silent
about.
-/
theorem handle_silences (settled : session.Settled) (silences : session.Silences id)
    (apart : ∀ request, input.request? = some request → request.id ≠ id)
    : (session.handle setting input).session.Silences id
      ∧ Absent id (numbered (session.handle setting input).effects) := by
  apply (handle_moves settled).silences
  rcases session.arrive_eq input with same | ⟨request, asked, taken⟩
  · rwa [same]
  · rw [taken]
    exact silences.takeIn (apart request asked)

/-- Inputs that do not ask for a search leave a session without it, by induction on the inputs. -/
theorem run_lacks (settled : session.Settled) (lacks : session.Lacks id)
    {inputs : List (Setting × Input κ)} (unasked : id ∉ requested inputs)
    : (session.run inputs).session.Lacks id := by
  induction inputs generalizing session with
  | nil => exact lacks
  | cons head rest ih =>
      rw [mem_requested_cons, not_or] at unasked
      have next : (session.handle head.1 head.2).session.Lacks id :=
        handle_lacks settled lacks fun request asked same => unasked.1 ⟨request, asked, same⟩
      exact ih (handle_settled settled _ _) next unasked.2

/-- Inputs that do not ask for a search have nothing told of it that the session keeps silent about,
by induction on the inputs.
-/
theorem run_silences (settled : session.Settled) (silences : session.Silences id)
    {inputs : List (Setting × Input κ)} (unasked : id ∉ requested inputs)
    : Absent id (numbered (session.run inputs).effects) := by
  induction inputs generalizing session with
  | nil => exact absent_nil id
  | cons head rest ih =>
      rw [mem_requested_cons, not_or] at unasked
      have apart : ∀ request, head.2.request? = some request → request.id ≠ id :=
        fun request asked same => unasked.1 ⟨request, asked, same⟩
      obtain ⟨next, absent⟩ := handle_silences settled silences apart
      rw [run, effects_after, numbered_append]
      exact absent.append (ih (handle_settled settled _ _) next unasked.2)

end Runs

/-- Once a search has arrived while another one runs, nothing more is said about that one. -/
theorem superseded_silent {session : Session κ} {running : RunningSearch κ}
    {newer : SearchRequest} {text : List UInt8} {rest : List (Setting × Input κ)}
    (settled : session.Settled) (busy : session.running = some running)
    (read : BrowserMessage.registry.decode text = .ok (.query newer))
    (apart : running.request.id ∉ requested ((setting, .frame text) :: rest))
    : Absent running.request.id
        (numbered (session.run ((setting, .frame text) :: rest)).effects) := by
  by_cases ended : session.ended = true
  · rw [run_of_ended ended]
    exact absent_nil _
  have asked : (Input.frame text : Input κ).request? = some newer := by
    rw [Input.request?, read]
  rw [mem_requested_cons, not_or] at apart
  have taken : session.arrive (.frame text)
      = { session with running := some { running with stale := true }, pending := some newer } := by
    simp [arrive, asked, ended, takeIn, busy]
  have arrived : (session.arrive (.frame text)).Silences running.request.id := by
    rw [taken]
    refine ⟨by simp, ?_⟩
    intro _ same
    cases same
    exact fun same => apart.1 ⟨newer, asked, same⟩
  obtain ⟨next, absent⟩ := (handle_moves settled).silences arrived
  rw [run, effects_after, numbered_append]
  exact absent.append (run_silences (handle_settled settled _ _) next apart.2)

end SourceView.Session
