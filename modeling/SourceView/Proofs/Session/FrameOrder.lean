import Mathlib
import SourceView.Proofs.Session.Silence

/-! The order of the messages that a session sends.
All messages about one search stand together, its end stands last among them, and none follows once
a later search has arrived.
-/

namespace SourceView.Session

open BrowserMessage

variable {κ : Type} {setting : Setting} {input : Input κ}

-----------------------------------------------------------------------------------------
-- Messages in order
-----------------------------------------------------------------------------------------

/-- The messages so far are in order, and the searches that a session has can go on being
answered.
-/
structure Ordered (session : Session κ) (messages : List BrowserMessage) : Prop where
  blocks : ∀ id, OneBlock id messages
  running
    : ∀ running, session.running = some running → Unended running.request.id messages
  pending : ∀ request, session.pending = some request → Unended request.id messages
  /-- Nothing was said about a search that waits for another. -/
  apart
    : ∀ running request, session.running = some running → session.pending = some request
      → running.request.id ≠ request.id ∧ Absent request.id messages

section Ordered

variable {session next : Session κ} {messages : List BrowserMessage} {message : BrowserMessage}
  {running : RunningSearch κ} {request : SearchRequest}

/-- A search that can go on being answered can be ended. -/
theorem blocks_concat {id : UInt64} (blocks : ∀ id, OneBlock id messages)
    (unended : Unended id messages) (ends : message.Ends id) (other : UInt64)
    : OneBlock other (messages ++ [message]) := by
  by_cases same : id = other
  · exact same ▸ unended.concat_ends ends
  · exact (blocks other).concat_other ends.id?_eq same

/-- A session that runs nothing has only to be able to answer the search that waits. -/
theorem ordered_of_idle (blocks : ∀ id, OneBlock id messages) (idle : next.running = none)
    (pending : ∀ request, next.pending = some request → Unended request.id messages)
    : Ordered next messages where
  blocks := blocks
  running := by simp [idle]
  pending := pending
  apart := by simp [idle]

/-- At the start the messages of a session are in order. -/
theorem ordered_empty : Ordered ({} : Session κ) [] :=
  ordered_of_idle (fun id => (absent_nil id).unended.oneBlock) rfl (by simp)

/-- The end of the running search comes behind its results, and nothing was said about the search
that waits.
-/
theorem Ordered.finish (ordered : Ordered session messages) (busy : session.running = some running)
    (ends : message.Ends running.request.id)
    : Ordered ({ session with running := none } : Session κ)
        (messages ++ numbered (session.saying message)) := by
  rcases numbered_saying_of_id session ends.id?_eq with unsaid | said
  · rw [unsaid, List.append_nil]
    exact ordered_of_idle ordered.blocks rfl ordered.pending
  rw [said]
  apply ordered_of_idle (blocks_concat ordered.blocks (ordered.running running busy) ends) rfl
  intro request waits
  obtain ⟨other, absent⟩ := ordered.apart running request busy waits
  exact (absent.concat ends.id?_eq other).unended

/-- A result of the running search comes behind its other results. -/
theorem Ordered.pass (ordered : Ordered session messages) (busy : session.running = some running)
    (found : Match)
    : Ordered session
        (messages ++ numbered (session.saying (.result running.request.id found))) := by
  have about : (BrowserMessage.result running.request.id found).id? = some running.request.id := rfl
  rcases numbered_saying_of_id session about with unsaid | said
  · rw [unsaid, List.append_nil]
    exact ordered
  rw [said]
  have unended := (ordered.running running busy).concat_result found
  have apart : ∀ request, session.pending = some request
      → running.request.id ≠ request.id
        ∧ Absent request.id (messages ++ [.result running.request.id found]) := by
    intro request waits
    obtain ⟨other, absent⟩ := ordered.apart running request busy waits
    exact ⟨other, absent.concat about other⟩
  refine ⟨?_, ?_, fun request waits => (apart request waits).2.unended, ?_⟩
  · intro id
    by_cases same : running.request.id = id
    · exact same ▸ unended.oneBlock
    · exact (ordered.blocks id).concat_other about same
  · intro other otherBusy
    obtain rfl := Option.some.inj (busy.symm.trans otherBusy)
    exact unended
  · intro other request otherBusy waits
    obtain rfl := Option.some.inj (busy.symm.trans otherBusy)
    exact apart request waits

/-- A search that waits is turned down behind its results, if there were any. -/
theorem Ordered.reject (ordered : Ordered session messages) (idle : session.running = none)
    (waits : session.pending = some request) (ends : message.Ends request.id)
    : Ordered { session with pending := none } (messages ++ numbered (session.saying message)) := by
  rcases numbered_saying_of_id session ends.id?_eq with unsaid | said
  · rw [unsaid, List.append_nil]
    exact ordered_of_idle ordered.blocks idle (by simp)
  rw [said]
  have blocks := blocks_concat ordered.blocks (ordered.pending request waits) ends
  exact ordered_of_idle blocks idle (by simp)

/-- A move keeps the order, by cases on the move. -/
theorem Move.ordered {effects : List (Effect κ)} (move : Move setting input session effects next)
    (ordered : Ordered session messages)
    : Ordered next (messages ++ numbered effects) := by
  cases move with
  | deafen =>
      rw [numbered_nil, List.append_nil]
      exact ⟨ordered.blocks, ordered.running, ordered.pending, ordered.apart⟩
  | stop =>
      rw [numbered_shutDown, List.append_nil]
      exact ordered_of_idle ordered.blocks rfl ordered.pending
  | complain =>
      rw [numbered_saying_error, List.append_nil]
      exact ordered
  | start idle waits =>
      rw [numbered_nil, List.append_nil]
      refine ⟨ordered.blocks, ?_, by simp, by simp⟩
      intro running busy
      obtain rfl := Option.some.inj busy
      exact ordered.pending _ waits
  | reject idle waits => exact ordered.reject idle waits rfl
  | @ask running client granted busy =>
      rw [numbered_ask, List.append_nil]
      refine ⟨ordered.blocks, ?_, ordered.pending, ?_⟩
      · intro _ same
        cases same
        exact ordered.running running busy
      · intro _ request same waits
        cases same
        exact ordered.apart running request busy waits
  | decline =>
      rw [numbered_release, List.append_nil]
      exact ordered_of_idle ordered.blocks rfl ordered.pending
  | giveUp refused busy =>
      split
      · rw [numbered_nil, List.append_nil]
        exact ordered_of_idle ordered.blocks rfl ordered.pending
      · exact ordered.finish busy rfl
  | pass heard busy => exact ordered.pass busy _
  | finish heard busy ends =>
      rw [numbered_append, numbered_releasing, List.nil_append]
      split
      · rw [numbered_nil, List.append_nil]
        exact ordered_of_idle ordered.blocks rfl ordered.pending
      · exact ordered.finish busy (ending?_ends ends)
  | retry heard busy =>
      rw [numbered_releasing, List.append_nil]
      refine ordered_of_idle ordered.blocks rfl ?_
      intro _ same
      cases same
      exact ordered.running _ busy
  | drop =>
      rw [numbered_releasing, List.append_nil]
      exact ordered_of_idle ordered.blocks rfl ordered.pending

/-- The messages stay in order in a turn, by induction on its moves. -/
theorem Moves.ordered {effects : List (Effect κ)}
    (moves : Moves setting input session effects next) (ordered : Ordered session messages)
    : Ordered next (messages ++ numbered effects) := by
  induction moves generalizing messages with
  | none => rwa [numbered_nil, List.append_nil]
  | next move _ ih =>
      rw [numbered_append, ← List.append_assoc]
      exact ih (move.ordered ordered)

/-- A search that arrives waits, and nothing was said about it if it was not known. -/
theorem Ordered.takeIn (ordered : Ordered session messages)
    (unknown : ∀ running, session.running = some running → running.request.id ≠ request.id)
    (absent : Absent request.id messages)
    : Ordered (session.takeIn request) messages := by
  unfold Session.takeIn
  cases busy : session.running with
  | some running =>
      refine ⟨ordered.blocks, ?_, ?_, ?_⟩
      · intro _ same
        cases same
        exact ordered.running running busy
      · intro _ same
        cases same
        exact absent.unended
      · intro _ _ same sameRequest
        cases same
        cases sameRequest
        exact ⟨unknown running busy, absent⟩
  | none =>
      dsimp only
      split
      · refine ordered_of_idle ordered.blocks rfl ?_
        intro _ same
        cases same
        exact absent.unended
      · exact ordered

end Ordered

-----------------------------------------------------------------------------------------
-- Turns and runs
-----------------------------------------------------------------------------------------

section Runs

variable {session : Session κ} {messages : List BrowserMessage}

/-- The messages stay in order with an input that asks for no search but a new one. -/
theorem handle_ordered (settled : session.Settled) (ordered : Ordered session messages)
    (fresh
      : ∀ request, input.request? = some request
        → session.Lacks request.id ∧ Absent request.id messages)
    : Ordered (session.handle setting input).session
        (messages ++ numbered (session.handle setting input).effects) := by
  apply (handle_moves settled).ordered
  rcases session.arrive_eq input with same | ⟨request, asked, taken⟩
  · rwa [same]
  · obtain ⟨lacks, absent⟩ := fresh request asked
    rw [taken]
    exact ordered.takeIn lacks.running absent

/-- A run keeps the order if every search that arrives has a number of its own, by induction on the
inputs.
-/
theorem run_ordered (settled : session.Settled) (ordered : Ordered session messages)
    {inputs : List (Setting × Input κ)} (distinct : (requested inputs).Nodup)
    (fresh : ∀ id ∈ requested inputs, session.Lacks id ∧ Absent id messages)
    : Ordered (session.run inputs).session (messages ++ numbered (session.run inputs).effects) := by
  induction inputs generalizing session messages with
  | nil =>
      rw [run, numbered_nil, List.append_nil]
      exact ordered
  | cons head rest ih =>
      have next : Ordered (session.handle head.1 head.2).session
          (messages ++ numbered (session.handle head.1 head.2).effects) := by
        refine handle_ordered settled ordered fun request asked => fresh request.id ?_
        exact mem_requested_cons.mpr (.inl ⟨request, asked, rfl⟩)
      obtain ⟨distinctLater, apart⟩ := requested_nodup_cons distinct
      rw [run, effects_after, numbered_append, ← List.append_assoc]
      refine ih (handle_settled settled _ _) next distinctLater ?_
      intro id later
      obtain ⟨lacks, absent⟩ := fresh id (mem_requested_cons.mpr (.inr later))
      have other : ∀ request, head.2.request? = some request → request.id ≠ id :=
        fun request asked same => apart request asked (same ▸ later)
      exact ⟨handle_lacks settled lacks other,
        absent.append (handle_silences settled lacks.silences other).2⟩

end Runs

-----------------------------------------------------------------------------------------
-- What a browser receives
-----------------------------------------------------------------------------------------

/-- Where searches have numbers of their own, the messages about each stand together with its end
behind its results, and nothing is said about a search once a newer one has arrived while it ran.
-/
theorem messages_in_order (inputs : List (Setting × Input κ))
    (distinct : (requested inputs).Nodup)
    : (∀ id, OneBlock id (numbered (({} : Session κ).run inputs).effects))
      ∧ ∀ first setting text newer rest running,
          inputs = first ++ (setting, .frame text) :: rest
          → BrowserMessage.registry.decode text = .ok (.query newer)
          → (({} : Session κ).run first).session.running = some running
          → ∀ message,
              .reply message
                ∈ ((({} : Session κ).run first).session.run
                    ((setting, .frame text) :: rest)).effects
              → message.id? ≠ some running.request.id := by
  have lacks : ∀ id, ({} : Session κ).Lacks id := fun id => ⟨by simp, by simp⟩
  constructor
  · have ordered : Ordered (({} : Session κ).run inputs).session
        ([] ++ numbered (({} : Session κ).run inputs).effects) :=
      run_ordered settled_empty ordered_empty distinct fun id _ => ⟨lacks id, absent_nil id⟩
    exact ordered.blocks
  · intro first setting text newer rest running split read busy message sent about
    subst split
    have settled : (({} : Session κ).run first).session.Settled := run_settled settled_empty first
    rw [requested_append, List.nodup_append] at distinct
    have asked : running.request.id ∈ requested first := by
      refine Decidable.byContradiction fun unasked => ?_
      exact (run_lacks settled_empty (lacks _) unasked).running running busy rfl
    have apart : running.request.id ∉ requested ((setting, .frame text) :: rest) :=
      fun later => distinct.2.2 _ asked _ later rfl
    have absent := superseded_silent settled busy read apart
    exact absent message (mem_numbered.mpr ⟨sent, by rw [about]; rfl⟩) about

/-- A message that asks for a search. -/
def firstFrame : List UInt8 :=
  Text.Utf8.bytes "\x7b\"opcode\":\"query\",\"body\":\x7b\"id\":1,\"line\":\"a\"\x7d\x7d"

/-- A message that asks for another search. -/
def secondFrame : List UInt8 :=
  Text.Utf8.bytes "\x7b\"opcode\":\"query\",\"body\":\x7b\"id\":2,\"line\":\"b\"\x7d\x7d"

/-- The first message asks for a search. -/
theorem decode_firstFrame
    : BrowserMessage.registry.decode firstFrame
      = .ok (.query { id := 1, query := { line := "a" } }) := by
  cbv

/-- The second message asks for another search. -/
theorem decode_secondFrame
    : BrowserMessage.registry.decode secondFrame
      = .ok (.query { id := 2, query := { line := "b" } }) := by
  cbv

/-- Once the second search has arrived, nothing is said about the first, whatever the pool and the
backend do.
-/
theorem first_superseded
    : let setting : Setting := { now := 0, resolve := .ok }
      let first : List (Setting × Input Unit) := [(setting, .frame firstFrame)]
      let rest : List (Setting × Input Unit) := [
        (setting, .frame secondFrame), (setting, .granted ()), (setting, .refused .closed)]
      ∀ message,
        .reply message ∈ ((({} : Session Unit).run first).session.run rest).effects
        → message.id? ≠ some 1 := by
  intro setting first rest
  have distinct : (requested (first ++ rest)).Nodup := by
    simp [first, rest, requested, Input.request?, decode_firstFrame, decode_secondFrame]
  have busy : (({} : Session Unit).run first).session.running
      = some { request := { id := 1, query := { line := "a" } }, backend := "", started := 0 } := by
    simp [first, setting, run, handle, handleFrame, decode_firstFrame, handleRequest,
      SearchRequest.isNew, start]
  exact (messages_in_order (first ++ rest) distinct).2 first setting secondFrame _ _ _ rfl
    decode_secondFrame busy

end SourceView.Session
