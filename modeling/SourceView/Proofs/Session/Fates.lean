import SourceView.Proofs.Session.FrameOrder

/-! What becomes of the searches that arrive at a session.
As long as somebody listens, each of them runs, waits, was answered once, was superseded without an
answer, or was ignored as a repetition, and only one of these.
-/

namespace SourceView

namespace BrowserMessage

variable {id : UInt64} {messages : List BrowserMessage}

instance (id : UInt64) : DecidablePred (Ends id)
  | searchDone other _ _ => inferInstanceAs (Decidable (other = id))
  | queryError other _ => inferInstanceAs (Decidable (other = id))
  | query _ | result _ _ | error _ => inferInstanceAs (Decidable False)

/-- How many messages end the answer to a search. -/
def endings (id : UInt64) (messages : List BrowserMessage) : Nat :=
  messages.countP fun message => decide (message.Ends id)

/-- The ends of answers in messages one behind the other add up. -/
theorem endings_append (first later : List BrowserMessage)
    : endings id (first ++ later) = endings id first + endings id later :=
  List.countP_append

/-- Answers end in messages if one of them ends it. -/
theorem endings_pos_iff : 0 < endings id messages ↔ ∃ message ∈ messages, message.Ends id := by
  simp [endings, List.countP_pos_iff]

/-- No answer ends in messages that are not about it. -/
theorem Absent.endings_eq_zero (absent : Absent id messages) : endings id messages = 0 := by
  rw [endings, List.countP_eq_zero]
  intro message member
  have apart : ¬ message.Ends id := fun ends => absent message member ends.id?_eq
  simpa using apart

/-- Results are not the end of an answer. -/
theorem endings_results (parts : ∀ message ∈ messages, ∃ found, message = .result id found)
    : endings id messages = 0 := by
  rw [endings, List.countP_eq_zero]
  intro message member
  obtain ⟨found, rfl⟩ := parts message member
  exact Bool.false_ne_true

/-- No answer ends in messages that do not end it. -/
theorem Unended.endings_eq_zero (unended : Unended id messages) : endings id messages = 0 := by
  obtain ⟨before, results, rfl, absent, parts⟩ := unended
  rw [endings_append, absent.endings_eq_zero, endings_results parts]

/-- An answer that stands in one block ends at most once. -/
theorem OneBlock.endings_le_one (block : OneBlock id messages) : endings id messages ≤ 1 := by
  obtain ⟨before, results, ending, after, rfl, absent, parts, ends, absentAfter⟩ := block
  have few : endings id ending ≤ 1 := by
    rcases ends with rfl | ⟨message, rfl, -⟩
    · exact Nat.zero_le 1
    · exact List.countP_le_length
  rw [endings_append, endings_append, endings_append, absent.endings_eq_zero,
    endings_results parts, absentAfter.endings_eq_zero]
  omega

end BrowserMessage

namespace Session

open BrowserMessage

variable {κ : Type} {setting : Setting} {input : Input κ} {session next : Session κ}
  {request : SearchRequest}

/-- A search is asked for by a message that asks for it. -/
theorem Input.request?_eq_some
    : input.request? = some request
      ↔ ∃ text, input = .frame text
        ∧ BrowserMessage.registry.decode text = .ok (.query request) := by
  cases input with
  | frame text =>
      simp only [request?, Input.frame.injEq, exists_eq_left']
      cases BrowserMessage.registry.decode text with
      | error => simp
      | ok message => cases message <;> simp
  | left | deafened | granted | refused | event => simp [request?]

-----------------------------------------------------------------------------------------
-- Searches that a session has
-----------------------------------------------------------------------------------------

/-- A search is the running one. -/
def Runs (session : Session κ) (request : SearchRequest) : Prop :=
  ∃ running, session.running = some running ∧ running.request = request

/-- A search runs or waits. -/
def Has (session : Session κ) (request : SearchRequest) : Prop :=
  session.Runs request ∨ session.pending = some request

/-- A search waits, or runs and is not stale: its answer will be told. -/
def Pursues (session : Session κ) (request : SearchRequest) : Prop :=
  (∃ running, session.running = some running ∧ running.request = request ∧ running.stale = false)
  ∨ session.pending = some request

/-- No search waits for one that is not stale. -/
def Alone (session : Session κ) : Prop :=
  ∀ running, session.running = some running → running.stale = false → session.pending = none

/-- Somebody listens to the session, which has not ended. -/
structure Serving (session : Session κ) : Prop where
  heard : session.deaf = false
  going : session.ended = false

/-- A session has the search that it pursues. -/
theorem Pursues.has (pursues : session.Pursues request) : session.Has request := by
  rcases pursues with ⟨running, busy, same, -⟩ | waits
  · exact .inl ⟨running, busy, same⟩
  · exact .inr waits

/-- A session does not have a search that it lacks. -/
theorem Lacks.not_has (lacks : session.Lacks request.id) : ¬ session.Has request := by
  rintro (⟨running, busy, rfl⟩ | waits)
  · exact lacks.running running busy rfl
  · exact lacks.pending request waits rfl

/-- In a settled session no search waits for one that is not stale. -/
theorem Settled.alone (settled : session.Settled) : session.Alone := by
  intro running busy current
  cases waits : session.pending with
  | none => rfl
  | some request =>
      have stale : running.stale = true := by simp [settled.stale running busy, waits]
      cases current.symm.trans stale

/-- A search that is taken in does not wait for one that is not stale. -/
theorem Alone.takeIn (alone : session.Alone) : (session.takeIn request).Alone := by
  unfold Session.takeIn
  cases busy : session.running with
  | some running =>
      intro _ same current
      cases same
      cases current
  | none =>
      dsimp only
      split
      · exact nofun
      · exact alone

-----------------------------------------------------------------------------------------
-- Moves and turns of a session that serves
-----------------------------------------------------------------------------------------

/-- A move leaves a session serving as long as the browser listens and stays, by cases on the move.
-/
theorem Move.serving {effects : List (Effect κ)} (move : Move setting input session effects next)
    (stays : input ≠ .left) (heard : input ≠ .deafened) (serving : session.Serving)
    : next.Serving := by
  cases move with
  | deafen deafened => exact absurd deafened heard
  | stop gone =>
      rcases gone with left | deaf
      · exact absurd left stays
      · cases serving.heard.symm.trans deaf
  | complain | pass => exact serving
  | start | reject | ask | decline | giveUp | finish | retry | drop =>
      exact ⟨serving.heard, serving.going⟩

/-- A move leaves no search to wait for one that is not stale, by cases on the move. -/
theorem Move.alone {effects : List (Effect κ)} (move : Move setting input session effects next)
    (alone : session.Alone)
    : next.Alone := by
  cases move with
  | deafen | complain | pass => exact alone
  | start => exact fun _ _ _ => rfl
  | reject => exact fun _ _ _ => rfl
  | @ask running client granted busy current =>
      intro _ same _
      cases same
      exact alone running busy current
  | stop | decline | giveUp | finish | retry | drop => exact nofun

/-- A message of a session to which somebody listens is sent. -/
theorem mem_numbered_saying {message : BrowserMessage} {id : UInt64} (heard : session.deaf = false)
    (about : message.id? = some id)
    : message ∈ numbered (session.saying message) := by
  simp [saying, heard, mem_numbered, about]

/-- A move goes on with a search that is pursued, or ends the answer to it, by cases on the move. -/
theorem Move.pursues {effects : List (Effect κ)} (move : Move setting input session effects next)
    (stays : input ≠ .left) (heard : input ≠ .deafened) (serving : session.Serving)
    (alone : session.Alone) (pursues : session.Pursues request)
    : next.Pursues request ∨ ∃ message ∈ numbered effects, message.Ends request.id := by
  cases move with
  | deafen deafened => exact absurd deafened heard
  | stop gone =>
      rcases gone with left | deaf
      · exact absurd left stays
      · cases serving.heard.symm.trans deaf
  | complain | pass => exact .inl pursues
  | start idle waits =>
      rcases pursues with ⟨running, busy, -⟩ | waiting
      · cases idle.symm.trans busy
      · obtain rfl := Option.some.inj (waits.symm.trans waiting)
        exact .inl (.inl ⟨_, rfl, rfl, rfl⟩)
  | reject idle waits =>
      rcases pursues with ⟨running, busy, -⟩ | waiting
      · cases idle.symm.trans busy
      · obtain rfl := Option.some.inj (waits.symm.trans waiting)
        exact .inr ⟨_, mem_numbered_saying serving.heard rfl, rfl⟩
  | @ask running client granted busy current =>
      rcases pursues with ⟨other, otherBusy, same, otherCurrent⟩ | waiting
      · obtain rfl := Option.some.inj (busy.symm.trans otherBusy)
        exact .inl (.inl ⟨_, rfl, same, current⟩)
      · exact .inl (.inr waiting)
  | decline granted busy stale | drop heard busy stale =>
      rcases pursues with ⟨other, otherBusy, same, current⟩ | waiting
      · obtain rfl := Option.some.inj (busy.symm.trans otherBusy)
        cases stale.symm.trans current
      · exact .inl (.inr waiting)
  | giveUp refused busy =>
      rcases pursues with ⟨other, otherBusy, rfl, current⟩ | waiting
      · obtain rfl := Option.some.inj (busy.symm.trans otherBusy)
        rw [current, if_neg Bool.false_ne_true]
        exact .inr ⟨_, mem_numbered_saying serving.heard rfl, rfl⟩
      · exact .inl (.inr waiting)
  | finish heard busy ends =>
      rcases pursues with ⟨other, otherBusy, rfl, current⟩ | waiting
      · obtain rfl := Option.some.inj (busy.symm.trans otherBusy)
        have told := ending?_ends ends
        rw [current, if_neg Bool.false_ne_true, numbered_append, numbered_releasing,
          List.nil_append]
        exact .inr ⟨_, mem_numbered_saying serving.heard told.id?_eq, told⟩
      · exact .inl (.inr waiting)
  | retry heard busy current =>
      -- The search is put back among those that wait, where no other one is: `alone`
      rcases pursues with ⟨other, otherBusy, same, -⟩ | waiting
      · obtain rfl := Option.some.inj (busy.symm.trans otherBusy)
        exact .inl (.inr (congrArg some same))
      · cases (alone _ busy current).symm.trans waiting

/-- A turn leaves a session serving as long as the browser listens and stays, by induction on its
moves.
-/
theorem Moves.serving {effects : List (Effect κ)} (moves : Moves setting input session effects next)
    (stays : input ≠ .left) (heard : input ≠ .deafened) (serving : session.Serving)
    : next.Serving := by
  induction moves with
  | none => exact serving
  | next move _ ih => exact ih (move.serving stays heard serving)

/-- A search that was pursued is pursued on or has had its end told, by induction on the moves. -/
theorem Moves.pursues {effects : List (Effect κ)} (moves : Moves setting input session effects next)
    (stays : input ≠ .left) (heard : input ≠ .deafened) (serving : session.Serving)
    (alone : session.Alone) (pursues : session.Pursues request)
    : next.Pursues request ∨ ∃ message ∈ numbered effects, message.Ends request.id := by
  induction moves with
  | none => exact .inl pursues
  | next move _ ih =>
      rw [numbered_append]
      rcases move.pursues stays heard serving alone pursues with goesOn | ⟨message, said, ends⟩
      · rcases ih (move.serving stays heard serving) (move.alone alone) goesOn with
          later | ⟨message, said, ends⟩
        · exact .inl later
        · exact .inr ⟨message, List.mem_append_right _ said, ends⟩
      · exact .inr ⟨message, List.mem_append_left _ said, ends⟩

/-- The arrival of an input leaves a session serving. -/
theorem serving_arrive (serving : session.Serving) (input : Input κ)
    : (session.arrive input).Serving := by
  rcases session.arrive_eq input with same | ⟨request, asked, taken⟩
  · rwa [same]
  · rw [taken, takeIn]
    split
    · exact ⟨serving.heard, serving.going⟩
    · split
      · exact ⟨serving.heard, serving.going⟩
      · exact serving

/-- The arrival of an input leaves no search to wait for one that is not stale. -/
theorem alone_arrive (alone : session.Alone) (input : Input κ) : (session.arrive input).Alone := by
  rcases session.arrive_eq input with same | ⟨request, asked, taken⟩
  · rwa [same]
  · rw [taken]
    exact alone.takeIn

/-- An input leaves a session serving as long as the browser listens and stays. -/
theorem handle_serving (settled : session.Settled) (stays : input ≠ .left)
    (heard : input ≠ .deafened) (serving : session.Serving)
    : (session.handle setting input).session.Serving :=
  (handle_moves settled).serving stays heard (serving_arrive serving input)

/-- Whatever is pursued after a search has arrived is pursued further or its answer ends. -/
theorem handle_pursues (settled : session.Settled) (stays : input ≠ .left)
    (heard : input ≠ .deafened) (serving : session.Serving)
    (pursues : (session.arrive input).Pursues request)
    : (session.handle setting input).session.Pursues request
      ∨ ∃ message ∈ numbered (session.handle setting input).effects,
          message.Ends request.id :=
  (handle_moves settled).pursues stays heard (serving_arrive serving input)
    (alone_arrive settled.alone input) pursues

/-- A search that has just arrived is pursued unless it is ignored. -/
theorem takeIn_pursues (session : Session κ) (request : SearchRequest)
    : (session.takeIn request).Pursues request
      ∨ session.running = none ∧ request.isNew session.last = false := by
  unfold takeIn
  cases busy : session.running with
  | some running => exact .inl (.inr rfl)
  | none =>
      cases new : request.isNew session.last with
      | true => exact .inl (.inr rfl)
      | false => exact .inr ⟨rfl, rfl⟩

/-- Inputs leave a session serving as long as the browser listens and stays, by induction on the
inputs.
-/
theorem run_serving (settled : session.Settled) (serving : session.Serving)
    {inputs : List (Setting × Input κ)}
    (listens : ∀ entry ∈ inputs, entry.2 ≠ .left ∧ entry.2 ≠ .deafened)
    : (session.run inputs).session.Serving := by
  induction inputs generalizing session with
  | nil => exact serving
  | cons head rest ih =>
      obtain ⟨stays, heard⟩ := listens head List.mem_cons_self
      exact ih (handle_settled settled _ _) (handle_serving settled stays heard serving)
        fun entry member => listens entry (List.mem_cons_of_mem _ member)

/-- A search arrives while the session has another one. -/
def Overtakes (session : Session κ) (inputs : List (Setting × Input κ)) (request : SearchRequest)
    : Prop :=
  ∃ before setting text newer after,
    inputs = before ++ (setting, .frame text) :: after
    ∧ BrowserMessage.registry.decode text = .ok (.query newer)
    ∧ (session.run before).session.Has request

/-- A search that is pursued is pursued for the whole of a run, or its answer ends, or a later
search arrives first, by induction on the inputs.
-/
theorem run_pursues (settled : session.Settled) (serving : session.Serving)
    (pursues : session.Pursues request) {inputs : List (Setting × Input κ)}
    (listens : ∀ entry ∈ inputs, entry.2 ≠ .left ∧ entry.2 ≠ .deafened)
    : (session.run inputs).session.Pursues request
      ∨ (∃ message ∈ numbered (session.run inputs).effects, message.Ends request.id)
      ∨ session.Overtakes inputs request := by
  induction inputs generalizing session with
  | nil => exact .inl pursues
  | cons head rest ih =>
      obtain ⟨setting, input⟩ := head
      obtain ⟨stays, heard⟩ := listens _ List.mem_cons_self
      cases asked : input.request? with
      | some newer =>
          obtain ⟨text, rfl, read⟩ := Input.request?_eq_some.mp asked
          exact .inr (.inr ⟨[], setting, text, newer, rest, rfl, read, pursues.has⟩)
      | none =>
          have unchanged : session.arrive input = session := by rw [arrive, asked]
          have turn : (session.handle setting input).session.Pursues request
              ∨ ∃ message ∈ numbered (session.handle setting input).effects,
                  message.Ends request.id := by
            apply handle_pursues settled stays heard serving
            rwa [unchanged]
          simp only [run, session_after, effects_after, numbered_append]
          rcases turn with goesOn | ⟨message, said, ends⟩
          · have rested := ih (handle_settled settled setting input)
              (handle_serving settled stays heard serving) goesOn
              fun entry member => listens entry (List.mem_cons_of_mem _ member)
            rcases rested with later | ⟨message, said, ends⟩ |
              ⟨before, other, text, newer, after, rfl, read, has⟩
            · exact .inl later
            · exact .inr (.inl ⟨message, List.mem_append_right _ said, ends⟩)
            · exact .inr (.inr
                ⟨(setting, input) :: before, other, text, newer, after, rfl, read, has⟩)
          · exact .inr (.inl ⟨message, List.mem_append_left _ said, ends⟩)

-----------------------------------------------------------------------------------------
-- One fate for every search
-----------------------------------------------------------------------------------------

/-- What can have become of a search that has arrived. -/
inductive Fate where
  | running
  | pending
  | answered
  /-- A later search arrived, and the answer was not told. -/
  | superseded
  /-- The search repeated the last one. -/
  | ignored
  deriving DecidableEq

/-- What has become of a search that arrived with `frame`, after the inputs in `before` and before
those in `after`.
-/
def Meets (before : List (Setting × Input κ)) (frame : Setting × Input κ)
    (after : List (Setting × Input κ)) (request : SearchRequest) (fate : Fate) : Prop :=
  let turn := ({} : Session κ).run (before ++ frame :: after)
  match fate with
  | .running => turn.session.Runs request
  | .pending => turn.session.pending = some request
  | .answered => endings request.id (numbered turn.effects) = 1
  | .superseded =>
    (({} : Session κ).run (before ++ [frame])).session.Overtakes after request
    ∧ ¬ turn.session.Has request
    ∧ endings request.id (numbered turn.effects) = 0
  | .ignored =>
    (({} : Session κ).run before).session.running = none
    ∧ request.isNew (({} : Session κ).run before).session.last = false

section Fates

variable {before after : List (Setting × Input κ)} {frame : Setting × Input κ}

/-- At its start a session lacks every search. -/
theorem lacks_empty (id : UInt64) : ({} : Session κ).Lacks id :=
  ⟨by simp, by simp⟩

/-- The messages of a session whose searches have different numbers are in order. -/
theorem ordered_of_distinct {inputs : List (Setting × Input κ)}
    (distinct : (requested inputs).Nodup)
    : Ordered (({} : Session κ).run inputs).session
        (numbered (({} : Session κ).run inputs).effects) := by
  have fresh : ∀ id ∈ requested inputs, ({} : Session κ).Lacks id ∧ Absent id [] :=
    fun id _ => ⟨lacks_empty id, absent_nil id⟩
  have ordered := run_ordered settled_empty ordered_empty distinct fresh
  rwa [List.nil_append] at ordered

/-- A session that has a search has not told the end of its answer. -/
theorem Ordered.endings_eq_zero {messages : List BrowserMessage}
    (ordered : Ordered session messages) (has : session.Has request)
    : endings request.id messages = 0 := by
  rcases has with ⟨running, busy, rfl⟩ | waits
  · exact (ordered.running running busy).endings_eq_zero
  · exact (ordered.pending request waits).endings_eq_zero

/-- A run is one up to a message, and then one from there on. -/
theorem run_frame (before after : List (Setting × Input κ)) (frame : Setting × Input κ)
    : ({} : Session κ).run (before ++ frame :: after)
      = ((({} : Session κ).run (before ++ [frame])).session.run after).after
          (({} : Session κ).run (before ++ [frame])).effects := by
  rw [List.append_cons, run_append]

/-- A run with one more input is the run without it, and then that input. -/
theorem run_concat (session : Session κ) (inputs : List (Setting × Input κ))
    (last : Setting × Input κ)
    : session.run (inputs ++ [last])
      = ((session.run inputs).session.handle last.1 last.2).after (session.run inputs).effects := by
  simp [run_append, run, Turn.after]

/-- A search that a session has met the fate of running or of waiting. -/
theorem exists_fate_of_has
    (has : (({} : Session κ).run (before ++ frame :: after)).session.Has request)
    : ∃ fate, Meets before frame after request fate := by
  rcases has with runs | waits
  · exact ⟨.running, runs⟩
  · exact ⟨.pending, waits⟩

/-- A search whose answer has ended was answered once. -/
theorem meets_answered (distinct : (requested (before ++ frame :: after)).Nodup)
    (told
      : ∃ message ∈ numbered (({} : Session κ).run (before ++ frame :: after)).effects,
          message.Ends request.id)
    : Meets before frame after request .answered := by
  have answered := endings_pos_iff.mpr told
  have few := ((ordered_of_distinct distinct).blocks request.id).endings_le_one
  exact Nat.le_antisymm few answered

/-- A search that has just arrived is ignored, or it is pursued or its answer ends. -/
theorem arrives (asked : frame.2.request? = some request)
    (listens : ∀ entry ∈ before ++ [frame], entry.2 ≠ .left ∧ entry.2 ≠ .deafened)
    : (({} : Session κ).run (before ++ [frame])).session.Pursues request
      ∨ (∃ message ∈ numbered (({} : Session κ).run (before ++ [frame])).effects,
          message.Ends request.id)
      ∨ Meets before frame after request .ignored := by
  obtain ⟨stays, heard⟩ := listens frame (List.mem_append_right _ List.mem_cons_self)
  have settled : (({} : Session κ).run before).session.Settled := run_settled settled_empty before
  have serving : (({} : Session κ).run before).session.Serving :=
    run_serving settled_empty ⟨rfl, rfl⟩
      fun entry member => listens entry (List.mem_append_left _ member)
  rw [run_concat, session_after, effects_after, numbered_append]
  rcases takeIn_pursues (({} : Session κ).run before).session request with pursues | ignored
  · have arrived : ((({} : Session κ).run before).session.arrive frame.2).Pursues request := by
      simpa [arrive, asked, serving.going] using pursues
    rcases handle_pursues settled stays heard serving arrived with goesOn | ⟨message, said, ends⟩
    · exact .inl goesOn
    · exact .inr (.inl ⟨message, List.mem_append_right _ said, ends⟩)
  · exact .inr (.inr ignored)

/-- Every search that has arrived met one of the fates: it is ignored, or pursued from its arrival
on until it is answered or overtaken.
-/
theorem exists_fate (asked : frame.2.request? = some request)
    (distinct : (requested (before ++ frame :: after)).Nodup)
    (listens : ∀ entry ∈ before ++ frame :: after, entry.2 ≠ .left ∧ entry.2 ≠ .deafened)
    : ∃ fate, Meets before frame after request fate := by
  rw [List.append_cons] at listens
  have listensFirst : ∀ entry ∈ before ++ [frame], entry.2 ≠ .left ∧ entry.2 ≠ .deafened :=
    fun entry member => listens entry (List.mem_append_left _ member)
  have listensAfter : ∀ entry ∈ after, entry.2 ≠ .left ∧ entry.2 ≠ .deafened :=
    fun entry member => listens entry (List.mem_append_right _ member)
  have settled : (({} : Session κ).run (before ++ [frame])).session.Settled :=
    run_settled settled_empty _
  have serving : (({} : Session κ).run (before ++ [frame])).session.Serving :=
    run_serving settled_empty ⟨rfl, rfl⟩ listensFirst
  have whole := run_frame before after frame
  have answered : (∃ message ∈ numbered (({} : Session κ).run (before ++ [frame])).effects
        ++ numbered ((({} : Session κ).run (before ++ [frame])).session.run after).effects,
        message.Ends request.id)
      → ∃ fate, Meets before frame after request fate := by
    intro told
    refine ⟨.answered, meets_answered distinct ?_⟩
    rwa [whole, effects_after, numbered_append]
  rcases arrives asked listensFirst with pursues | ⟨message, said, ends⟩ | ignored
  · rcases run_pursues settled serving pursues listensAfter with
      later | ⟨message, said, ends⟩ | overtaken
    · apply exists_fate_of_has
      rw [whole]
      exact later.has
    · exact answered ⟨message, List.mem_append_right _ said, ends⟩
    -- A search that was overtaken may wait all the same, or have been answered before that
    · by_cases has : (({} : Session κ).run (before ++ frame :: after)).session.Has request
      · exact exists_fate_of_has has
      · by_cases told : ∃ message ∈ numbered
            (({} : Session κ).run (before ++ frame :: after)).effects, message.Ends request.id
        · exact ⟨.answered, meets_answered distinct told⟩
        · have untold := Nat.eq_zero_of_not_pos (mt endings_pos_iff.mp told)
          exact ⟨.superseded, overtaken, has, untold⟩
  · exact answered ⟨message, List.mem_append_left _ said, ends⟩
  · exact ⟨.ignored, ignored⟩

/-- Nothing comes of a search that is ignored. -/
theorem handle_of_ignored (asked : input.request? = some request) (idle : session.running = none)
    (repeated : request.isNew session.last = false)
    : session.handle setting input = { session } := by
  obtain ⟨text, rfl, read⟩ := Input.request?_eq_some.mp asked
  by_cases ended : session.ended = true
  · simp [handle, ended]
  · simp [handle, ended, handleFrame, read, handleRequest, idle, repeated]

/-- A search that is asked for once is asked for neither before nor afterwards. -/
theorem unasked_of_distinct (asked : frame.2.request? = some request)
    (distinct : (requested (before ++ frame :: after)).Nodup)
    : request.id ∉ requested before ∧ request.id ∉ requested after := by
  rw [requested_append, List.nodup_append] at distinct
  obtain ⟨-, later, apart⟩ := distinct
  have mine : request.id ∈ requested (frame :: after) :=
    mem_requested_cons.mpr (.inl ⟨request, asked, rfl⟩)
  exact ⟨fun earlier => apart _ earlier _ mine rfl, (requested_nodup_cons later).2 request asked⟩

/-- A search that was ignored is neither kept nor answered nor overtaken: the session lacks it from
its arrival on.
-/
theorem Meets.of_ignored (asked : frame.2.request? = some request)
    (distinct : (requested (before ++ frame :: after)).Nodup)
    (ignored : Meets before frame after request .ignored)
    : ¬ (({} : Session κ).run (before ++ frame :: after)).session.Has request
      ∧ endings request.id (numbered (({} : Session κ).run (before ++ frame :: after)).effects) = 0
      ∧ ¬ (({} : Session κ).run (before ++ [frame])).session.Overtakes after request := by
  obtain ⟨unaskedBefore, unaskedAfter⟩ := unasked_of_distinct asked distinct
  have settled : (({} : Session κ).run before).session.Settled := run_settled settled_empty before
  have lacks : (({} : Session κ).run before).session.Lacks request.id :=
    run_lacks settled_empty (lacks_empty _) unaskedBefore
  have silent : Absent request.id (numbered (({} : Session κ).run before).effects) :=
    run_silences settled_empty (lacks_empty _).silences unaskedBefore
  have unchanged : ({} : Session κ).run (before ++ [frame]) = ({} : Session κ).run before := by
    rw [run_concat, handle_of_ignored asked ignored.1 ignored.2]
    simp [Turn.after]
  have whole := run_frame before after frame
  rw [unchanged] at whole ⊢
  refine ⟨?_, ?_, ?_⟩
  · rw [whole]
    exact (run_lacks settled lacks unaskedAfter).not_has
  · have silentLater : Absent request.id
        (numbered ((({} : Session κ).run before).session.run after).effects) :=
      run_silences settled lacks.silences unaskedAfter
    rw [whole, effects_after, numbered_append]
    exact (silent.append silentLater).endings_eq_zero
  · rintro ⟨first, setting, text, newer, rest, rfl, -, has⟩
    rw [requested_append, List.mem_append, not_or] at unaskedAfter
    exact (run_lacks settled lacks unaskedAfter.1).not_has has

/-- A search that runs does not wait. -/
theorem not_pending_of_runs {inputs : List (Setting × Input κ)}
    (distinct : (requested inputs).Nodup)
    (runs : (({} : Session κ).run inputs).session.Runs request)
    : (({} : Session κ).run inputs).session.pending ≠ some request := by
  intro waits
  obtain ⟨running, busy, same⟩ := runs
  have apart := ((ordered_of_distinct distinct).apart running request busy waits).1
  exact apart (congrArg SearchRequest.id same)

/-- Every fate but that of being superseded shows in a sign of its own, by cases on the fate. -/
theorem Meets.signs (asked : frame.2.request? = some request)
    (distinct : (requested (before ++ frame :: after)).Nodup) {fate : Fate}
    (meets : Meets before frame after request fate)
    : (Meets before frame after request .running ↔ fate = .running)
      ∧ (Meets before frame after request .pending ↔ fate = .pending)
      ∧ (Meets before frame after request .answered ↔ fate = .answered)
      ∧ (Meets before frame after request .ignored ↔ fate = .ignored) := by
  have waits : Meets before frame after request .running
      → ¬ Meets before frame after request .pending :=
    not_pending_of_runs distinct
  have told : (({} : Session κ).run (before ++ frame :: after)).session.Has request
      → ¬ Meets before frame after request .answered := by
    intro has answered
    cases ((ordered_of_distinct distinct).endings_eq_zero has).symm.trans answered
  have unheard := Meets.of_ignored asked distinct
  cases fate with
  | running =>
      have here : ¬ Meets before frame after request .ignored :=
        fun ignored => (unheard ignored).1 (.inl meets)
      simp [meets, waits meets, told (.inl meets), here]
  | pending =>
      have here : ¬ Meets before frame after request .ignored :=
        fun ignored => (unheard ignored).1 (.inr meets)
      simp [meets, imp_not_comm.mp waits meets, told (.inr meets), here]
  | answered =>
      have lost : ¬ (({} : Session κ).run (before ++ frame :: after)).session.Has request :=
        fun has => told has meets
      have idle : ¬ Meets before frame after request .running := fun runs => lost (.inl runs)
      have empty : ¬ Meets before frame after request .pending := fun waits => lost (.inr waits)
      have heard : ¬ Meets before frame after request .ignored := by
        intro ignored
        cases (unheard ignored).2.1.symm.trans meets
      simp [meets, idle, empty, heard]
  | superseded =>
      obtain ⟨overtaken, lost, untold⟩ := meets
      have idle : ¬ Meets before frame after request .running := fun runs => lost (.inl runs)
      have empty : ¬ Meets before frame after request .pending := fun waits => lost (.inr waits)
      have unanswered : ¬ Meets before frame after request .answered := by
        intro answered
        cases untold.symm.trans answered
      have heard : ¬ Meets before frame after request .ignored :=
        fun ignored => (unheard ignored).2.2 overtaken
      simp [idle, empty, unanswered, heard]
  | ignored =>
      obtain ⟨lost, untold, -⟩ := unheard meets
      have idle : ¬ Meets before frame after request .running := fun runs => lost (.inl runs)
      have empty : ¬ Meets before frame after request .pending := fun waits => lost (.inr waits)
      have unanswered : ¬ Meets before frame after request .answered := by
        intro answered
        cases untold.symm.trans answered
      simp [meets, idle, empty, unanswered]

/-- A search meets with one fate only, by cases on both. -/
theorem Meets.unique (asked : frame.2.request? = some request)
    (distinct : (requested (before ++ frame :: after)).Nodup) {fate other : Fate}
    (one : Meets before frame after request fate) (two : Meets before frame after request other)
    : fate = other := by
  have first := one.signs asked distinct
  have second := two.signs asked distinct
  cases other with
  | running => exact first.1.mp two
  | pending => exact first.2.1.mp two
  | answered => exact first.2.2.1.mp two
  | ignored => exact first.2.2.2.mp two
  | superseded =>
      cases fate with
      | running => cases second.1.mp one
      | pending => cases second.2.1.mp one
      | answered => cases second.2.2.1.mp one
      | ignored => cases second.2.2.2.mp one
      | superseded => rfl

end Fates

/-- As long as the browser stays and listens, a session does not end, lets no search wait while none
runs, and every search that has arrived, each with a number of its own, met exactly one fate.
-/
theorem no_search_lost (inputs : List (Setting × Input κ))
    (distinct : (requested inputs).Nodup)
    (listens : ∀ entry ∈ inputs, entry.2 ≠ .left ∧ entry.2 ≠ .deafened)
    : let session := (({} : Session κ).run inputs).session
      session.ended = false
      ∧ (session.running = none → session.pending = none)
      ∧ ∀ before setting text request after,
          inputs = before ++ (setting, .frame text) :: after
          → BrowserMessage.registry.decode text = .ok (.query request)
          → ∃ fate,
              Meets before (setting, .frame text) after request fate
              ∧ ∀ other, Meets before (setting, .frame text) after request other
                → other = fate := by
  have going : (({} : Session κ).run inputs).session.ended = false :=
    (run_serving settled_empty ⟨rfl, rfl⟩ listens).going
  refine ⟨going, (run_settled settled_empty inputs).waits going, ?_⟩
  intro before setting text request after split read
  subst split
  have asked : (Input.frame text : Input κ).request? = some request :=
    Input.request?_eq_some.mpr ⟨text, rfl, read⟩
  have met : ∃ fate, Meets before (setting, .frame text) after request fate :=
    exists_fate asked distinct listens
  obtain ⟨fate, meets⟩ := met
  exact ⟨fate, meets, fun other also => also.unique asked distinct meets⟩

/-- The second search overtakes the first, which a client was granted for too late. -/
theorem fate_of_first
    : let setting : Setting := { now := 0, resolve := .ok }
      let after : List (Setting × Input Unit) :=
        [(setting, .frame secondFrame), (setting, .granted ())]
      let request : SearchRequest := { id := 1, query := { line := "a" } }
      ∃ fate,
        Meets [] (setting, .frame firstFrame) after request fate
        ∧ ∀ other, Meets [] (setting, .frame firstFrame) after request other
          → other = fate := by
  intro setting after request
  have distinct : (requested ((setting, .frame firstFrame) :: after)).Nodup := by
    simp [after, requested, Input.request?, decode_firstFrame, decode_secondFrame]
  have listens : ∀ entry ∈ (setting, .frame firstFrame) :: after,
      entry.2 ≠ .left ∧ entry.2 ≠ .deafened := by
    simp [after]
  exact (no_search_lost _ distinct listens).2.2 [] setting firstFrame _ after rfl decode_firstFrame

end Session

end SourceView
