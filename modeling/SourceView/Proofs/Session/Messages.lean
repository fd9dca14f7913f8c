import SourceView.Proofs.Session.Moves

/-! The messages about one search among those that a session sends.
They stand together if nothing about another search stands between them.
-/

namespace SourceView

namespace BrowserMessage

/-- The message ends the answer to a search. -/
def Ends (id : UInt64) : BrowserMessage → Prop
  | searchDone other _ _ | queryError other _ => other = id
  | _ => False

/-- No message is about a search. -/
def Absent (id : UInt64) (messages : List BrowserMessage) : Prop :=
  ∀ message ∈ messages, message.id? ≠ some id

/-- All that was said about a search are results, perhaps none, and they stand last. -/
def Unended (id : UInt64) (messages : List BrowserMessage) : Prop :=
  ∃ before results,
    messages = before ++ results
    ∧ Absent id before
    ∧ ∀ message ∈ results, ∃ found, message = .result id found

/-- The messages about a search stand together: results, and perhaps an end behind them. -/
def OneBlock (id : UInt64) (messages : List BrowserMessage) : Prop :=
  ∃ before results ending after,
    messages = before ++ results ++ ending ++ after
    ∧ Absent id before
    ∧ (∀ message ∈ results, ∃ found, message = .result id found)
    ∧ (ending = [] ∨ ∃ message, ending = [message] ∧ message.Ends id)
    ∧ Absent id after

variable {id other : UInt64} {messages : List BrowserMessage} {message : BrowserMessage}

/-- A message that ends an answer is about it. -/
theorem Ends.id?_eq (ends : message.Ends id) : message.id? = some id := by
  cases message with
  | query | result | error => cases ends
  | searchDone | queryError => exact congrArg some ends

/-- No messages are about nothing. -/
theorem absent_nil (id : UInt64) : Absent id [] :=
  fun _ member => nomatch member

/-- Messages one behind the other are not about a search if none of both is. -/
theorem Absent.append {more : List BrowserMessage} (absent : Absent id messages)
    (absentLater : Absent id more)
    : Absent id (messages ++ more) := by
  intro message member
  rcases List.mem_append.mp member with first | later
  · exact absent message first
  · exact absentLater message later

/-- One more message about another search is not about this one. -/
theorem Absent.concat (absent : Absent id messages) (about : message.id? = some other)
    (apart : other ≠ id)
    : Absent id (messages ++ [message]) := by
  intro last member
  rcases List.mem_append.mp member with old | new
  · exact absent last old
  · obtain rfl := List.mem_singleton.mp new
    rw [about]
    exact fun same => apart (Option.some.inj same)

/-- Messages that are not about a search do not end its answer. -/
theorem Absent.unended (absent : Absent id messages) : Unended id messages :=
  ⟨messages, [], (List.append_nil _).symm, absent, nofun⟩

/-- An answer that has not ended stands in one block. -/
theorem Unended.oneBlock (unended : Unended id messages) : OneBlock id messages := by
  obtain ⟨before, results, rfl, absent, parts⟩ := unended
  exact ⟨before, results, [], [], by simp, absent, parts, .inl rfl, nofun⟩

/-- One more result does not end an answer. -/
theorem Unended.concat_result (unended : Unended id messages) (found : Match)
    : Unended id (messages ++ [.result id found]) := by
  obtain ⟨before, results, rfl, absent, parts⟩ := unended
  refine ⟨before, results ++ [.result id found], List.append_assoc _ _ _, absent, ?_⟩
  intro message member
  rcases List.mem_append.mp member with old | new
  · exact parts message old
  · exact ⟨found, List.mem_singleton.mp new⟩

/-- The end of an answer leaves it in one block. -/
theorem Unended.concat_ends (unended : Unended id messages) (ends : message.Ends id)
    : OneBlock id (messages ++ [message]) := by
  obtain ⟨before, results, rfl, absent, parts⟩ := unended
  exact ⟨before, results, [message], [], by simp, absent, parts, .inr ⟨message, rfl, ends⟩, nofun⟩

/-- One more message about another search leaves an answer in one block. -/
theorem OneBlock.concat_other (block : OneBlock id messages) (about : message.id? = some other)
    (apart : other ≠ id)
    : OneBlock id (messages ++ [message]) := by
  obtain ⟨before, results, ending, after, rfl, absent, parts, ends, absentAfter⟩ := block
  exact ⟨before, results, ending, after ++ [message], by simp, absent, parts, ends,
    absentAfter.concat about apart⟩

end BrowserMessage

namespace Session

open BrowserMessage

variable {κ : Type} {setting : Setting} {input : Input κ}

/-- The message that an effect sends. -/
def Effect.message? : Effect κ → Option BrowserMessage
  | .reply message => some message
  | _ => none

/-- The messages about searches among what is to be done. -/
def numbered (effects : List (Effect κ)) : List BrowserMessage :=
  (effects.filterMap Effect.message?).filter (·.id?.isSome)

@[simp] theorem numbered_nil : numbered ([] : List (Effect κ)) = [] := rfl

/-- Effects one behind the other send their messages one behind the other. -/
@[simp] theorem numbered_append (effects more : List (Effect κ))
    : numbered (effects ++ more) = numbered effects ++ numbered more := by
  simp [numbered]

/-- A message with a number is sent if it is one of the effects. -/
theorem mem_numbered {effects : List (Effect κ)} {message : BrowserMessage}
    : message ∈ numbered effects ↔ .reply message ∈ effects ∧ message.id?.isSome := by
  rw [numbered, List.mem_filter, List.mem_filterMap]
  refine and_congr_left fun _ => ⟨?_, fun member => ⟨_, member, rfl⟩⟩
  intro said
  obtain ⟨effect, member, sent⟩ := said
  cases effect with
  | reply => exact Option.some.inj sent ▸ member
  | ask | release | close => cases sent

@[simp] theorem numbered_ask (client : κ) (query : Query) : numbered [.ask client query] = [] := rfl

@[simp] theorem numbered_release (backend : String) (client : κ)
    : numbered [.release backend client] = [] := rfl

@[simp] theorem numbered_releasing (session : Session κ) : numbered session.releasing = [] := by
  rw [releasing]
  split <;> rfl

@[simp] theorem numbered_shutDown (session : Session κ)
    : numbered session.shutDown.effects = [] := by
  simp only [shutDown]
  split <;> rfl

/-- What is said is sent, or nobody listens. -/
theorem numbered_saying_of_id (session : Session κ) {message : BrowserMessage} {id : UInt64}
    (about : message.id? = some id)
    : numbered (session.saying message) = [] ∨ numbered (session.saying message) = [message] := by
  rw [saying]
  split
  · exact .inl rfl
  · exact .inr (List.filter_cons_of_pos (by rw [about]; rfl))

@[simp] theorem numbered_saying_error (session : Session κ) (reason : String)
    : numbered (session.saying (.error reason)) = [] := by
  rw [saying]
  split <;> rfl

/-- The event that ends an answer is told as its end. -/
theorem ending?_ends {running : RunningSearch κ} {event : QueryEvent} {message : BrowserMessage}
    (ends : ending? setting running event = some message)
    : message.Ends running.request.id := by
  cases event with
  | result => cases ends
  | done | failed =>
      obtain rfl := Option.some.inj ends
      exact rfl

end Session

end SourceView
