import SourceView.Proofs.Message.Streams
import SourceView.Proofs.Session.Repetitions

/-! What an ignored search would have asked.
Searches are compared by their backend and four parts of their query. The other parts reach the
backend all the same, so that a search can be ignored that asks for something else.
-/

namespace SourceView

-----------------------------------------------------------------------------------------
-- Queries and their lines
-----------------------------------------------------------------------------------------

/-- A line is that of one query only. -/
theorem Query.line_inj {query other : Query}
    : query.envelope.line = other.envelope.line ↔ query = other := by
  refine ⟨fun same => ?_, fun same => by rw [same]⟩
  have read := faithful.decode_line query
  rw [same, faithful.decode_line other] at read
  exact (BackendMessage.query.inj (Except.ok.inj read)).symm

/-- The parts of two queries that are not compared are the same. -/
structure Query.AlikeUnseen (query other : Query) : Prop where
  notFile : query.notFile = other.notFile
  notRepo : query.notRepo = other.notRepo
  tags : query.tags = other.tags
  notTags : query.notTags = other.notTags
  maxMatches : query.maxMatches = other.maxMatches

namespace SearchRequest

/-- A search repeats the last one if five of their fields are the same. -/
theorem isNew_some_eq_false {request last : SearchRequest}
    : request.isNew (some last) = false
      ↔ last.backend = request.backend
        ∧ last.query.line = request.query.line
        ∧ last.query.file = request.query.file
        ∧ last.query.repo = request.query.repo
        ∧ last.query.foldCase = request.query.foldCase := by
  simp [isNew, sameSearch, and_assoc]

/-- A repetition is the same query if the parts that were not compared are the same. -/
theorem query_eq_iff_of_repeated {request last : SearchRequest}
    (repeated : request.isNew (some last) = false)
    : request.query = last.query ↔ request.query.AlikeUnseen last.query := by
  obtain ⟨-, line, file, repo, foldCase⟩ := isNew_some_eq_false.mp repeated
  refine ⟨fun same => by rw [same]; exact ⟨rfl, rfl, rfl, rfl, rfl⟩, ?_⟩
  rintro ⟨notFile, notRepo, tags, notTags, maxMatches⟩
  rw [Query.mk.injEq]
  exact ⟨line.symm, file.symm, notFile, repo.symm, notRepo, tags, notTags, foldCase.symm,
    maxMatches⟩

end SearchRequest

-----------------------------------------------------------------------------------------
-- Ignored searches
-----------------------------------------------------------------------------------------

namespace Session

variable {κ : Type}

/-- A search that is ignored would have gone to the backend of the last one, and would have written
the line of the last one there exactly if the parts that are not compared are the same.
-/
theorem ignored_asks_alike_iff {request last : SearchRequest}
    (ignored : request.isNew (some last) = false)
    : (∀ (session : Session κ) setting,
        session.running = none
        → session.last = some last
        → session.handleRequest setting request = { session })
      ∧ (∀ setting : Setting, setting.resolve request.backend = setting.resolve last.backend)
      ∧ (request.query.envelope.line = last.query.envelope.line
          ↔ request.query.AlikeUnseen last.query) := by
  refine ⟨?_, ?_, ?_⟩
  · intro session setting idle known
    simp [handleRequest, idle, known, ignored]
  · intro setting
    rw [(SearchRequest.isNew_some_eq_false.mp ignored).1]
  · rw [Query.line_inj]
    exact SearchRequest.query_eq_iff_of_repeated ignored

/-- The first search asks the same when it is asked for again. -/
theorem repetition_asks_alike
    : let session := (({} : Session Unit).run answeredInputs).session
      let last : SearchRequest := { id := 1, query := { line := "a" } }
      let request : SearchRequest := { id := 3, query := { line := "a" } }
      session.handleRequest oneBackend request = { session }
      ∧ oneBackend.resolve request.backend = oneBackend.resolve last.backend
      ∧ request.query.envelope.line = last.query.envelope.line := by
  intro session last request
  have ignored : request.isNew (some last) = false := by decide
  have reached : session = { last := some last } := session_answeredInputs
  obtain ⟨ignores, backend, lines⟩ := ignored_asks_alike_iff (κ := Unit) ignored
  refine ⟨ignores session oneBackend ?_ ?_, backend oneBackend, lines.mpr ?_⟩
  · rw [reached]
  · rw [reached]
  · exact ⟨rfl, rfl, rfl, rfl, rfl⟩

/-- A message that asks for the first search in fewer files. -/
def narrowingFrame : List UInt8 :=
  Text.Utf8.bytes
    "\x7b\"opcode\":\"query\",\"body\":\x7b\"id\":2,\"line\":\"a\",\"not_file\":\"b\"\x7d\x7d"

/-- The message asks for the search with one more filter. -/
theorem decode_narrowingFrame
    : BrowserMessage.registry.decode narrowingFrame
      = .ok (.query { id := 2, query := { line := "a", notFile := "b" } }) := by
  cbv

/-- A search that is ignored need not ask what the last one asked. -/
theorem exists_ignored_asking_otherwise
    : ¬ ∀ (inputs : List (Setting × Input Unit)) text request last,
        BrowserMessage.registry.decode text = .ok (.query request)
        → (({} : Session Unit).run inputs).session.ended = false
        → (({} : Session Unit).run inputs).session.running = none
        → (({} : Session Unit).run inputs).session.last = some last
        → request.isNew (some last) = false
        → request.query.envelope.line = last.query.envelope.line := by
  intro always
  have reached := session_answeredInputs
  have same : ({ line := "a", notFile := "b" } : Query).envelope.line
      = ({ line := "a" } : Query).envelope.line := by
    apply always answeredInputs narrowingFrame { id := 2, query := { line := "a", notFile := "b" } }
      { id := 1, query := { line := "a" } } decode_narrowingFrame
    · rw [reached]
    · rw [reached]
    · rw [reached]
    · decide
  exact absurd (Query.line_inj.mp same) (by decide)

end Session

end SourceView
