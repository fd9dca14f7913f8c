import SourceView.Message.Backend

/-! Messages between this program and a browser.
A browser numbers its searches, and every answer to a search carries the search's number.
-/

namespace SourceView

/-- A search that a browser asks for. -/
structure SearchRequest where
  /-- The number that the browser chose. -/
  id : UInt64
  /-- The backend to ask, or the first one if it is empty. -/
  backend : String := ""
  query : Query := {}
  deriving DecidableEq, Repr

/-- Two requests would show the user the same. -/
def SearchRequest.sameSearch (request other : SearchRequest) : Bool :=
  request.backend == other.backend && request.query.line == other.query.line
    && request.query.file == other.query.file && request.query.repo == other.query.repo
    && request.query.foldCase == other.query.foldCase

/-- A request that does not repeat the last search that was sent on. -/
def SearchRequest.isNew (request : SearchRequest) (last : Option SearchRequest) : Bool :=
  match last with
  | none => true
  | some last => !last.sameSearch request

/-- A message of the browser protocol. -/
inductive BrowserMessage where
  | query (request : SearchRequest)
  | result (id : UInt64) (found : Match)
  /-- The end of a search, with the milliseconds it took. -/
  | searchDone (id : UInt64) (time : UInt64) (stats : Stats)
  | queryError (id : UInt64) (text : String)
  /-- A complaint about a message rather than about a search. -/
  | error (text : String)
  deriving DecidableEq

/-- The body of a search request. -/
def SearchRequest.body (request : SearchRequest) : Json :=
  .record ([("id", .nat request.id.toNat), ("backend", .string request.backend)]
    ++ request.query.members)

/-- Read a search request from its body, which has to be an object. -/
def SearchRequest.ofBody? (body : Json) : Option SearchRequest := do
  let fields ← body.members?
  return {
    id := ← fields.required "id" Json.asUInt64?
    backend := ← fields.optional "backend" "" Json.asString?
    query := ← Query.ofFields? fields }

namespace BrowserMessage

/-- The opcode of a message. -/
def opcode : BrowserMessage → String
  | query _ => "query"
  | result _ _ => "result"
  | searchDone _ _ _ => "search_done"
  | queryError _ _ => "query_error"
  | error _ => "error"

/-- The body of a message. -/
def body : BrowserMessage → Json
  | query request => request.body
  | result id found => .record [("id", .nat id.toNat), ("result", found.body)]
  | searchDone id time stats =>
    .record [("id", .nat id.toNat), ("time", .nat time.toNat), ("stats", stats.body)]
  | queryError id text => .record [("id", .nat id.toNat), ("error", .string text)]
  | error text => .record [("error", .string text)]

/-- A message in its envelope. -/
def envelope (message : BrowserMessage) : Envelope :=
  { opcode := message.opcode, body := message.body }

/-- The number of the search that a message is about. -/
def id? : BrowserMessage → Option UInt64
  | query request => some request.id
  | result id _ => some id
  | searchDone id _ _ => some id
  | queryError id _ => some id
  | error _ => none

/-- Read a match with the number of its search. -/
def resultOfBody? (body : Json) : Option BrowserMessage := do
  let fields ← body.fields? ["id", "result"]
  return result (← fields.required "id" Json.asUInt64?)
    (← fields.required "result" Match.ofBody?)

/-- Read the end of a search. -/
def searchDoneOfBody? (body : Json) : Option BrowserMessage := do
  let fields ← body.fields? ["id", "time", "stats"]
  return searchDone (← fields.required "id" Json.asUInt64?)
    (← fields.required "time" Json.asUInt64?) (← fields.required "stats" Stats.ofBody?)

/-- Read the failure of a search. -/
def queryErrorOfBody? (body : Json) : Option BrowserMessage := do
  let fields ← body.fields? ["id", "error"]
  return queryError (← fields.required "id" Json.asUInt64?)
    (← fields.required "error" Json.asString?)

/-- Read a complaint. -/
def errorOfBody? (body : Json) : Option BrowserMessage := do
  let fields ← body.fields? ["error"]
  return error (← fields.required "error" Json.asString?)

/-- How messages of the browser protocol are read. -/
def registry : Registry BrowserMessage :=
  ({} : Registry BrowserMessage)
    |>.register "query" (fun body => query <$> SearchRequest.ofBody? body)
    |>.register "result" resultOfBody?
    |>.register "search_done" searchDoneOfBody?
    |>.register "query_error" queryErrorOfBody?
    |>.register "error" errorOfBody?

end BrowserMessage

end SourceView
