import SourceView.Instant
import SourceView.Message.Envelope
import SourceView.Query.Basic

/-! Messages between this program and a search backend.
A backend greets with what it serves. It answers each query with matches and one message that ends
the answer: statistics, or the reason why the query failed.
-/

namespace SourceView

/-! ### What messages are about -/

/-- A repository that a backend serves. -/
structure ServedRepo where
  name : String
  metadata : NameMap String := {}
  deriving DecidableEq

/-- What a backend says of itself when a connection opens. -/
structure Greeting where
  name : String
  repos : List ServedRepo := []
  hasTags : Bool := false
  /-- When the index was built, in seconds since 1970. -/
  indexTime : Int64 := 0
  deriving DecidableEq

/-- A path with the line of a match. -/
structure MatchPath where
  tree : String := ""
  version : String := ""
  path : String
  deriving DecidableEq, Repr

/-- Where a matching line stands, and the lines around it. -/
structure MatchContext where
  paths : List MatchPath := []
  lineNumber : UInt64 := 0
  before : List String := []
  after : List String := []
  deriving DecidableEq, Repr

/-- A line that matches, with every place it stands at. -/
structure Match where
  contexts : List MatchContext := []
  /-- Where in the line the match starts and ends, in bytes. -/
  bounds : UInt64 × UInt64 := (0, 0)
  line : String
  deriving DecidableEq, Repr

/-- Where the time for a query went. -/
structure Stats where
  re2Time : Int64 := 0
  gitTime : Int64 := 0
  sortTime : Int64 := 0
  indexTime : Int64 := 0
  analyzeTime : Int64 := 0
  /-- Why the search stopped. -/
  why : String := ""
  deriving DecidableEq, Repr

/-- A message of the backend protocol. -/
inductive BackendMessage where
  | info (greeting : Greeting)
  | query (asked : Query)
  | result (found : Match)
  | stats (timing : Stats)
  | error (text : String)
  deriving DecidableEq

/-! ### Writing -/

/-- A part of a query's body that is left out when it is empty. -/
def Query.unlessEmpty (name value : String) : List (String × Json) :=
  if value.isEmpty then [] else [(name, .string value)]

/-- The members of a query's body. -/
def Query.members (query : Query) : List (String × Json) :=
  [("line", .string query.line), ("file", .string query.file)]
    ++ unlessEmpty "not_file" query.notFile
    ++ [("repo", .string query.repo)]
    ++ unlessEmpty "not_repo" query.notRepo
    ++ unlessEmpty "tags" query.tags
    ++ unlessEmpty "not_tags" query.notTags
    ++ [("fold_case", .bool query.foldCase)]
    ++ (query.maxMatches.map fun limit => ("max_matches", Json.nat limit.toNat)).toList

/-- The body of a query. -/
def Query.body (query : Query) : Json :=
  .record query.members

/-- The body of a served repository. -/
def ServedRepo.body (repo : ServedRepo) : Json :=
  .record [
    ("name", .string repo.name),
    ("metadata", .object (repo.metadata.entries.map fun (name, value) => (name, .string value)))]

/-- The body of a greeting. -/
def Greeting.body (greeting : Greeting) : Json :=
  .record [
    ("name", .string greeting.name),
    ("repos", .array (greeting.repos.map ServedRepo.body)),
    ("has_tags", .bool greeting.hasTags),
    ("index_time", .int greeting.indexTime.toInt)]

/-- The body of a match's path. -/
def MatchPath.body (path : MatchPath) : Json :=
  .record [
    ("tree", .string path.tree),
    ("version", .string path.version),
    ("path", .string path.path)]

/-- The body of a match's context. -/
def MatchContext.body (context : MatchContext) : Json :=
  .record [
    ("paths", .array (context.paths.map MatchPath.body)),
    ("lno", .nat context.lineNumber.toNat),
    ("context_before", .strings context.before),
    ("context_after", .strings context.after)]

/-- The body of a match. -/
def Match.body (found : Match) : Json :=
  .record [
    ("contexts", .array (found.contexts.map MatchContext.body)),
    ("bounds", .array [.nat found.bounds.1.toNat, .nat found.bounds.2.toNat]),
    ("line", .string found.line)]

/-- The body of statistics. -/
def Stats.body (stats : Stats) : Json :=
  .record [
    ("re2_time", .int stats.re2Time.toInt),
    ("git_time", .int stats.gitTime.toInt),
    ("sort_time", .int stats.sortTime.toInt),
    ("index_time", .int stats.indexTime.toInt),
    ("analyze_time", .int stats.analyzeTime.toInt),
    ("why", .string stats.why)]

/-- A query in its envelope. -/
def Query.envelope (query : Query) : Envelope :=
  { opcode := "query", body := query.body }

namespace BackendMessage

/-- The opcode of a message. -/
def opcode : BackendMessage → String
  | info _ => "info"
  | query _ => "query"
  | result _ => "result"
  | stats _ => "stats"
  | error _ => "error"

/-- The body of a message. -/
def body : BackendMessage → Json
  | info greeting => greeting.body
  | query asked => asked.body
  | result found => found.body
  | stats timing => timing.body
  | error text => .string text

/-- A message in its envelope. -/
def envelope (message : BackendMessage) : Envelope :=
  { opcode := message.opcode, body := message.body }

/-- The message ends the answer to a query. -/
def isTerminator : BackendMessage → Bool
  | stats _ | error _ => true
  | _ => false

end BackendMessage

/-! ### Reading -/

/-- The fields of a query's body, in order. -/
def Query.fieldNames : List String :=
  ["line", "file", "not_file", "repo", "not_repo", "tags", "not_tags", "fold_case",
    "max_matches"]

/-- Read a query from the fields of its body. -/
def Query.ofFields? (fields : Json.Fields Json) : Option Query := do
  let text (name : String) := fields.optional name "" Json.asString?
  return {
    line := ← text "line"
    file := ← text "file"
    notFile := ← text "not_file"
    repo := ← text "repo"
    notRepo := ← text "not_repo"
    tags := ← text "tags"
    notTags := ← text "not_tags"
    foldCase := ← fields.optional "fold_case" false Json.asBool?
    maxMatches := ← fields.optional "max_matches" none (Json.asOption? Json.asUInt32?) }

/-- Read a query from its body. -/
def Query.ofBody? (body : Json) : Option Query := do
  Query.ofFields? (← body.fields? Query.fieldNames)

/-- Read a served repository from its body. -/
def ServedRepo.ofBody? (body : Json) : Option ServedRepo := do
  let fields ← body.fields? ["name", "metadata"]
  return {
    name := ← fields.required "name" Json.asString?
    metadata := ← fields.optional "metadata" {} Json.asNameMap? }

/-- Read a greeting from its body. -/
def Greeting.ofBody? (body : Json) : Option Greeting := do
  let fields ← body.fields? ["name", "repos", "has_tags", "index_time"]
  return {
    name := ← fields.required "name" Json.asString?
    repos := ← fields.optional "repos" [] (Json.asList? ServedRepo.ofBody?)
    hasTags := ← fields.optional "has_tags" false Json.asBool?
    indexTime := ← fields.optional "index_time" 0 Json.asInt64? }

/-- Read a match's path from its body. -/
def MatchPath.ofBody? (body : Json) : Option MatchPath := do
  let fields ← body.fields? ["tree", "version", "path"]
  return {
    tree := ← fields.optional "tree" "" Json.asString?
    version := ← fields.optional "version" "" Json.asString?
    path := ← fields.required "path" Json.asString? }

/-- Read a match's context from its body. -/
def MatchContext.ofBody? (body : Json) : Option MatchContext := do
  let fields ← body.fields? ["paths", "lno", "context_before", "context_after"]
  return {
    paths := ← fields.optional "paths" [] (Json.asList? MatchPath.ofBody?)
    lineNumber := ← fields.optional "lno" 0 Json.asUInt64?
    before := ← fields.optional "context_before" [] (Json.asList? Json.asString?)
    after := ← fields.optional "context_after" [] (Json.asList? Json.asString?) }

/-- Read a pair of counts. -/
def Match.asBounds? (value : Json) : Option (UInt64 × UInt64) := do
  match ← value.asList? Json.asUInt64? with
  | [start, stop] => return (start, stop)
  | _ => none

/-- Read a match from its body. -/
def Match.ofBody? (body : Json) : Option Match := do
  let fields ← body.fields? ["contexts", "bounds", "line"]
  return {
    contexts := ← fields.optional "contexts" [] (Json.asList? MatchContext.ofBody?)
    bounds := ← fields.optional "bounds" (0, 0) Match.asBounds?
    line := ← fields.required "line" Json.asString? }

/-- Read statistics from their body. -/
def Stats.ofBody? (body : Json) : Option Stats := do
  let fields ← body.fields?
    ["re2_time", "git_time", "sort_time", "index_time", "analyze_time", "why"]
  return {
    re2Time := ← fields.optional "re2_time" 0 Json.asInt64?
    gitTime := ← fields.optional "git_time" 0 Json.asInt64?
    sortTime := ← fields.optional "sort_time" 0 Json.asInt64?
    indexTime := ← fields.optional "index_time" 0 Json.asInt64?
    analyzeTime := ← fields.optional "analyze_time" 0 Json.asInt64?
    why := ← fields.optional "why" "" Json.asString? }

/-- How messages of the backend protocol are read. -/
def BackendMessage.registry : Registry BackendMessage :=
  ({} : Registry BackendMessage)
    |>.register "info" (fun body => info <$> Greeting.ofBody? body)
    |>.register "query" (fun body => query <$> Query.ofBody? body)
    |>.register "result" (fun body => result <$> Match.ofBody? body)
    |>.register "stats" (fun body => stats <$> Stats.ofBody? body)
    |>.register "error" (fun body => error <$> body.asString?)

/-! ### What a backend offers -/

/-- A repository as it is offered to browsers. -/
structure Tree where
  name : String
  version : String
  /-- Owner and name on GitHub, where the backend knows them. -/
  github : String
  deriving DecidableEq, Repr

/-- What a backend offers, by its last greeting. -/
structure Offer where
  name : String := ""
  trees : List Tree := []
  hasTags : Bool := false
  indexTime : Option Instant := none
  deriving DecidableEq

/-- What a greeting offers. -/
def Greeting.offer (greeting : Greeting) : Offer where
  name := greeting.name
  trees := greeting.repos.map fun repo => {
    name := repo.name
    version := (repo.metadata.get? "version").getD ""
    github := (repo.metadata.get? "github").getD "" }
  hasTags := greeting.hasTags
  indexTime := Instant.ofSeconds? greeting.indexTime.toInt

end SourceView
