import SourceView.Message.Browser
import SourceView.Proofs.Json.Trees

/-! The bodies of messages read back as what they were written from.
Members that were left out stand for what is read in their place.
-/

namespace SourceView

open Json (Tame InRange)

-----------------------------------------------------------------------------------------
-- Records
-----------------------------------------------------------------------------------------

namespace Json

variable {α : Type} {depth : Nat} {members : List (String × Json)} {names : List String}

/-- An object is tame one level above its members. -/
theorem tame_record (inside : ∀ member ∈ members, Tame depth member.2)
    : Tame (depth + 1) (record members) :=
  .object (NameMap.ofList members).ascending
    fun member present => inside member (NameMap.mem_of_mem_ofList present)

/-- The members of a record as they are found when it is read. -/
def recordFields (members : List (String × Json)) : Fields Json :=
  (NameMap.ofList members).entries.reverse

@[simp] theorem members?_record (members : List (String × Json))
    : (record members).members? = some (recordFields members) := rfl

@[simp] theorem fields?_record (names : List String) (members : List (String × Json))
    : (record members).fields? names = some (recordFields members) := rfl

@[simp] theorem lookup_recordFields (name : String) (members : List (String × Json))
    : (recordFields members).lookup name = members.reverse.lookup name :=
  NameMap.lookup_reverse_ofList name members

end Json

-----------------------------------------------------------------------------------------
-- Single values
-----------------------------------------------------------------------------------------

namespace Json

/-- A number of 64 bits is read back. -/
@[simp] theorem asUInt64?_nat (n : UInt64) : (nat n.toNat).asUInt64? = some n := by
  simp [asUInt64?, nat, int, asNat?, n.toNat_lt]

/-- A number of 32 bits is read back. -/
@[simp] theorem asUInt32?_nat (n : UInt32) : (nat n.toNat).asUInt32? = some n := by
  simp [asUInt32?, nat, int, asNat?, n.toNat_lt]

/-- A signed number of 64 bits is read back. -/
@[simp] theorem asInt64?_int (n : Int64) : (int n.toInt).asInt64? = some n := by
  have low := n.minValue_le_toInt
  have high := n.toInt_lt
  rw [int, asInt64?, if_pos ⟨low, high⟩, Int64.ofInt_toInt]

@[simp] theorem asString?_string (value : String) : (string value).asString? = some value := rfl

@[simp] theorem asBool?_bool (value : Bool) : (bool value).asBool? = some value := rfl

/-- A list is read item by item. -/
theorem asList?_array {read : Json → Option α} {body : α → Json} {values : List α}
    (each : ∀ value ∈ values, read (body value) = some value)
    : asList? read (.array (values.map body)) = some values := by
  rw [asList?]
  induction values with
  | nil => rfl
  | cons value rest ih =>
      rw [List.map_cons, List.mapM_cons, each value List.mem_cons_self,
        ih fun other member => each other (List.mem_cons_of_mem value member)]
      rfl

/-- A list of texts is read back. -/
@[simp] theorem asList?_strings (values : List String)
    : asList? asString? (strings values) = some values :=
  asList?_array fun _ _ => rfl

/-- A map of texts is read back, by induction on its entries. -/
@[simp] theorem asNameMap?_object (map : NameMap String)
    : asNameMap? (.object (map.entries.map fun entry => (entry.1, .string entry.2)))
      = some map := by
  have entries : ∀ entries : List (String × String),
      (entries.map fun entry => (entry.1, Json.string entry.2)).mapM
        (fun member => return (member.1, ← member.2.asString?))
      = some entries := by
    intro entries
    induction entries with
    | nil => rfl
    | cons entry rest ih =>
        rw [List.map_cons, List.mapM_cons, ih]
        rfl
  rw [asNameMap?, entries map.entries]
  exact congrArg some map.ofList_entries

/-- A number below 2^64 is tame. -/
theorem tame_nat {n : Nat} (small : n < UInt64.size) : Tame depth (nat n) :=
  .whole ⟨by omega, by omega⟩

/-- A signed number of 64 bits is tame. -/
theorem tame_int (n : Int64) : Tame depth (int n.toInt) := by
  have low := n.minValue_le_toInt
  have high := n.toInt_lt
  exact .whole ⟨low, Int.lt_trans high (by decide)⟩

/-- An array is tame one level above its items. -/
theorem tame_array {values : List α} {body : α → Json} (each : ∀ value, Tame depth (body value))
    : Tame (depth + 1) (.array (values.map body)) := by
  refine .array fun item member => ?_
  obtain ⟨value, -, rfl⟩ := List.mem_map.mp member
  exact each value

/-- A list of texts is tame. -/
theorem tame_strings (values : List String) : Tame (depth + 1) (strings values) :=
  tame_array fun value => .string value

end Json

-----------------------------------------------------------------------------------------
-- Bodies of the backend protocol
-----------------------------------------------------------------------------------------

/-- The body of statistics is tame. -/
theorem Stats.tame_body (stats : Stats) : Tame 1 stats.body := by
  apply Json.tame_record
  simp [Json.tame_int, Tame.string]

/-- Statistics are read back. -/
theorem Stats.ofBody?_body (stats : Stats) : Stats.ofBody? stats.body = some stats := by
  simp [Stats.ofBody?, Stats.body, Json.Fields.optional, List.lookup_cons]

/-- The body of a path is tame. -/
theorem MatchPath.tame_body (path : MatchPath) : Tame 1 path.body := by
  apply Json.tame_record
  simp [Tame.string]

/-- A path is read back. -/
theorem MatchPath.ofBody?_body (path : MatchPath) : MatchPath.ofBody? path.body = some path := by
  simp [MatchPath.ofBody?, MatchPath.body, Json.Fields.optional, Json.Fields.required,
    List.lookup_cons]

/-- The body of a match's surroundings is tame. -/
theorem MatchContext.tame_body (context : MatchContext) : Tame 3 context.body := by
  have paths : Tame 2 (.array (context.paths.map MatchPath.body)) :=
    Json.tame_array MatchPath.tame_body
  apply Json.tame_record
  simp [paths, Json.tame_strings, Json.tame_nat context.lineNumber.toNat_lt]

/-- A match's surroundings are read back. -/
theorem MatchContext.ofBody?_body (context : MatchContext)
    : MatchContext.ofBody? context.body = some context := by
  have paths : Json.asList? MatchPath.ofBody? (.array (context.paths.map MatchPath.body))
      = some context.paths :=
    Json.asList?_array fun path _ => path.ofBody?_body
  simp [MatchContext.ofBody?, MatchContext.body, Json.Fields.optional, List.lookup_cons, paths]

/-- The body of a match is tame. -/
theorem Match.tame_body (found : Match) : Tame 5 found.body := by
  have contexts : Tame 4 (.array (found.contexts.map MatchContext.body)) :=
    Json.tame_array MatchContext.tame_body
  have bounds : Tame 4 (.array [.nat found.bounds.1.toNat, .nat found.bounds.2.toNat]) := by
    apply Tame.array
    simp [Json.tame_nat found.bounds.1.toNat_lt, Json.tame_nat found.bounds.2.toNat_lt]
  apply Json.tame_record
  simp [contexts, bounds, Tame.string]

/-- The bounds of a match are read back. -/
theorem Match.asBounds?_array (bounds : UInt64 × UInt64)
    : Match.asBounds? (.array [.nat bounds.1.toNat, .nat bounds.2.toNat]) = some bounds := by
  simp [Match.asBounds?, Json.asList?]

/-- A match is read back. -/
theorem Match.ofBody?_body (found : Match) : Match.ofBody? found.body = some found := by
  have contexts : Json.asList? MatchContext.ofBody? (.array (found.contexts.map MatchContext.body))
      = some found.contexts :=
    Json.asList?_array fun context _ => context.ofBody?_body
  simp [Match.ofBody?, Match.body, Json.Fields.optional, Json.Fields.required, List.lookup_cons,
    contexts, Match.asBounds?_array]

/-- The body of a served repository is tame. -/
theorem ServedRepo.tame_body (repo : ServedRepo) : Tame 2 repo.body := by
  have metadata : Tame 1
      (.object (repo.metadata.entries.map fun entry => (entry.1, .string entry.2))) := by
    apply Tame.object
    · rw [List.map_map]
      exact repo.metadata.ascending
    · intro member present
      obtain ⟨entry, -, rfl⟩ := List.mem_map.mp present
      exact .string entry.2
  apply Json.tame_record
  simp [metadata, Tame.string]

/-- A served repository is read back. -/
theorem ServedRepo.ofBody?_body (repo : ServedRepo) : ServedRepo.ofBody? repo.body = some repo := by
  simp [ServedRepo.ofBody?, ServedRepo.body, Json.Fields.optional, Json.Fields.required,
    List.lookup_cons]

/-- The body of a greeting is tame. -/
theorem Greeting.tame_body (greeting : Greeting) : Tame 4 greeting.body := by
  have repos : Tame 3 (.array (greeting.repos.map ServedRepo.body)) :=
    Json.tame_array ServedRepo.tame_body
  apply Json.tame_record
  simp [repos, Tame.string, Tame.bool, Json.tame_int]

/-- A greeting is read back. -/
theorem Greeting.ofBody?_body (greeting : Greeting)
    : Greeting.ofBody? greeting.body = some greeting := by
  have repos : Json.asList? ServedRepo.ofBody? (.array (greeting.repos.map ServedRepo.body))
      = some greeting.repos :=
    Json.asList?_array fun repo _ => repo.ofBody?_body
  simp [Greeting.ofBody?, Greeting.body, Json.Fields.optional, Json.Fields.required,
    List.lookup_cons, repos]

-----------------------------------------------------------------------------------------
-- Queries
-----------------------------------------------------------------------------------------

namespace Query

/-- What is found of a text is the text, unless it is empty. -/
theorem lookup_unlessEmpty (other name value : String)
    : (unlessEmpty name value).reverse.lookup other
      = if other = name ∧ value ≠ "" then some (.string value) else none := by
  rw [unlessEmpty]
  by_cases empty : value = ""
  · simp [empty]
  · simp [empty, NameMap.lookup_cons_eq]

/-- The limit is found under its name if there is one. -/
theorem lookup_limit (other name : String) (limit : Option UInt32)
    : (limit.map fun limit => (name, Json.nat limit.toNat)).toList.reverse.lookup other
      = if other = name then limit.map fun limit => Json.nat limit.toNat else none := by
  cases limit with
  | none => simp
  | some limit => simp [NameMap.lookup_cons_eq]

/-- A field that is there is read. -/
theorem optional_found {α : Type} {fields : Json.Fields Json} {name : String} {missing back : α}
    {read : Json → Option α} {value : Json} (found : fields.lookup name = some value)
    (same : read value = some back)
    : fields.optional name missing read = some back := by
  rw [Json.Fields.optional, found]
  exact same

/-- A text that was left out is read as the empty one. -/
theorem optional_text {fields : Json.Fields Json} {name value : String}
    (found : fields.lookup name = if value = "" then none else some (.string value))
    : fields.optional name "" Json.asString? = some value := by
  rw [Json.Fields.optional, found]
  by_cases empty : value = ""
  · rw [if_pos empty, empty]
  · rw [if_neg empty]
    rfl

/-- A limit that was left out is read as none. -/
theorem optional_limit {fields : Json.Fields Json} {name : String} {limit : Option UInt32}
    (found : fields.lookup name = limit.map fun limit => Json.nat limit.toNat)
    : fields.optional name none (Json.asOption? Json.asUInt32?) = some limit := by
  rw [Json.Fields.optional, found]
  cases limit with
  | none => rfl
  | some limit =>
      have read : Json.asOption? Json.asUInt32? (Json.nat limit.toNat)
          = (Json.asUInt32? (Json.nat limit.toNat)).map some := rfl
      simp [read]

/-- A query is read from fields in which its members are found. -/
theorem ofFields?_eq_some {fields : Json.Fields Json} (query : Query)
    (found : ∀ name ∈ fieldNames, fields.lookup name = query.members.reverse.lookup name)
    : ofFields? fields = some query := by
  simp only [fieldNames, List.mem_cons, List.not_mem_nil, or_false, forall_eq_or_imp, forall_eq,
    members, List.reverse_append, List.lookup_append, lookup_unlessEmpty, lookup_limit] at found
  simp [List.lookup_cons] at found
  obtain ⟨line, file, notFile, repo, notRepo, tags, notTags, foldCase, maxMatches⟩ := found
  simp [ofFields?, optional_found line, optional_found file, optional_text notFile,
    optional_found repo, optional_text notRepo, optional_text tags, optional_text notTags,
    optional_found foldCase, optional_limit maxMatches]

/-- A text that may be left out is tame. -/
theorem tame_unlessEmpty {name value : String}
    : ∀ member ∈ unlessEmpty name value, Tame 0 member.2 := by
  intro member present
  rw [unlessEmpty] at present
  split at present
  · cases present
  · rw [List.mem_singleton.mp present]
    exact .string value

/-- A limit that may be left out is tame. -/
theorem tame_limit {name : String} (limit : Option UInt32)
    : ∀ member ∈ (limit.map fun limit => (name, Json.nat limit.toNat)).toList,
        Tame 0 member.2 := by
  intro member present
  cases limit with
  | none => cases present
  | some limit =>
      have small : limit.toNat < UInt64.size := Nat.lt_trans limit.toNat_lt (by decide)
      rw [List.mem_singleton.mp present]
      exact Json.tame_nat small

/-- The members of a query are tame. -/
theorem tame_member (query : Query) : ∀ member ∈ query.members, Tame 0 member.2 := by
  intro member present
  simp only [members, List.mem_append, List.mem_cons, List.not_mem_nil, or_false,
    or_assoc] at present
  rcases present with rfl | rfl | part | rfl | part | part | part | rfl | part
  · exact .string query.line
  · exact .string query.file
  · exact tame_unlessEmpty member part
  · exact .string query.repo
  · exact tame_unlessEmpty member part
  · exact tame_unlessEmpty member part
  · exact tame_unlessEmpty member part
  · exact .bool query.foldCase
  · exact tame_limit query.maxMatches member part

/-- The body of a query is tame. -/
theorem tame_body (query : Query) : Tame 1 query.body :=
  Json.tame_record query.tame_member

/-- A query is read back. -/
theorem ofBody?_body (query : Query) : Query.ofBody? query.body = some query := by
  have read : ofFields? (Json.recordFields query.members) = some query :=
    query.ofFields?_eq_some fun name _ => Json.lookup_recordFields name query.members
  rw [Query.ofBody?, Query.body, Json.fields?_record]
  exact read

end Query

-----------------------------------------------------------------------------------------
-- Bodies of the browser protocol
-----------------------------------------------------------------------------------------

/-- The body of a search request is tame. -/
theorem SearchRequest.tame_body (request : SearchRequest) : Tame 1 request.body := by
  apply Json.tame_record
  intro member present
  simp only [List.mem_append, List.mem_cons, List.not_mem_nil, or_false, or_assoc] at present
  rcases present with rfl | rfl | inside
  · exact Json.tame_nat request.id.toNat_lt
  · exact .string request.backend
  · exact request.query.tame_member member inside

/-- The names of a query's members. -/
theorem Query.lookup_members_none {name : String} (other : name ∉ fieldNames) (query : Query)
    : query.members.reverse.lookup name = none := by
  simp only [fieldNames, List.mem_cons, List.not_mem_nil, or_false, not_or] at other
  simp only [members, List.reverse_append, List.lookup_append, lookup_unlessEmpty, lookup_limit]
  simp [NameMap.lookup_cons_eq, other]

/-- The members of the query are found among the others. -/
theorem SearchRequest.ofBody?_body (request : SearchRequest)
    : SearchRequest.ofBody? request.body = some request := by
  have apart : ∀ name ∈ Query.fieldNames, name ≠ "id" ∧ name ≠ "backend" := by decide
  have absent : ∀ name ∈ ["id", "backend"], request.query.members.reverse.lookup name = none := by
    intro name member
    apply Query.lookup_members_none
    revert name
    decide
  have query : Query.ofFields? (Json.recordFields
        (("id", .nat request.id.toNat) :: ("backend", .string request.backend)
          :: request.query.members))
      = some request.query := by
    apply Query.ofFields?_eq_some
    intro name known
    have ⟨notId, notBackend⟩ := apart name known
    simp [List.lookup_append, NameMap.lookup_cons_eq, notId, notBackend]
  simp [SearchRequest.ofBody?, SearchRequest.body, Json.Fields.required, Json.Fields.optional,
    query, absent, List.lookup_append, List.lookup_cons]

-----------------------------------------------------------------------------------------
-- Whole messages
-----------------------------------------------------------------------------------------

/-- How deep the bodies of messages nest at most. -/
def bodyDepth : Nat := 6

/-- The body of each message to and from a backend is tame, by cases on the message. -/
theorem BackendMessage.tame_body (message : BackendMessage) : Tame bodyDepth message.body := by
  cases message with
  | info greeting => exact greeting.tame_body.of_le (by decide)
  | query asked => exact asked.tame_body.of_le (by decide)
  | result found => exact found.tame_body.of_le (by decide)
  | stats timing => exact timing.tame_body.of_le (by decide)
  | error text => exact .string text

/-- The way in which bodies of a message's opcode are read leads back to the message. -/
theorem BackendMessage.exists_decoder (message : BackendMessage)
    : ∃ decoder,
        registry.decoders.lookup message.opcode = some decoder
        ∧ decoder message.body = some message := by
  cases message with
  | info greeting => exact ⟨_, rfl, by simp [body, greeting.ofBody?_body]⟩
  | query asked => exact ⟨_, rfl, by simp [body, asked.ofBody?_body]⟩
  | result found => exact ⟨_, rfl, by simp [body, found.ofBody?_body]⟩
  | stats timing => exact ⟨_, rfl, by simp [body, timing.ofBody?_body]⟩
  | error text => exact ⟨_, rfl, rfl⟩

/-- The body of each message to and from a browser is tame, by cases on the message. -/
theorem BrowserMessage.tame_body (message : BrowserMessage) : Tame bodyDepth message.body := by
  cases message with
  | query request => exact request.tame_body.of_le (by decide)
  | result id found =>
      apply Json.tame_record
      simp [Json.tame_nat id.toNat_lt, found.tame_body]
  | searchDone id time stats =>
      apply Json.tame_record
      simp [Json.tame_nat id.toNat_lt, Json.tame_nat time.toNat_lt,
        stats.tame_body.of_le (show 1 ≤ 5 by decide)]
  | queryError id text =>
      apply Json.tame_record
      simp [Json.tame_nat id.toNat_lt, Tame.string]
  | error text =>
      apply Json.tame_record
      simp [Tame.string]

/-- Each message to and from a browser has a reader that reads its body back, by cases on the
message.
-/
theorem BrowserMessage.exists_decoder (message : BrowserMessage)
    : ∃ decoder,
        registry.decoders.lookup message.opcode = some decoder
        ∧ decoder message.body = some message := by
  cases message with
  | query request => exact ⟨_, rfl, by simp [body, request.ofBody?_body]⟩
  | result id found =>
      refine ⟨_, rfl, ?_⟩
      simp [resultOfBody?, body, Json.Fields.required, List.lookup_cons, found.ofBody?_body]
  | searchDone id time stats =>
      refine ⟨_, rfl, ?_⟩
      simp [searchDoneOfBody?, body, Json.Fields.required, List.lookup_cons, stats.ofBody?_body]
  | queryError id text =>
      refine ⟨_, rfl, ?_⟩
      simp [queryErrorOfBody?, body, Json.Fields.required, List.lookup_cons]
  | error text =>
      refine ⟨_, rfl, ?_⟩
      simp [errorOfBody?, body, Json.Fields.required]

end SourceView
