import SourceView.Connection.Pipe
import SourceView.Proofs.Connection.Reading
import SourceView.Proofs.Message.Bodies
import SourceView.Proofs.Text.Lines

/-! Streams of messages read back message by message.
Blank lines between the messages are passed over, and of any other line that holds no message only
that line is lost.
-/

namespace SourceView

open Json (Tame EndsNumber)
open Text (ended)
open Text.Utf8 (bytes encode)

-----------------------------------------------------------------------------------------
-- Envelopes
-----------------------------------------------------------------------------------------

namespace Envelope

variable {envelope : Envelope}

/-- The members of an envelope in the order of its text. -/
def members (envelope : Envelope) : List (String × Json) :=
  [("opcode", .string envelope.opcode), ("body", envelope.body)]

/-- An envelope is written as its members between braces. -/
theorem toList_render (envelope : Envelope)
    : envelope.render.toList
      = '\x7b' :: (Json.separate (envelope.members.map Json.memberText) ++ ['\x7d']) := by
  have opcode : Json.renderString "opcode" = "\"opcode\"".toList := by decide
  have body : Json.renderString "body" = "\"body\"".toList := by decide
  have first : "\x7b\"opcode\":".toList = '\x7b' :: ("\"opcode\"".toList ++ [':']) := by decide
  have second : ",\"body\":".toList = ',' :: ("\"body\"".toList ++ [':']) := by decide
  have value : (Json.string envelope.opcode).chars = Json.renderString envelope.opcode := by
    rw [Json.chars]
  refine String.toList_ofList.trans ?_
  rw [first, second]
  simp only [members, List.map_cons, List.map_nil, Json.memberText, opcode, body, value,
    Json.separate, List.append_assoc, List.cons_append, List.nil_append]

/-- The line of an envelope is its members between braces, and the end of the line. -/
theorem line_eq (envelope : Envelope)
    : envelope.line
      = 0x7b :: (encode (Json.separate (envelope.members.map Json.memberText))
        ++ 0x7d :: [0x0a]) := by
  have first : String.utf8EncodeChar '\x7b' = [0x7b] := rfl
  have last : encode ['\x7d'] = [0x7d] := rfl
  rw [line, Text.Utf8.bytes_eq_encode, toList_render, Text.Utf8.encode_cons, first,
    Text.Utf8.encode_append, last]
  simp

/-- An envelope with a tame body is written without a line feed. -/
theorem unbroken_render {depth : Nat} (tame : Tame depth envelope.body)
    : 0x0a ∉ bytes envelope.render := by
  have inside : '\n' ∉ Json.separate (envelope.members.map Json.memberText) := by
    apply Json.feed_not_mem_members
    simp only [members, List.mem_cons, List.not_mem_nil, or_false, forall_eq_or_imp, forall_eq]
    have opcode : Tame depth (.string envelope.opcode) := .string envelope.opcode
    exact ⟨opcode.unbroken, tame.unbroken⟩
  intro feed
  rw [Text.Utf8.bytes_eq_encode] at feed
  have feed : '\n' ∈ envelope.render.toList :=
    (Text.Utf8.mem_encode_iff_of_ascii (by decide)).mp feed
  rw [toList_render] at feed
  simp [inside] at feed

/-- An envelope reads back with its opcode and its body. -/
theorem read?_line (tame : Tame (Json.maxDepth - 1) envelope.body)
    : read? envelope.line = some envelope := by
  obtain ⟨tokens, tree, body⟩ := tame.readable
  have written : Json.MembersWrittenAs (Json.maxDepth - 1) "opcode" (.string envelope.opcode)
      [("body", envelope.body)] _ _ :=
    .cons (Json.writtenAs_string envelope.opcode) (body.member "body")
  have opening : (0x7b, Json.Token.openObject) ∈ Json.punctuation := by decide
  have close : (0x7d, Json.Token.closeObject) ∈ Json.punctuation := by decide
  have nothing : Json.tokens? [0x0a] = some [] := by
    rw [Json.tokens?_blank (by decide), Json.tokens?_nil]
  have taken := written.taken _ (Json.endsNumber_of_punctuation close [0x0a])
  have read := written.read [] [] []
  rw [Json.tokens?_punctuation close, nothing] at taken
  let parts : List (List Json.Mark × Json.Written) := [
    (Json.stringMarks "opcode".toList, .string (Json.stringMarks envelope.opcode.toList)),
    (Json.stringMarks "body".toList, tree)]
  have object : Json.Written.read? envelope.line = some (.object parts) := by
    rw [Json.Written.read?, line_eq, Json.tokens?_punctuation opening, members, taken]
    simp only [Option.map_some, Option.bind_eq_bind, Option.bind_some]
    rw [List.cons_append, List.cons_append, Json.Written.readValue?, read]
    rfl
  have fields : (Json.Written.object parts).fields? ["opcode", "body"]
      = some [("opcode", .string (Json.stringMarks envelope.opcode.toList)), ("body", tree)] := by
    simp only [parts, Json.Written.fields?, List.mapM_cons, List.mapM_nil,
      Json.string?_stringMarks, Option.bind_eq_bind, Option.bind_some, Option.pure_def]
    rfl
  have name : Json.Written.value? Json.maxDepth
      (.string (Json.stringMarks envelope.opcode.toList)) = some (.string envelope.opcode) :=
    (Json.writtenAs_string envelope.opcode).meant
  simp [read?, object, fields, Json.Fields.required, Json.Fields.optional, List.lookup_cons, name,
    body.meant, Json.asString?]

end Envelope

-----------------------------------------------------------------------------------------
-- Reading message by message
-----------------------------------------------------------------------------------------

namespace Registry

variable {α ω : Type}

/-- Reading a stream that has finished gives these results, one for each line that is not blank, and
then the end of the stream.
-/
inductive Reads (registry : Registry α) : List UInt8 → List (Except MessageError α) → Prop
  | ended {stream} (atEnd : Arrival.of .finished stream = .ended) : Reads registry stream []
  | line {stream text rest results} (arrived : Arrival.of .finished stream = .line text rest)
    (more : Reads registry rest results)
    : Reads registry stream (registry.decode text :: results)

/-- The messages of a stream are those of its lines. -/
theorem decodeAll_eq (registry : Registry α) (stream : List UInt8)
    : registry.decodeAll stream = (Arrival.lines .finished stream).map registry.decode := by
  simp [decodeAll, Arrival.lines]

/-- Every stream is read to its end, by induction on what is left of it. -/
theorem reads_decodeAll (registry : Registry α) (stream : List UInt8)
    : registry.Reads stream (registry.decodeAll stream) := by
  induction size : stream.length using Nat.strongRecOn generalizing stream with
  | ind size ih =>
      subst size
      rw [decodeAll_eq]
      rcases Arrival.eq_line_or_arrival .finished stream with ⟨text, rest, arrived⟩ | arrived
      · have more := ih rest.length (Arrival.length_lt arrived) rest rfl
        rw [decodeAll_eq] at more
        have first : Arrival.lines .finished stream = text :: Arrival.lines .finished rest := by
          rcases Arrival.lines_of_line arrived with goesOn | ⟨-, rfl, whole⟩
          · simpa using goesOn .finished []
          · exact whole
        rw [first]
        exact .line arrived more
      · obtain ⟨-, nothing⟩ := Arrival.lines_of_arrival .finished arrived
        rw [nothing]
        exact .ended arrived

-----------------------------------------------------------------------------------------
-- Messages among other lines
-----------------------------------------------------------------------------------------

/-- What stands in a stream, line by line. -/
inductive Item (registry : Registry α) (ω : Type) where
  | message (written : ω)
  | blank (text : List UInt8) (unbroken : 0x0a ∉ text) (empty : isBlankLine text = true)
  /-- A line that holds no message, and what is said of it. -/
  | garbage (text : List UInt8) (cause : MessageError) (unbroken : 0x0a ∉ text)
    (solid : isBlankLine text = false) (undecodable : registry.decode (ended text) = .error cause)

namespace Item

variable {registry : Registry α}

def text (envelope : ω → Envelope) : Item registry ω → List UInt8
  | message written => bytes (envelope written).render
  | blank text _ _ => text
  | garbage text _ _ _ _ => text

/-- What reading an item gives. -/
def results (meaning : ω → α) : Item registry ω → List (Except MessageError α)
  | message written => [.ok (meaning written)]
  | blank _ _ _ => []
  | garbage _ cause _ _ _ => [.error cause]

end Item

variable {registry : Registry α} {envelope : ω → Envelope} {meaning : ω → α}

/-- The items of a stream, each in its own line. -/
def stream (envelope : ω → Envelope) (items : List (Item registry ω)) : List UInt8 :=
  items.flatMap fun item => ended (item.text envelope)

/-- What is written in envelopes of this kind reads back as it was meant. -/
structure Faithful (registry : Registry α) (envelope : ω → Envelope) (meaning : ω → α) : Prop where
  tame : ∀ written, Tame bodyDepth (envelope written).body
  decoded
    : ∀ written, ∃ decoder,
        registry.decoders.lookup (envelope written).opcode = some decoder
        ∧ decoder (envelope written).body = some (meaning written)

/-- The line of a message is read as what the message means. -/
theorem Faithful.decode_line (faithful : registry.Faithful envelope meaning) (written : ω)
    : registry.decode (envelope written).line = .ok (meaning written) := by
  have tame := (faithful.tame written).of_le (show bodyDepth ≤ Json.maxDepth - 1 by decide)
  obtain ⟨decoder, known, read⟩ := faithful.decoded written
  simp only [decode, Envelope.read?_line tame, known, read]

/-- No item of a stream has a line feed in it. -/
theorem Faithful.unbroken_text (faithful : registry.Faithful envelope meaning)
    (item : Item registry ω)
    : 0x0a ∉ item.text envelope := by
  cases item with
  | message written => exact Envelope.unbroken_render (faithful.tame written)
  | blank text unbroken empty => exact unbroken
  | garbage text cause unbroken solid undecodable => exact unbroken

/-- A line is blank with its end if it is blank without. -/
theorem isBlankLine_ended (text : List UInt8) : isBlankLine (ended text) = isBlankLine text := by
  simp [isBlankLine, ended, Text.isBlankByte]

/-- The line of an envelope is not blank. -/
theorem solid_line (envelope : Envelope) : isBlankLine envelope.line = false := by
  rw [Envelope.line_eq]
  rfl

/-- Each item is read by itself. -/
theorem Faithful.results_item (faithful : registry.Faithful envelope meaning)
    (item : Item registry ω)
    : ([ended (item.text envelope)].filter fun line => !isBlankLine line).map registry.decode
      = item.results meaning := by
  cases item with
  | message written =>
      have line : registry.decode (ended (bytes (envelope written).render))
          = .ok (meaning written) :=
        faithful.decode_line written
      have solid : isBlankLine (ended (bytes (envelope written).render)) = false :=
        solid_line (envelope written)
      simp [Item.text, Item.results, solid, line]
  | blank text unbroken empty =>
      simp [Item.text, Item.results, isBlankLine_ended, empty]
  | garbage text cause unbroken solid undecodable =>
      simp [Item.text, Item.results, isBlankLine_ended, solid, undecodable]

/-- Items are read one after the other, by induction on the items. -/
theorem Faithful.decodeAll_stream (faithful : registry.Faithful envelope meaning)
    (items : List (Item registry ω))
    : registry.decodeAll (stream envelope items) = items.flatMap (Item.results meaning) := by
  induction items with
  | nil => rfl
  | cons item items ih =>
      have first := faithful.results_item item
      have cut : Text.byteLines (stream envelope (item :: items))
          = [ended (item.text envelope)] ++ Text.byteLines (stream envelope items) :=
        Text.byteLines_ended_append (faithful.unbroken_text item) _
      rw [decodeAll] at ih ⊢
      rw [cut, List.filter_append, List.map_append, first, ih, List.flatMap_cons]

/-- A stream is read as what its items stand for. -/
theorem Faithful.reads_stream (faithful : registry.Faithful envelope meaning)
    (items : List (Item registry ω))
    : registry.Reads (stream envelope items) (items.flatMap (Item.results meaning)) := by
  rw [← faithful.decodeAll_stream items]
  exact reads_decodeAll registry _

end Registry

-----------------------------------------------------------------------------------------
-- The two protocols
-----------------------------------------------------------------------------------------

/-- Messages of the backend protocol are read as they were written. -/
theorem BackendMessage.faithful : registry.Faithful BackendMessage.envelope id where
  tame := BackendMessage.tame_body
  decoded := BackendMessage.exists_decoder

/-- A client reads a backend's message back from the line that it is written as. -/
theorem BackendMessage.decode_line (message : BackendMessage)
    : decode message.envelope.line = .ok message := by
  rw [decode, faithful.decode_line message]
  rfl

/-- Messages of the browser protocol are read as they were written. -/
theorem BrowserMessage.faithful : registry.Faithful BrowserMessage.envelope id where
  tame := BrowserMessage.tame_body
  decoded := BrowserMessage.exists_decoder

/-- A query that is written by itself is a message of the backend protocol. -/
theorem Query.faithful
    : BackendMessage.registry.Faithful Query.envelope BackendMessage.query where
  tame := fun query => BackendMessage.tame_body (.query query)
  decoded := fun query => BackendMessage.exists_decoder (.query query)

/-- Streams of either protocol, and streams of queries, read back message by message whatever other
lines stand between the messages.
-/
theorem streams_read_back
    : (∀ items : List (BackendMessage.registry.Item BackendMessage),
        BackendMessage.registry.Reads (Registry.stream BackendMessage.envelope items)
          (items.flatMap (Registry.Item.results id)))
      ∧ (∀ items : List (BrowserMessage.registry.Item BrowserMessage),
          BrowserMessage.registry.Reads (Registry.stream BrowserMessage.envelope items)
            (items.flatMap (Registry.Item.results id)))
      ∧ ∀ items : List (BackendMessage.registry.Item Query),
          BackendMessage.registry.Reads (Registry.stream Query.envelope items)
            (items.flatMap (Registry.Item.results BackendMessage.query)) :=
  ⟨BackendMessage.faithful.reads_stream, BrowserMessage.faithful.reads_stream,
    Query.faithful.reads_stream⟩

end SourceView
