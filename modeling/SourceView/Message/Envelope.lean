import SourceView.Json.Record
import SourceView.Text.Blank
import SourceView.Text.Lines
import SourceView.Text.Quoted

/-! Messages in envelopes, one to a line.
An envelope names the kind of its message by an opcode and holds the message's body. A registry
knows how to read the bodies of the opcodes that were registered with it.
-/

namespace SourceView

/-- Why a message could not be read or written. -/
inductive MessageError where
  | unknownOpcode (opcode : String)
  | malformed
  /-- The other end of the connection is gone. -/
  | brokenPipe
  deriving DecidableEq, Repr

/-- The text that tells of a message that could not be read or written. -/
def MessageError.message : MessageError → String
  | unknownOpcode opcode => "unknown opcode: " ++ opcode
  | malformed => "malformed message"
  | brokenPipe => "IO error: broken pipe"

/-- A message's opcode and body. -/
structure Envelope where
  opcode : String
  body : Json := .null

namespace Envelope

/-- An envelope's text, without the end of the line. -/
def render (envelope : Envelope) : String :=
  .ofList ("\x7b\"opcode\":".toList ++ Json.renderString envelope.opcode
    ++ ",\"body\":".toList ++ envelope.body.chars ++ ['}'])

/-- An envelope as it is sent, with the end of the line. -/
def line (envelope : Envelope) : List UInt8 :=
  Text.Utf8.bytes envelope.render ++ [0x0a]

/-- Read an envelope's text. The envelope is one of the arrays and objects that may nest. -/
def read? (text : List UInt8) : Option Envelope := do
  let fields ← (← Json.Written.read? text).fields? ["opcode", "body"]
  let opcode ← fields.required "opcode" fun value =>
    value.value? Json.maxDepth >>= Json.asString?
  let body ← fields.optional "body" .null fun value => value.value? (Json.maxDepth - 1)
  return { opcode, body }

end Envelope

/-- How to read the bodies of messages, by their opcodes. -/
structure Registry (α : Type) where
  decoders : List (String × (Json → Option α)) := []

namespace Registry

variable {α : Type}

/-- Messages of this opcode can be read. -/
def knows (registry : Registry α) (opcode : String) : Bool :=
  (registry.decoders.lookup opcode).isSome

/-- Read the bodies of an opcode in this way from now on. -/
def register (registry : Registry α) (opcode : String) (decoder : Json → Option α)
    : Registry α :=
  ⟨(opcode, decoder) :: registry.decoders⟩

/-- The complaint about an opcode that is registered although it was known. -/
def repetition (opcode : String) : String :=
  "opcode " ++ Text.Quoted.encode opcode ++ " registered twice"

/-- Read one message. -/
def decode (registry : Registry α) (text : List UInt8) : Except MessageError α :=
  match Envelope.read? text with
  | none => .error .malformed
  | some envelope =>
    match registry.decoders.lookup envelope.opcode with
    | none => .error (.unknownOpcode envelope.opcode)
    | some decoder =>
      match decoder envelope.body with
      | none => .error .malformed
      | some message => .ok message

end Registry

/-- A line that holds no message. -/
def isBlankLine (line : List UInt8) : Bool :=
  line.all Text.isBlankByte

namespace Registry

/-- Read every message of a stream that has ended. -/
def decodeAll {α : Type} (registry : Registry α) (stream : List UInt8)
    : List (Except MessageError α) :=
  ((Text.byteLines stream).filter fun line => !isBlankLine line).map registry.decode

end Registry

end SourceView
