import SourceView.Message.Envelope

/-! The pipe between this program and a backend.
The backend writes lines of messages into it, and this program writes queries. Each side can close
its end at any time, and the connection can break; what was written before can still be read.
-/

namespace SourceView

/-! ### Streams -/

/-- How a stream stands at its end. -/
inductive Flow where
  /-- More can come. -/
  | running
  /-- All has been written. -/
  | finished
  /-- The connection has broken for this cause, and nothing more comes of it. -/
  | broken (cause : String)
  deriving DecidableEq, Repr

/-- The stream comes to its end. One that has come to an end before keeps that. -/
def Flow.or : Flow → Flow → Flow
  | running, later => later
  | finished, _ => finished
  | broken cause, _ => broken cause

@[simp] theorem Flow.running_or (flow : Flow) : running.or flow = flow := rfl

@[simp] theorem Flow.or_running (flow : Flow) : flow.or running = flow := by
  cases flow <;> rfl

/-- Of three ways in which a stream may end the first counts. -/
theorem Flow.or_assoc (flow later last : Flow)
    : (flow.or later).or last = flow.or (later.or last) := by
  cases flow <;> rfl

/-- A stream that has come to an end keeps that. -/
theorem Flow.or_of_ne_running {flow : Flow} (stopped : flow ≠ running) (later : Flow)
    : flow.or later = flow := by
  cases flow with
  | running => exact absurd rfl stopped
  | finished | broken => rfl

/-- What a reader finds at the front of a stream of lines. -/
inductive Arrival where
  /-- A line that is not blank, and what stands behind it. -/
  | line (text rest : List UInt8)
  /-- The next line has not arrived as a whole. -/
  | awaited
  /-- The stream has ended, and nothing but blank lines was left of it. -/
  | ended
  /-- The connection has broken before the next line had arrived as a whole. -/
  | failed (cause : String)
  deriving DecidableEq, Repr

/-- What a reader finds who finds no line. -/
def Flow.arrival : Flow → Arrival
  | running => .awaited
  | finished => .ended
  | broken cause => .failed cause

/-- Look at the front of a stream. The last line of a stream that has finished need not end in a
line feed.
-/
def Arrival.of (flow : Flow) (stream : List UInt8) : Arrival :=
  match (Text.byteLines stream).dropWhile isBlankLine with
  | [] => flow.arrival
  | front :: rest =>
    if flow = .finished || front.getLast? == some 0x0a then .line front rest.flatten
    else flow.arrival

/-- What a reader finds who finds no line tells how the stream stands. -/
theorem Flow.arrival_injective {flow other : Flow} (same : flow.arrival = other.arrival)
    : flow = other := by
  cases flow <;> cases other <;> cases same <;> rfl

/-- No line is found where none is left. -/
theorem Flow.arrival_ne_line {flow : Flow} {text rest : List UInt8}
    : flow.arrival ≠ .line text rest := by
  cases flow <;> exact nofun

/-- A line that arrives makes the stream shorter, by cases on what is left behind the blank lines.
-/
theorem Arrival.length_lt {flow : Flow} {stream text rest : List UInt8}
    (h : Arrival.of flow stream = .line text rest)
    : rest.length < stream.length := by
  unfold Arrival.of at h
  split at h
  · exact absurd h Flow.arrival_ne_line
  · next front more cut =>
      split at h
      · simp only [Arrival.line.injEq] at h
        obtain ⟨rfl, rfl⟩ := h
        have solid : isBlankLine front = false := by
          have first := List.head?_dropWhile_not isBlankLine (Text.byteLines stream)
          rw [cut] at first
          simpa using first
        have nonempty : 0 < front.length := by
          cases front with
          | nil => simp [isBlankLine] at solid
          | cons => simp
        have parts := congrArg List.flatten
          (List.takeWhile_append_dropWhile (p := isBlankLine) (l := Text.byteLines stream))
        rw [Text.flatten_byteLines, cut] at parts
        have lengths := congrArg List.length parts
        simp only [List.flatten_append, List.flatten_cons, List.length_append] at lengths
        omega
      · exact absurd h Flow.arrival_ne_line

/-! ### Pipes -/

/-- A pipe to a backend. -/
structure Pipe where
  /-- What the backend wrote and nobody has read. -/
  inbound : List UInt8 := []
  /-- What this program wrote and the backend has not read. -/
  outbound : List UInt8 := []
  /-- Whether more can come behind that. -/
  flow : Flow := .running
  /-- The backend reads no more. -/
  deserted : Bool := false
  /-- This program has closed its end. -/
  closed : Bool := false
  deriving DecidableEq, Repr

namespace Pipe

/-! ### The backend's end -/

/-- The backend writes, if neither side has closed the pipe and it has not broken. -/
def send? (pipe : Pipe) (bytes : List UInt8) : Option Pipe :=
  if pipe.flow ≠ .running || pipe.closed then none
  else some { pipe with inbound := pipe.inbound ++ bytes }

/-- The backend says that it writes no more. -/
def finish (pipe : Pipe) : Pipe :=
  { pipe with flow := pipe.flow.or .finished }

/-- A pipe to which the backend has written `hello`, and from which it has then hung up or not. -/
def opened (hello : List UInt8) (hangsUp : Bool) : Pipe where
  inbound := hello
  flow := if hangsUp then .finished else .running
  deserted := hangsUp

/-- The backend closes its end. -/
def hangUp (pipe : Pipe) : Pipe :=
  { pipe with flow := pipe.flow.or .finished, deserted := true }

/-- The connection breaks, so that a reader who comes to its end fails. -/
def breakOff (pipe : Pipe) (cause : String) : Pipe :=
  { pipe with flow := pipe.flow.or (.broken cause) }

/-- The backend reads everything that was written to it. -/
def collect (pipe : Pipe) : List UInt8 × Pipe :=
  (pipe.outbound, { pipe with outbound := [] })

/-! ### This program's end -/

/-- Read the next line that is not blank, if it has arrived. -/
def receive (pipe : Pipe) : Arrival × Pipe :=
  match Arrival.of pipe.flow pipe.inbound with
  | .line text rest => (.line text rest, { pipe with inbound := rest })
  | other => (other, pipe)

/-- Write, if the backend still reads. -/
def write? (pipe : Pipe) (bytes : List UInt8) : Option Pipe :=
  if pipe.deserted then none else some { pipe with outbound := pipe.outbound ++ bytes }

/-- Close this program's end. -/
def close (pipe : Pipe) : Pipe :=
  { pipe with closed := true }

/-- Reading a line leaves less to read. -/
theorem length_receive_lt {pipe : Pipe} {text rest : List UInt8}
    (h : pipe.receive.1 = .line text rest)
    : pipe.receive.2.inbound.length < pipe.inbound.length := by
  unfold receive at h ⊢
  split at h
  · next line behind found =>
      cases h
      exact Arrival.length_lt found
  · next other => exact absurd h (other text rest)

end Pipe

end SourceView
