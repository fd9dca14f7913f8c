import SourceView.Connection.Client

/-! Reading a pipe line by line.
The lines of a stream are read in order, each of them once and as a whole, however the stream was
cut when it arrived.
-/

namespace SourceView

-----------------------------------------------------------------------------------------
-- The first line of a stream
-----------------------------------------------------------------------------------------

namespace Text

/-- What comes behind a line feed does not change the line before it, by induction on the stream.
-/
theorem cutLine?_append {stream line rest : List UInt8} (cut : cutLine? stream = some (line, rest))
    (more : List UInt8)
    : cutLine? (stream ++ more) = some (line, rest ++ more) := by
  induction stream generalizing line with
  | nil => cases cut
  | cons b stream ih =>
      rw [cutLine?] at cut
      rw [List.cons_append, cutLine?]
      split at cut
      · next feed =>
          cases cut
          rw [if_pos feed]
      · next other =>
          obtain ⟨⟨line, rest⟩, found, same⟩ := Option.map_eq_some_iff.mp cut
          cases same
          rw [if_neg other, ih found]
          rfl

/-- The line that is cut off is the first one, by induction on the stream. -/
theorem byteLines_of_cutLine? {stream line rest : List UInt8}
    (cut : cutLine? stream = some (line, rest))
    : byteLines stream = line :: byteLines rest
      ∧ line.getLast? = some 0x0a
      ∧ rest.length < stream.length := by
  induction stream generalizing line with
  | nil => cases cut
  | cons b stream ih =>
      rw [cutLine?] at cut
      rw [byteLines]
      split at cut
      · next feed =>
          cases cut
          rw [if_pos feed]
          exact ⟨rfl, by rw [feed]; rfl, by simp⟩
      · next other =>
          obtain ⟨⟨line, rest⟩, found, same⟩ := Option.map_eq_some_iff.mp cut
          cases same
          obtain ⟨lines, last, shorter⟩ := ih found
          rw [if_neg other, lines]
          refine ⟨rfl, ?_, Nat.lt_succ_of_lt shorter⟩
          rw [List.getLast?_cons, last]
          rfl

/-- A stream without a line feed is one line, by induction on the stream. -/
theorem byteLines_of_uncut {stream : List UInt8} (uncut : cutLine? stream = none)
    : byteLines stream = (if stream = [] then [] else [stream])
      ∧ stream.getLast? ≠ some 0x0a := by
  induction stream with
  | nil => exact ⟨rfl, nofun⟩
  | cons b stream ih =>
      rw [cutLine?] at uncut
      split at uncut
      · cases uncut
      · next other =>
          obtain ⟨lines, last⟩ := ih (Option.map_eq_none_iff.mp uncut)
          rw [byteLines, if_neg other, lines]
          cases stream with
          | nil => simpa using other
          | cons c stream => exact ⟨rfl, by simpa [List.getLast?_cons_cons] using last⟩

end Text

-----------------------------------------------------------------------------------------
-- The lines of a stream
-----------------------------------------------------------------------------------------

namespace Arrival

/-- The lines that have arrived as a whole, without those that are blank. -/
def lines (flow : Flow) (stream : List UInt8) : List (List UInt8) :=
  (Text.byteLines stream).filter fun line =>
    !isBlankLine line && (flow = .finished || line.getLast? == some 0x0a)

variable {flow : Flow} {stream line text rest : List UInt8}

@[simp] theorem lines_nil (flow : Flow) : lines flow [] = [] := rfl

/-- What arrives is a line, or tells how the stream stands at its end. -/
theorem eq_line_or_arrival (flow : Flow) (stream : List UInt8)
    : (∃ text rest, of flow stream = .line text rest) ∨ of flow stream = flow.arrival := by
  unfold of
  split
  · exact .inr rfl
  · split
    · exact .inl ⟨_, _, rfl⟩
    · exact .inr rfl

/-- A blank line in front is not counted. -/
theorem lines_of_blank (cut : Text.cutLine? stream = some (line, rest))
    (blank : isBlankLine line = true)
    : lines flow stream = lines flow rest := by
  obtain ⟨cut, -, -⟩ := Text.byteLines_of_cutLine? cut
  rw [lines, cut, List.filter_cons_of_neg (by simp [blank]), lines]

/-- A line in front that is not blank is the first one. -/
theorem lines_of_solid (cut : Text.cutLine? stream = some (line, rest))
    (solid : isBlankLine line = false)
    : lines flow stream = line :: lines flow rest := by
  obtain ⟨cut, last, -⟩ := Text.byteLines_of_cutLine? cut
  rw [lines, cut, List.filter_cons_of_pos (by simp [solid, last]), lines]

/-- A blank line in front is passed. -/
theorem of_blank (cut : Text.cutLine? stream = some (line, rest))
    (blank : isBlankLine line = true)
    : of flow stream = of flow rest := by
  obtain ⟨cut, -, -⟩ := Text.byteLines_of_cutLine? cut
  rw [of, cut, List.dropWhile_cons_of_pos blank, of]

/-- A line in front that is not blank arrives, however the stream stands at its end. -/
theorem of_solid (cut : Text.cutLine? stream = some (line, rest))
    (solid : isBlankLine line = false)
    : of flow stream = .line line rest := by
  obtain ⟨cut, last, -⟩ := Text.byteLines_of_cutLine? cut
  rw [of, cut, List.dropWhile_cons_of_neg (by simp [solid])]
  simp [last, Text.flatten_byteLines]

/-- Without a line feed there is one line, if the stream has finished and is not blank. -/
theorem of_uncut (flow : Flow) (uncut : Text.cutLine? stream = none)
    : lines flow stream = [] ∧ of flow stream = flow.arrival
      ∨ flow = .finished
        ∧ lines .finished stream = [stream]
        ∧ of .finished stream = .line stream [] := by
  obtain ⟨cut, last⟩ := Text.byteLines_of_uncut uncut
  by_cases empty : stream = []
  · subst empty
    exact .inl ⟨rfl, rfl⟩
  rw [if_neg empty] at cut
  cases blank : isBlankLine stream with
  | true =>
      refine .inl ⟨by simp [lines, cut, blank], ?_⟩
      rw [of, cut, List.dropWhile_cons_of_pos blank]
      rfl
  | false =>
      have solid : ¬ isBlankLine stream = true := by simp [blank]
      by_cases finished : flow = .finished
      · exact .inr ⟨finished, by simp [lines, cut, blank], by simp [of, cut, solid]⟩
      · exact .inl ⟨by simp [lines, cut, last, finished], by simp [of, cut, solid, last, finished]⟩

/-- What arrives is the first line, by induction on the stream line by line. Either more can come
behind the rest of the stream, or that was all.
-/
theorem lines_of_line (arrived : of flow stream = .line text rest)
    : (∀ later more, lines later (stream ++ more) = text :: lines later (rest ++ more))
      ∨ flow = .finished ∧ rest = [] ∧ lines .finished stream = [text] := by
  induction size : stream.length using Nat.strongRecOn generalizing stream with
  | ind size ih =>
      subst size
      cases cut : Text.cutLine? stream with
      | none =>
          -- A line without a line feed is only taken when the stream has finished
          rcases of_uncut flow cut with ⟨-, nothing⟩ | ⟨rfl, whole, same⟩
          · exact absurd (nothing.symm.trans arrived) Flow.arrival_ne_line
          · rw [arrived] at same
            cases same
            exact .inr ⟨rfl, rfl, whole⟩
      | some parts =>
          obtain ⟨line, behind⟩ := parts
          cases blank : isBlankLine line with
          | true =>
              rw [of_blank cut blank] at arrived
              obtain ⟨-, -, shorter⟩ := Text.byteLines_of_cutLine? cut
              rcases ih _ shorter arrived rfl with goesOn | ⟨done, empty, whole⟩
              · refine .inl fun later more => ?_
                rw [lines_of_blank (Text.cutLine?_append cut more) blank]
                exact goesOn later more
              · exact .inr ⟨done, empty, (lines_of_blank cut blank).trans whole⟩
          | false =>
              rw [of_solid cut blank] at arrived
              cases arrived
              exact .inl fun later more => lines_of_solid (Text.cutLine?_append cut more) blank

/-- If no line arrives there is none, by induction on the stream line by line. -/
theorem lines_eq_nil (arrived : ∀ text rest, of flow stream ≠ .line text rest)
    : lines flow stream = [] := by
  induction size : stream.length using Nat.strongRecOn generalizing stream with
  | ind size ih =>
      subst size
      cases cut : Text.cutLine? stream with
      | none =>
          rcases of_uncut flow cut with ⟨nothing, -⟩ | ⟨rfl, -, same⟩
          · exact nothing
          · exact absurd same (arrived _ _)
      | some parts =>
          obtain ⟨line, behind⟩ := parts
          cases blank : isBlankLine line with
          | true =>
              rw [of_blank cut blank] at arrived
              obtain ⟨-, -, shorter⟩ := Text.byteLines_of_cutLine? cut
              rw [lines_of_blank cut blank]
              exact ih _ shorter arrived rfl
          | false => exact absurd (of_solid cut blank) (arrived _ _)

/-- A reader who finds no line finds how the stream stands at its end. -/
theorem lines_of_arrival (other : Flow) (arrived : of flow stream = other.arrival)
    : flow = other ∧ lines flow stream = [] := by
  have nothing : ∀ text rest, of flow stream ≠ .line text rest :=
    fun _ _ line => Flow.arrival_ne_line (arrived.symm.trans line)
  refine ⟨?_, lines_eq_nil nothing⟩
  rcases eq_line_or_arrival flow stream with ⟨text, rest, line⟩ | same
  · exact absurd line (nothing text rest)
  · exact Flow.arrival_injective (same.symm.trans arrived)

end Arrival

-----------------------------------------------------------------------------------------
-- Pipes that are read
-----------------------------------------------------------------------------------------

namespace Pipe

/-- Of a stream, with whatever comes behind it, the lines in `taken` have been read from a pipe and
the others are left in it.
-/
def HasRead (pipe : Pipe) (stream : List UInt8) (taken : List (List UInt8)) : Prop :=
  (∀ later more,
    Arrival.lines later (stream ++ more)
      = taken ++ Arrival.lines later (pipe.inbound ++ more))
  ∨ pipe.flow = .finished ∧ pipe.inbound = [] ∧ Arrival.lines .finished stream = taken

variable {pipe after : Pipe} {stream text rest bytes : List UInt8} {taken : List (List UInt8)}

/-- Of what stands in a pipe nothing has been read. -/
theorem hasRead_nil (pipe : Pipe) : pipe.HasRead pipe.inbound [] :=
  .inl fun _ _ => rfl

/-- What was read and what is left are all the lines of the stream. -/
theorem HasRead.lines_eq (read : pipe.HasRead stream taken)
    : Arrival.lines pipe.flow stream = taken ++ Arrival.lines pipe.flow pipe.inbound := by
  rcases read with goesOn | ⟨finished, empty, whole⟩
  · simpa using goesOn pipe.flow []
  · rw [finished, empty, whole, Arrival.lines_nil, List.append_nil]

/-- What a backend does to a pipe adds these bytes to what there is to read. -/
def Serves (pipe : Pipe) (bytes : List UInt8) (after : Pipe) : Prop :=
  ∀ stream taken, pipe.HasRead stream taken → after.HasRead (stream ++ bytes) taken

/-- What a backend writes comes behind all that it has written before. -/
theorem send?_serves (sent : pipe.send? bytes = some after) : pipe.Serves bytes after := by
  intro stream taken read
  unfold Pipe.send? at sent
  split at sent
  · cases sent
  · next going =>
      cases sent
      rcases read with all | ⟨finished, -, -⟩
      · refine .inl fun later more => ?_
        rw [List.append_assoc, List.append_assoc]
        exact all later (bytes ++ more)
      · simp [finished] at going

/-- A backend that writes nothing adds nothing. -/
theorem serves_nil (same : after.inbound = pipe.inbound)
    (goesOn : pipe.flow = .finished → after.flow = .finished)
    : pipe.Serves [] after := by
  intro stream taken read
  rw [List.append_nil]
  rcases read with all | ⟨finished, empty, whole⟩
  · exact .inl (same ▸ all)
  · exact .inr ⟨goesOn finished, same.trans empty, whole⟩

/-- A backend that finishes adds nothing. -/
theorem finish_serves (pipe : Pipe) : pipe.Serves [] pipe.finish :=
  serves_nil rfl fun finished => by rw [finish, finished, Flow.or]

/-- A backend that hangs up adds nothing. -/
theorem hangUp_serves (pipe : Pipe) : pipe.Serves [] pipe.hangUp :=
  serves_nil rfl fun finished => by rw [hangUp, finished, Flow.or]

/-- A connection that breaks adds nothing. -/
theorem breakOff_serves (pipe : Pipe) (cause : String) : pipe.Serves [] (pipe.breakOff cause) :=
  serves_nil rfl fun finished => by rw [breakOff, finished, Flow.or]

/-- A backend that reads adds nothing. -/
theorem collect_serves (pipe : Pipe) : pipe.Serves [] pipe.collect.2 :=
  serves_nil rfl id

/-- A line that is received was the next one. -/
theorem HasRead.receive (read : pipe.HasRead stream taken)
    (received : pipe.receive = (.line text rest, after))
    : after.HasRead stream (taken ++ [text]) ∧ after.flow = pipe.flow := by
  unfold Pipe.receive at received
  split at received
  · next arrived =>
      cases received
      refine ⟨?_, rfl⟩
      rcases read with all | ⟨finished, empty, -⟩
      · rcases Arrival.lines_of_line arrived with goesOn | ⟨finished, empty, whole⟩
        · refine .inl fun later more => ?_
          rw [all, goesOn, List.append_assoc]
          rfl
        · refine .inr ⟨finished, empty, ?_⟩
          have lines := all .finished []
          rw [List.append_nil, List.append_nil, whole] at lines
          exact lines
      · -- All lines had been read, and nothing comes behind them
        rw [empty, finished] at arrived
        cases arrived
  · next other => exact absurd (congrArg Prod.fst received) (other text rest)

/-- If no line is received, all of them were read. -/
theorem HasRead.lines_eq_taken (read : pipe.HasRead stream taken)
    (received : ∀ text rest after, pipe.receive ≠ (.line text rest, after))
    : Arrival.lines pipe.flow stream = taken := by
  have nothing : ∀ text rest, Arrival.of pipe.flow pipe.inbound ≠ .line text rest := by
    intro text rest arrived
    apply received text rest { pipe with inbound := rest }
    rw [Pipe.receive, arrived]
  rw [read.lines_eq, Arrival.lines_eq_nil nothing, List.append_nil]

end Pipe

end SourceView
