import Mathlib
import SourceView.Proofs.Log.Lines
import SourceView.Proofs.Log.Records

/-! What stands behind the marks of a hunk's line.
The heading there counts only by a dash at its start, which marks the hunk as bare, and by whether
it is text at all.
-/

namespace SourceView.Log

open Text (ended)
open Text.Utf8 (bytes encode decode?)

-----------------------------------------------------------------------------------------
-- Logs that go on
-----------------------------------------------------------------------------------------

/-- What was read of the rest of a log, behind records that were read before. -/
def Scan.behind (read : List (Nat × LogRecord)) (scan : Scan) : Scan :=
  { scan with records := read ++ scan.records }

/-- What was read first stands in front of what was read behind it. -/
theorem Scan.behind_behind (read more : List (Nat × LogRecord)) (scan : Scan)
    : (scan.behind more).behind read = scan.behind (read ++ more) := by
  simp [behind]

/-- A line that is read leaves some lines due behind it. A line that cannot be read is the last. -/
theorem scanLines_cons (number due : Nat) (line : List UInt8)
    : (∃ read next,
        ∀ rest,
          scanLines number due (line :: rest) = (scanLines (number + 1) next rest).behind read)
      ∨ ∃ cause, ∀ rest, scanLines number due (line :: rest) = { failure := some cause } := by
  cases due with
  | succ due => exact .inl ⟨[], _, fun _ => rfl⟩
  | zero =>
      simp only [scanLines]
      cases readLine (number + 1) (withoutEnd line) with
      | error cause => exact .inr ⟨cause, fun _ => rfl⟩
      | ok said =>
          rcases said with _ | ⟨record, next⟩
          · exact .inl ⟨[], 0, fun _ => rfl⟩
          · exact .inl ⟨[(number + 1, record)], next, fun _ => rfl⟩

/-- Whatever follows these lines is read with `left` lines due. -/
structure LeavesDue (number due : Nat) (front : List (List UInt8)) (left : Nat) : Prop where
  ending : (scanLines number due front).failure = if left = 0 then none else some (.truncated left)
  goesOn
    : ∀ rest,
        scanLines number due (front ++ rest)
        = (scanLines (number + front.length) left rest).behind (scanLines number due front).records

/-- Nothing that follows these lines is read. -/
structure Stops (number due : Nat) (front : List (List UInt8)) : Prop where
  stopped : (scanLines number due front).failure ≠ none
  same : ∀ rest, scanLines number due (front ++ rest) = scanLines number due front

/-- Reading lines leads to some number of lines that are due, unless one of them cannot be read, by
induction on the lines.
-/
theorem leavesDue_or_stops (number due : Nat) (front : List (List UInt8))
    : (∃ left, LeavesDue number due front left) ∨ Stops number due front := by
  induction front generalizing number due with
  | nil =>
      have empty : (scanLines number due []).records = [] := by
        rw [scanLines]
        split <;> rfl
      refine .inl ⟨due, ?_, fun rest => by rw [empty]; rfl⟩
      rw [scanLines]
      split <;> rfl
  | cons line front ih =>
      rcases scanLines_cons number due line with ⟨read, next, step⟩ | ⟨cause, cut⟩
      · rcases ih (number + 1) next with ⟨left, leaves⟩ | stops
        · refine .inl ⟨left, ?_, fun rest => ?_⟩
          · rw [step]
            exact leaves.ending
          · rw [List.cons_append, step, step, leaves.goesOn, Scan.behind_behind, List.length_cons,
              Nat.add_assoc, Nat.add_comm 1]
            rfl
        · refine .inr ⟨?_, fun rest => ?_⟩
          · rw [step]
            exact stops.stopped
          · rw [List.cons_append, step, step, stops.same]
      · refine .inr ⟨?_, fun rest => ?_⟩
        · rw [cut]
          nofun
        · rw [List.cons_append, cut, cut]

-----------------------------------------------------------------------------------------
-- Lines that say the same
-----------------------------------------------------------------------------------------

/-- The two scans have found the same, and either both or neither of them has failed. -/
structure Scan.Alike (scan other : Scan) : Prop where
  records : scan.records = other.records
  complete : scan.failure = none ↔ other.failure = none

/-- A scan is alike to itself. -/
theorem Scan.Alike.rfl {scan : Scan} : scan.Alike scan :=
  ⟨Eq.refl _, Iff.rfl⟩

/-- Scans that are alike stay so behind the same records. -/
theorem Scan.Alike.behind {scan other : Scan} (alike : scan.Alike other)
    (read : List (Nat × LogRecord))
    : (scan.behind read).Alike (other.behind read) :=
  ⟨congrArg (read ++ ·) alike.records, alike.complete⟩

section Alike

variable {line other : List UInt8}

/-- Two lines that say the same where lines are read that count are read alike. -/
theorem scanLines_cons_alike {number : Nat}
    (said
      : (readLine (number + 1) (withoutEnd line)).toOption
        = (readLine (number + 1) (withoutEnd other)).toOption)
    (rest : List (List UInt8))
    : (scanLines number 0 (line :: rest)).Alike (scanLines number 0 (other :: rest)) := by
  simp only [scanLines]
  rcases first : readLine (number + 1) (withoutEnd line) with cause | found
  · rcases second : readLine (number + 1) (withoutEnd other) with otherCause | found
    · exact ⟨rfl, by simp⟩
    · rw [first, second] at said
      cases said
  · rcases second : readLine (number + 1) (withoutEnd other) with cause | otherFound
    · rw [first, second] at said
      cases said
    · rw [first, second] at said
      obtain rfl := Option.some.inj said
      exact .rfl

/-- Logs that differ in one line are read alike if the lines say the same. They need not if they
stand among the lines that are passed over, or behind one that cannot be read.
-/
theorem scanLines_alike {number due : Nat} {front : List (List UInt8)}
    (unmarked : (withoutEnd line).head? ≠ some 0x5c)
    (unmarkedToo : (withoutEnd other).head? ≠ some 0x5c)
    (said
      : (scanLines number due front).failure = none
        → ∀ number,
            (readLine number (withoutEnd line)).toOption
            = (readLine number (withoutEnd other)).toOption)
    (rest : List (List UInt8))
    : (scanLines number due (front ++ line :: rest)).Alike
        (scanLines number due (front ++ other :: rest)) := by
  rcases leavesDue_or_stops number due front with ⟨left, leaves⟩ | stops
  · rw [leaves.goesOn, leaves.goesOn]
    apply Scan.Alike.behind
    cases left with
    | zero => exact scanLines_cons_alike (said leaves.ending _) rest
    | succ left =>
        simp only [scanLines, if_neg unmarked, if_neg unmarkedToo]
        exact .rfl
  · rw [stops.same, stops.same]
    exact .rfl

end Alike

section Logs

variable {log other : List UInt8}

/-- Logs that are read alike tell of the same history, if of any. -/
theorem ofLog_eq_ok_iff_of_alike (alike : (scan log).Alike (scan other)) (history : History)
    : History.ofLog log = .ok history ↔ History.ofLog other = .ok history := by
  simp only [History.ofLog, alike.records]
  split
  · rfl
  · rcases first : (scan log).failure with _ | cause
    · rw [alike.complete.mp first]
    · have failed : (scan other).failure ≠ none := by
        intro complete
        cases first.symm.trans (alike.complete.mpr complete)
      obtain ⟨otherCause, second⟩ := Option.ne_none_iff_exists'.mp failed
      rw [second]
      simp

/-- Scans that are alike strip their logs alike. -/
theorem strip_of_alike (alike : (scan log).Alike (scan other))
    : (strip log).written = (strip other).written
      ∧ ((strip log).failure = none ↔ (strip other).failure = none) := by
  refine ⟨?_, alike.complete⟩
  simp only [strip, alike.records]

end Logs

-----------------------------------------------------------------------------------------
-- The lines of hunks
-----------------------------------------------------------------------------------------

/-- The line of a hunk up to the marks behind its ranges. -/
def markedText (old new : List Char) : List Char :=
  "@@ -".toList ++ (old ++ ' ' :: '+' :: (new ++ [' ', '@', '@']))

/-- A text that stands for a range in the line of a hunk: it ends neither itself nor the line. -/
def Undivided (range : List Char) : Prop :=
  ' ' ∉ range ∧ '\n' ∉ range

/-- What two headings have in common if they mean the same: both of them or neither begins with a
dash, and both of them or neither is text.
-/
structure MeanSame (heading other : List UInt8) : Prop where
  mark : heading.head? = some 0x2d ↔ other.head? = some 0x2d
  text : (decode? heading).isSome = (decode? other).isSome

/-- Headings that mean the same do so in either order. -/
theorem MeanSame.symm {heading other : List UInt8} (same : MeanSame heading other)
    : MeanSame other heading :=
  ⟨same.mark.symm, same.text.symm⟩

/-- Headings that mean the same as a third one mean the same. -/
theorem MeanSame.trans {heading other third : List UInt8} (same : MeanSame heading other)
    (sameToo : MeanSame other third)
    : MeanSame heading third :=
  ⟨same.mark.trans sameToo.mark, same.text.trans sameToo.text⟩

section Hunks

variable {old new : List Char} {heading other : List UInt8}

/-- A hunk's line is read from its ranges, and from what the heading means. -/
theorem hunk?_congr (oldRange : Undivided old) (newRange : Undivided new)
    (same : MeanSame heading other)
    : hunk? (encode (markedText old new) ++ heading)
      = hunk? (encode (markedText old new) ++ other) := by
  rcases first : decode? heading with _ | text
  · have second : decode? other = none := by simpa [first] using same.text
    simp [hunk?, Text.Utf8.decode?_encode_append, first, second]
  · obtain ⟨otherText, second⟩ : ∃ otherText, decode? other = some otherText :=
      Option.isSome_iff_exists.mp (by simp [← same.text, first])
    have dash : ∀ {bytes : List UInt8} {text : List Char}, decode? bytes = some text
        → (text.head? = some '-' ↔ bytes.head? = some 0x2d) :=
      fun read => Text.Utf8.head?_decode? (c := '-') (by decide) (by decide) read
    have alike : text.head? = some '-' ↔ otherText.head? = some '-' :=
      (dash first).trans (same.mark.trans (dash second).symm)
    simp [hunk?, markedText, Text.Utf8.decode?_encode_append, first, second, behindChars?,
      Text.splitOnce?_append oldRange.1, Text.splitOnce?_append newRange.1, alike]

/-- What a hunk's line says is what is read of the hunk. -/
theorem toOption_readLine_hunk (number : Nat) (rest : List UInt8)
    : (readLine number (bytes "@@ " ++ rest)).toOption
      = (hunk? (bytes "@@ " ++ rest)).map fun (hunk, bare) =>
        some (.hunk hunk, if bare then 0 else hunk.oldLength + hunk.newLength) := by
  rcases found : hunk? (bytes "@@ " ++ rest) with _ | ⟨hunk, bare⟩
  · have first : (bytes "@@ " ++ rest).head? = some 0x40 := by rw [bytes_hunk]; rfl
    rw [readLine, behind?_eq_none (by rw [bytes_commit]; rfl) (by rw [first]; decide),
      behind?_eq_none (by rw [bytes_oldPath]; rfl) (by rw [first]; decide),
      behind?_eq_none (by rw [bytes_newPath]; rfl) (by rw [first]; decide), behind?_append]
    simp only [found]
    rfl
  · rw [readLine_hunk found]
    rfl

/-- The line of a hunk begins with its ranges between marks. -/
theorem encode_markedText (old new : List Char)
    : encode (markedText old new)
      = bytes "@@ " ++ encode ('-' :: (old ++ ' ' :: '+' :: (new ++ [' ', '@', '@']))) := by
  rw [Text.Utf8.bytes_eq_encode, ← Text.Utf8.encode_append]
  rfl

/-- The line of a hunk is read alike with headings that mean the same. -/
theorem readLine_marked_congr (oldRange : Undivided old) (newRange : Undivided new)
    (same : MeanSame heading other) (number : Nat)
    : (readLine number (encode (markedText old new) ++ heading)).toOption
      = (readLine number (encode (markedText old new) ++ other)).toOption := by
  have found := hunk?_congr oldRange newRange same
  rw [encode_markedText, List.append_assoc, List.append_assoc] at found ⊢
  rw [toOption_readLine_hunk, toOption_readLine_hunk, found]

/-- The end of a line is taken off behind bytes that are no part of it. -/
theorem withoutEnd_append {first : List UInt8} (unfed : first.getLast? ≠ some 0x0a)
    (unreturned : first.getLast? ≠ some 0x0d) (rest : List UInt8)
    : withoutEnd (first ++ rest) = first ++ withoutEnd rest := by
  have drop : ∀ {b} (rest : List UInt8), first.getLast? ≠ some b
      → (if (first ++ rest).getLast? = some b then (first ++ rest).dropLast else first ++ rest)
        = first ++ if rest.getLast? = some b then rest.dropLast else rest := by
    intro b rest other
    rcases List.eq_nil_or_concat rest with rfl | ⟨front, last, rfl⟩
    · simp [other]
    · rw [List.concat_eq_append, ← List.append_assoc]
      simp only [List.getLast?_concat, List.dropLast_concat]
      split
      · rfl
      · rw [List.append_assoc]
  simp only [withoutEnd]
  rw [drop rest unfed, drop _ unreturned]

/-- A line without a line feed is only rid of a carriage return. -/
theorem withoutEnd_of_unbroken {text : List UInt8} (unbroken : 0x0a ∉ text)
    : withoutEnd text = if text.getLast? = some 0x0d then text.dropLast else text := by
  have unfed : text.getLast? ≠ some 0x0a := fun last => unbroken (List.mem_of_getLast? last)
  simp only [withoutEnd, if_neg unfed]

/-- The end of a line takes nothing from what a heading means. -/
theorem meanSame_withoutEnd (unbroken : 0x0a ∉ heading)
    : MeanSame (withoutEnd heading) heading := by
  rw [withoutEnd_of_unbroken unbroken]
  split
  · next returned =>
      obtain ⟨front, rfl⟩ := List.getLast?_eq_some_iff.mp returned
      rw [List.dropLast_concat]
      refine ⟨?_, (Text.Utf8.isSome_decode?_concat (by decide) front).symm⟩
      cases front with
      | nil => decide
      | cons b front => rfl
  · exact ⟨.rfl, rfl⟩

end Hunks

-----------------------------------------------------------------------------------------
-- Logs with one heading or another
-----------------------------------------------------------------------------------------

/-- A log that has this heading in the line of one of its hunks. -/
def logWith (before behind : List UInt8) (old new : List Char) (heading : List UInt8)
    : List UInt8 :=
  before ++ (encode (markedText old new) ++ heading ++ behind)

section Headings

variable {before behind heading other : List UInt8} {old new : List Char}

/-- The heading stands in one line of the log, and the other lines are the same for all headings. -/
theorem exists_byteLines_logWith (starts : ∀ b ∈ before.getLast?, b = 0x0a)
    (ends : ∀ b ∈ behind.head?, b = 0x0a) (oldRange : Undivided old) (newRange : Undivided new)
    : ∃ rest, ∀ heading, 0x0a ∉ heading →
        ∃ line,
          Text.byteLines (logWith before behind old new heading)
            = Text.byteLines before ++ line :: rest
          ∧ withoutEnd line = encode (markedText old new) ++ withoutEnd heading := by
  have marked : 0x0a ∉ encode (markedText old new) := by
    apply unbroken_encode
    simp [markedText, oldRange.2, newRange.2]
  have last : (encode (markedText old new)).getLast? = some 0x40 := by
    have split : markedText old new
        = "@@ -".toList ++ (old ++ ' ' :: '+' :: (new ++ [' ', '@'])) ++ ['@'] := by
      simp [markedText]
    have sign : encode ['@'] = [0x40] := rfl
    rw [split, Text.Utf8.encode_append, sign, List.getLast?_concat]
  have kept : ∀ heading, withoutEnd (encode (markedText old new) ++ heading)
      = encode (markedText old new) ++ withoutEnd heading :=
    withoutEnd_append (by simp [last]) (by simp [last])
  have inside : ∀ {heading}, 0x0a ∉ heading → 0x0a ∉ encode (markedText old new) ++ heading := by
    intro heading unbroken
    simp [marked, unbroken]
  cases behind with
  | nil =>
      refine ⟨[], fun heading unbroken => ⟨_, ?_, kept heading⟩⟩
      have nonempty : encode (markedText old new) ++ heading ≠ [] := by
        intro empty
        rw [List.append_eq_nil_iff] at empty
        cases (congrArg List.getLast? empty.1).symm.trans last
      rw [logWith, List.append_nil, Text.byteLines_append starts,
        Text.byteLines_of_unbroken (inside unbroken) nonempty]
  | cons b behind =>
      obtain rfl := ends b rfl
      refine ⟨Text.byteLines behind, fun heading unbroken =>
        ⟨ended (encode (markedText old new) ++ heading), ?_, ?_⟩⟩
      · rw [logWith, Text.byteLines_append starts, ← Text.byteLines_ended_append (inside unbroken)]
        simp [ended]
      · rw [← kept, withoutEnd_ended, withoutEnd_of_unbroken (inside unbroken)]

/-- The line of a hunk does not begin with a backslash. -/
theorem head?_marked (old new : List Char) (heading : List UInt8)
    : (encode (markedText old new) ++ heading).head? ≠ some 0x5c := by
  rw [encode_markedText, bytes_hunk]
  simp

/-- Logs with headings that mean the same are read alike. The headings need not mean the same where
the line is not read as that of a hunk.
-/
theorem scan_logWith_alike (starts : ∀ b ∈ before.getLast?, b = 0x0a)
    (ends : ∀ b ∈ behind.head?, b = 0x0a) (oldRange : Undivided old) (newRange : Undivided new)
    (unbroken : 0x0a ∉ heading) (unbrokenToo : 0x0a ∉ other)
    (same : (scan before).failure = none → MeanSame heading other)
    : (scan (logWith before behind old new heading)).Alike
        (scan (logWith before behind old new other)) := by
  obtain ⟨rest, lines⟩ := exists_byteLines_logWith starts ends oldRange newRange
  obtain ⟨line, cut, text⟩ := lines heading unbroken
  obtain ⟨otherLine, otherCut, otherText⟩ := lines other unbrokenToo
  rw [scan, scan, cut, otherCut]
  apply scanLines_alike
  · rw [text]
    exact head?_marked old new _
  · rw [otherText]
    exact head?_marked old new _
  · intro complete number
    rw [text, otherText]
    apply readLine_marked_congr oldRange newRange
    exact (meanSame_withoutEnd unbroken).trans
      ((same complete).trans (meanSame_withoutEnd unbrokenToo).symm)

/-- A heading that is no text stops the reading, where its line is read as that of a hunk. -/
theorem failure_logWith_ne (starts : ∀ b ∈ before.getLast?, b = 0x0a)
    (ends : ∀ b ∈ behind.head?, b = 0x0a) (oldRange : Undivided old) (newRange : Undivided new)
    (unbroken : 0x0a ∉ heading) (complete : (scan before).failure = none)
    (untold : decode? heading = none)
    : (scan (logWith before behind old new heading)).failure ≠ none := by
  obtain ⟨rest, lines⟩ := exists_byteLines_logWith starts ends oldRange newRange
  obtain ⟨line, cut, text⟩ := lines heading unbroken
  have illegible : decode? (withoutEnd heading) = none := by
    simpa [untold] using (meanSame_withoutEnd unbroken).text
  have unread : ∀ number, (readLine number (withoutEnd line)).toOption = none := by
    intro number
    have found : hunk? (encode (markedText old new) ++ withoutEnd heading) = none := by
      simp [hunk?, Text.Utf8.decode?_encode_append, illegible]
    rw [encode_markedText, List.append_assoc] at text found
    rw [text, toOption_readLine_hunk, found]
    rfl
  rw [scan, cut]
  rcases leavesDue_or_stops 0 0 (Text.byteLines before) with ⟨left, leaves⟩ | stops
  · cases left with
    | succ left =>
        rw [scan, leaves.ending] at complete
        cases complete
    | zero =>
        rw [leaves.goesOn, Scan.behind, scanLines]
        dsimp only
        split
        · intro same
          cases same
        all_goals
          next read =>
            have refused := unread (0 + (Text.byteLines before).length + 1)
            rw [read] at refused
            cases refused
  · exact absurd complete stops.stopped

/-- Headings that mean the same make no difference to what a log tells of and to what is left of it
when it is stripped. Where the line is read as that of a hunk, a heading that is no text makes both
fail, and where it is passed over or not reached, the heading does not count at all.
-/
theorem heading_counts_by_meaning (starts : ∀ b ∈ before.getLast?, b = 0x0a)
    (ends : ∀ b ∈ behind.head?, b = 0x0a) (oldRange : Undivided old) (newRange : Undivided new)
    (unbroken : 0x0a ∉ heading) (unbrokenToo : 0x0a ∉ other)
    (same : (scan before).failure = none → MeanSame heading other)
    : (∀ history,
        History.ofLog (logWith before behind old new heading) = .ok history
        ↔ History.ofLog (logWith before behind old new other) = .ok history)
      ∧ (strip (logWith before behind old new heading)).written
        = (strip (logWith before behind old new other)).written
      ∧ ((strip (logWith before behind old new heading)).failure = none
        ↔ (strip (logWith before behind old new other)).failure = none)
      ∧ ((scan before).failure = none
        → decode? heading = none
        → (strip (logWith before behind old new heading)).failure ≠ none
          ∧ ∀ history, History.ofLog (logWith before behind old new heading) ≠ .ok history) := by
  have alike := scan_logWith_alike starts ends oldRange newRange unbroken unbrokenToo same
  obtain ⟨written, failure⟩ := strip_of_alike alike
  refine ⟨ofLog_eq_ok_iff_of_alike alike, written, failure, fun complete untold => ?_⟩
  have failed := failure_logWith_ne starts ends oldRange newRange unbroken complete untold
  refine ⟨failed, fun history told => ?_⟩
  obtain ⟨_, _, found, -⟩ := ofLog_eq_ok_iff.mp told
  exact failed found.complete

end Headings

-----------------------------------------------------------------------------------------
-- Headings that are no text
-----------------------------------------------------------------------------------------

/-- A log up to the line of its hunk. -/
def beforeHunk : List UInt8 :=
  encode "commit 0123456789abcdef\n--- a\n+++ b\n".toList

/-- The lines behind the line of the hunk. -/
def behindHunk : List UInt8 :=
  encode "\n-x\n+y\n".toList

/-- A log whose hunk stands under the name of a function. -/
def headedLog : List UInt8 :=
  logWith beforeHunk behindHunk ['3'] ['3'] (encode " f".toList)

set_option maxRecDepth 4000 in
/-- The lines before the hunk can be read. -/
theorem scan_beforeHunk : (scan beforeHunk).failure = none := by
  cbv

set_option maxRecDepth 4000 in
/-- The log whose hunk has a heading is read as its records. -/
theorem scan_headedLog
    : (scan headedLog).Found
        [.commit "0123456789abcdef", .oldPath "a", .newPath "b", .hunk ⟨3, 1, 3, 1⟩] where
  records := by cbv
  complete := by cbv

/-- The log whose hunk has a heading has a history. -/
theorem exists_history_headedLog : ∃ history, History.ofLog headedLog = .ok history := by
  obtain ⟨reading, followed⟩ := Option.isSome_iff_exists.mp
    (show (({} : Reading).follow?
        [.commit "0123456789abcdef", .oldPath "a", .newPath "b", .hunk ⟨3, 1, 3, 1⟩]).isSome = true
      from rfl)
  exact ⟨_, ofLog_eq_ok_iff.mpr ⟨_, reading, scan_headedLog, followed, rfl⟩⟩

/-- Without a heading the log tells of the same history. -/
theorem heading_of_headedLog
    : MeanSame (encode " f".toList) []
      ∧ ∃ history,
          History.ofLog headedLog = .ok history
          ∧ History.ofLog (logWith beforeHunk behindHunk ['3'] ['3'] []) = .ok history := by
  have same : MeanSame (encode " f".toList) [] := ⟨by decide, by cbv⟩
  have range : Undivided ['3'] := ⟨by decide, by decide⟩
  have starts : ∀ b ∈ beforeHunk.getLast?, b = 0x0a := by decide +kernel
  have ends : ∀ b ∈ behindHunk.head?, b = 0x0a := by decide +kernel
  obtain ⟨history, told⟩ := exists_history_headedLog
  obtain ⟨histories, -⟩ := heading_counts_by_meaning starts ends range range (by decide)
    (by decide) fun _ => same
  exact ⟨same, history, told, (histories history).mp told⟩

/-- Under a name in another encoding the log cannot be read, nor stripped. -/
theorem exists_heading_that_counts
    : ∃ heading : List UInt8,
        heading.head? = some 0x20
        ∧ 0x0a ∉ heading
        ∧ (∃ history, History.ofLog headedLog = .ok history)
        ∧ (strip headedLog).failure = none
        ∧ (∀ history,
          History.ofLog (logWith beforeHunk behindHunk ['3'] ['3'] heading) ≠ .ok history)
        ∧ (strip (logWith beforeHunk behindHunk ['3'] ['3'] heading)).failure ≠ none := by
  have range : Undivided ['3'] := ⟨by decide, by decide⟩
  have failed : (scan (logWith beforeHunk behindHunk ['3'] ['3'] [0x20, 0xe9])).failure ≠ none :=
    failure_logWith_ne (by decide +kernel) (by decide +kernel) range range (by decide)
      scan_beforeHunk (by cbv)
  refine ⟨[0x20, 0xe9], rfl, by decide, exists_history_headedLog, scan_headedLog.complete, ?_,
    failed⟩
  intro history told
  obtain ⟨_, _, found, -⟩ := ofLog_eq_ok_iff.mp told
  exact failed found.complete

end SourceView.Log
