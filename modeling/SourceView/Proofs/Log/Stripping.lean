import Mathlib
import SourceView.Proofs.Log.Lines
import SourceView.Proofs.Log.Records

/-! A stripped log tells of the same history as the log that was stripped.
What was read of a line can be told in a line again, and the lines of a stripped log are read one by
one as the records that they were written for.
-/

namespace SourceView.Log

open Text (ended)
open Text.Utf8 (bytes encode)

-----------------------------------------------------------------------------------------
-- Records that are told in a line
-----------------------------------------------------------------------------------------

/-- The record can be told in one line, the end of which may be taken off a path with the end of the
line.
-/
def OnOneLine : LogRecord → Prop
  | .commit hash => hash.toList.length = hashLength ∧ ∀ c ∈ hash.toList, isHexDigit c = true
  | .oldPath path | .newPath path => '\n' ∉ path.toList
  | .hunk hunk => InBounds hunk

/-- The path in a record does not end in a carriage return. -/
def Unreturned : LogRecord → Prop
  | .oldPath path | .newPath path => path.toList.getLast? ≠ some '\r'
  | .commit _ | .hunk _ => True

/-- What is read of the line of a record. A path is read without a carriage return at its end. -/
def reread : LogRecord → LogRecord
  | .oldPath path => .oldPath (.ofList (Text.dropReturn path.toList))
  | .newPath path => .newPath (.ofList (Text.dropReturn path.toList))
  | record => record

/-- What the line of a record says, without its end. -/
def lineText : LogRecord → String
  | .commit hash => "commit " ++ hash
  | .oldPath path => "--- " ++ path
  | .newPath path => "+++ " ++ path
  | .hunk hunk => .ofList (hunkText false false hunk ['-'])

/-- A record is written as one line. -/
theorem render_eq (record : LogRecord) : render record = lineText record ++ "\n" := by
  cases record with
  | commit | oldPath | newPath => rfl
  | hunk hunk =>
      apply String.toList_inj.mp
      simp [render, lineText, hunkText, rangeText, toString]

/-- The bytes of a record are those of its line with its end. -/
theorem bytes_render (record : LogRecord)
    : bytes (render record) = ended (bytes (lineText record)) := by
  have feed : bytes "\n" = [0x0a] := Text.Utf8.bytes_eq_encode _
  rw [render_eq, Text.Utf8.bytes_append, feed, ended]

section Records

variable {record : LogRecord}

/-- A path without a carriage return at its end stays as it is. -/
theorem reread_of_unreturned (unreturned : Unreturned record) : reread record = record := by
  cases record with
  | commit | hunk => rfl
  | oldPath path | newPath path =>
      rw [reread, Text.dropReturn, if_neg unreturned, String.ofList_toList]

/-- A record that stands on one line still does when it is read back. -/
theorem OnOneLine.reread (single : OnOneLine record) : OnOneLine (reread record) := by
  cases record with
  | commit | hunk => exact single
  | oldPath path | newPath path =>
      intro feed
      rw [String.toList_ofList] at feed
      exact single ((dropReturn_prefix_self _).subset feed)

/-- A record that stands on one line has no line feed in it. -/
theorem OnOneLine.unbroken (single : OnOneLine record) : 0x0a ∉ bytes (lineText record) := by
  rw [Text.Utf8.bytes_eq_encode]
  apply unbroken_encode
  cases record with
  | commit hash =>
      rw [lineText, String.toList_append]
      exact (FitsLine.append (by decide) (fitsLine_hash single.2)).1
  | oldPath path | newPath path =>
      rw [lineText, String.toList_append, List.mem_append, not_or]
      exact ⟨by decide, single⟩
  | hunk hunk =>
      rw [lineText, String.toList_ofList]
      exact (fitsLine_hunkText (by decide)).1

/-- The end of a record's line takes a carriage return off a path, and nothing else. -/
theorem OnOneLine.withoutEnd (single : OnOneLine record)
    : withoutEnd (ended (bytes (lineText record))) = bytes (lineText (Log.reread record)) := by
  rw [Text.Utf8.bytes_eq_encode, withoutEnd_ended_encode, Text.Utf8.bytes_eq_encode]
  congr 1
  cases record with
  | commit hash =>
      have fits : FitsLine ("commit " ++ hash).toList := by
        rw [String.toList_append]
        exact FitsLine.append (by decide) (fitsLine_hash single.2)
      exact if_neg fits.2
  | oldPath path | newPath path =>
      rw [lineText, String.toList_append, dropReturn_append (by decide)]
      simp [Log.reread, lineText]
  | hunk hunk =>
      have fits : FitsLine (lineText (.hunk hunk)).toList := by
        rw [lineText, String.toList_ofList]
        exact fitsLine_hunkText (by decide)
      exact if_neg fits.2

/-- A record's line is read as the record, and nothing is passed over behind it. -/
theorem OnOneLine.readLine (single : OnOneLine record) (number : Nat)
    : readLine number (bytes (lineText record)) = .ok (some (record, 0)) := by
  cases record with
  | commit hash =>
      have kept : shortHash hash = hash := by
        rw [shortHash, ← single.1, List.take_length, String.ofList_toList]
      have found : hash? (bytes hash) = some hash := by
        rw [Text.Utf8.bytes_eq_encode, hash?_encode (Nat.le_of_eq single.1.symm) single.2,
          String.ofList_toList, kept]
      rw [lineText, Text.Utf8.bytes_append]
      exact readLine_commit found number
  | oldPath path =>
      rw [lineText, Text.Utf8.bytes_append, readLine_oldPath, Text.Utf8.readable_bytes]
  | newPath path =>
      rw [lineText, Text.Utf8.bytes_append, readLine_newPath, Text.Utf8.readable_bytes]
  | hunk hunk =>
      rw [lineText, Text.Utf8.bytes_eq_encode, String.toList_ofList]
      exact readLine_hunkText single number

/-- What was read of a line can be told in a line. -/
theorem onOneLine_of_readLine {number due : Nat} {line : List UInt8}
    (read : Log.readLine number line = .ok (some (record, due))) (unbroken : 0x0a ∉ line)
    : OnOneLine record := by
  have told := readLine_eq_some read
  have inside : ∀ {start rest}, behind? start line = some rest → 0x0a ∉ rest := by
    intro start rest begins feed
    rw [behind?_eq_some begins] at unbroken
    exact unbroken (List.mem_append_right _ feed)
  cases record with
  | commit hash =>
      obtain ⟨rest, found⟩ := told
      exact hash?_eq_some found
  | oldPath path | newPath path =>
      obtain ⟨rest, begins, rfl⟩ := told
      exact feed_not_mem_readable (inside begins)
  | hunk hunk => exact told

end Records

-----------------------------------------------------------------------------------------
-- The records of a log
-----------------------------------------------------------------------------------------

/-- The record is what the line says, wherever the line stands. -/
def ReadFrom (line : List UInt8) (record : LogRecord) : Prop :=
  ∃ number due, readLine number (withoutEnd line) = .ok (some (record, due))

/-- Every record was read from one of the lines, by induction on the lines. -/
theorem exists_line_of_mem_scanLines {number due : Nat} {lines : List (List UInt8)}
    {record : LogRecord} (member : record ∈ (scanLines number due lines).records.map Prod.snd)
    : ∃ line ∈ lines, ReadFrom line record := by
  induction lines generalizing number due with
  | nil =>
      rw [scanLines] at member
      split at member <;> cases member
  | cons line rest ih =>
      simp only [List.mem_cons, exists_eq_or_imp]
      cases due with
      | succ due => exact .inr (ih member)
      | zero =>
          rw [scanLines] at member
          split at member
          · cases member
          · exact .inr (ih member)
          · next read =>
              rcases List.mem_cons.mp member with rfl | behind
              · exact .inl ⟨_, _, read⟩
              · exact .inr (ih behind)

/-- The lines of records are read one by one, by induction on the records. -/
theorem scanLines_found {records : List LogRecord} (single : ∀ record ∈ records, OnOneLine record)
    (number : Nat)
    : (scanLines number 0 (records.map fun record => ended (bytes (lineText record)))).Found
        (records.map reread) := by
  induction records generalizing number with
  | nil => exact Scan.found_empty
  | cons record rest ih =>
      have first := single record List.mem_cons_self
      have others := ih (fun other member => single other (List.mem_cons_of_mem record member))
      simp only [List.map_cons, scanLines, first.withoutEnd, first.reread.readLine]
      exact (others (number + 1)).cons (number + 1) (reread record)

/-- The lines of a stripped log are those of its records. -/
theorem byteLines_join_render {records : List LogRecord}
    (single : ∀ record ∈ records, OnOneLine record)
    : Text.byteLines (bytes (String.join (records.map render)))
      = records.map fun record => ended (bytes (lineText record)) := by
  have unbroken : ∀ line ∈ records.map fun record => bytes (lineText record), 0x0a ∉ line := by
    intro line member
    obtain ⟨record, present, rfl⟩ := List.mem_map.mp member
    exact (single record present).unbroken
  have lines := Text.byteLines_flatMap_ended unbroken
  have written : bytes (String.join (records.map render))
      = (records.map fun record => bytes (lineText record)).flatMap ended := by
    simp only [Text.Utf8.bytes_join, List.flatMap_map, bytes_render]
  rw [written, lines, List.map_map]
  rfl

/-- A stripped log is read as its records, but for carriage returns at the ends of paths. -/
theorem scan_join_render {records : List LogRecord}
    (single : ∀ record ∈ records, OnOneLine record)
    : (scan (bytes (String.join (records.map render)))).Found (records.map reread) := by
  rw [scan, byteLines_join_render single]
  exact scanLines_found single 0

-----------------------------------------------------------------------------------------
-- The history of a stripped log
-----------------------------------------------------------------------------------------

section Stripping

variable {log : List UInt8}

/-- The records of a log stand on one line each. -/
theorem onOneLine_of_mem_scan (log : List UInt8)
    : ∀ record ∈ (scan log).records.map Prod.snd, OnOneLine record := by
  intro record member
  obtain ⟨line, present, _, _, read⟩ := exists_line_of_mem_scanLines member
  exact onOneLine_of_readLine read (unbroken_withoutEnd present)

/-- The stripped log is written record by record. -/
theorem strip_written (log : List UInt8)
    : (strip log).written = String.join (((scan log).records.map Prod.snd).map render) := by
  rw [strip, List.map_map]
  rfl

/-- The records of a stripped log are those of the log, but for carriage returns at the ends of
paths.
-/
theorem scan_strip (log : List UInt8)
    : (scan (bytes (strip log).written)).Found
        (((scan log).records.map Prod.snd).map reread) := by
  rw [strip_written]
  exact scan_join_render (onOneLine_of_mem_scan log)

/-- Where no path ends as lines do, a log's history is that of the stripped log. -/
theorem ofLog_eq_ok_iff_strip
    (unreturned : ∀ record ∈ (scan log).records.map Prod.snd, Unreturned record)
    (history : History)
    : History.ofLog log = .ok history
      ↔ (strip log).failure = none
        ∧ History.ofLog (bytes (strip log).written) = .ok history := by
  have again := scan_strip log
  rw [List.map_congr_left fun record member => reread_of_unreturned (unreturned record member),
    List.map_id'] at again
  rw [ofLog_eq_ok_iff, ofLog_eq_ok_iff]
  constructor
  · rintro ⟨records, reading, ⟨rfl, complete⟩, followed, same⟩
    exact ⟨complete, _, reading, again, followed, same⟩
  · rintro ⟨complete, records, reading, found, followed, same⟩
    obtain rfl := again.records.symm.trans found.records
    exact ⟨_, reading, ⟨rfl, complete⟩, followed, same⟩

/-- No text behind the words that lead to paths ends in a carriage return, once the ends of lines
are off.
-/
def UnreturnedLines (log : List UInt8) : Prop :=
  ∀ line ∈ Text.byteLines log, ∀ start ∈ ["--- ", "+++ "],
    (behind? start (withoutEnd line)).bind List.getLast? ≠ some 0x0d

instance (log : List UInt8) : Decidable (UnreturnedLines log) :=
  inferInstanceAs (Decidable (∀ line ∈ _, ∀ start ∈ _, _ ≠ _))

/-- What the lines hold is enough, as every path was read from one of them. -/
theorem UnreturnedLines.records (unreturned : UnreturnedLines log)
    : ∀ record ∈ (scan log).records.map Prod.snd, Unreturned record := by
  intro record member
  obtain ⟨line, present, _, _, read⟩ := exists_line_of_mem_scanLines member
  have told := readLine_eq_some read
  cases record with
  | commit | hunk => trivial
  | oldPath path =>
      obtain ⟨rest, begins, rfl⟩ := told
      have last := unreturned line present "--- " (by simp)
      rw [begins] at last
      exact getLast?_readable_ne last
  | newPath path =>
      obtain ⟨rest, begins, rfl⟩ := told
      have last := unreturned line present "+++ " (by simp)
      rw [begins] at last
      exact getLast?_readable_ne last

/-- A log has a history exactly if it can be stripped and has that history when it is stripped. -/
theorem strip_keeps_history (unreturned : UnreturnedLines log) (history : History)
    : History.ofLog log = .ok history
      ↔ (strip log).failure = none
        ∧ History.ofLog (bytes (strip log).written) = .ok history :=
  ofLog_eq_ok_iff_strip unreturned.records history

end Stripping

/-- A commit that replaces a line, with what stands around its records in a full log. -/
def shortLog : List UInt8 :=
  encode "commit 0123456789abcdef\n\n--- a\r\n+++ b\n@@ -3 +3 @@ f\n--- x\n+++ y\n".toList

set_option maxRecDepth 4000 in
/-- The paths that stand among the lines of the file are passed over. -/
theorem scan_shortLog
    : (scan shortLog).Found
        [.commit "0123456789abcdef", .oldPath "a", .newPath "b", .hunk ⟨3, 1, 3, 1⟩] where
  records := by cbv
  complete := by cbv

/-- What is left of the log when it is stripped tells of the same commit. -/
theorem history_of_stripped_shortLog
    : UnreturnedLines shortLog
      ∧ ∃ history,
          History.ofLog shortLog = .ok history
          ∧ history.diffCount = 1
          ∧ (strip shortLog).failure = none
          ∧ History.ofLog (bytes (strip shortLog).written) = .ok history := by
  have unreturned : UnreturnedLines shortLog := by decide +kernel
  obtain ⟨reading, followed, diffs⟩ := Option.map_eq_some_iff.mp
    (show (({} : Reading).follow?
        [.commit "0123456789abcdef", .oldPath "a", .newPath "b", .hunk ⟨3, 1, 3, 1⟩]).map
          (·.history.diffCount) = some 1
      from rfl)
  have told : History.ofLog shortLog = .ok reading.history :=
    ofLog_eq_ok_iff.mpr ⟨_, reading, scan_shortLog, followed, rfl⟩
  have ⟨stripped, again⟩ := (strip_keeps_history unreturned reading.history).mp told
  exact ⟨unreturned, reading.history, told, diffs, stripped, again⟩

end SourceView.Log
