import SourceView.Proofs.Log.Stripping

/-! What becomes of a stripped log that is stripped again.
Every line of it is read and written again, so that nothing is lost but what the end of a line takes
off a path.
-/

namespace SourceView.Log

open Text (ended)
open Text.Utf8 (bytes encode)

/-- Different texts have different bytes. -/
theorem bytes_inj {first second : String} : bytes first = bytes second ↔ first = second := by
  refine ⟨fun same => ?_, congrArg bytes⟩
  rw [← Text.Utf8.readable_bytes first, same, Text.Utf8.readable_bytes]

/-- A text stays as it is without a carriage return at its end if it does not end in one. -/
theorem dropReturn_eq_self_iff {text : List Char}
    : Text.dropReturn text = text ↔ text.getLast? ≠ some '\r' := by
  rw [Text.dropReturn]
  split
  · next returned =>
      obtain ⟨kept, rfl⟩ := List.getLast?_eq_some_iff.mp returned
      simp
  · next other => exact iff_of_true rfl other

/-- A record is written again as it was exactly if its path does not end as lines do. -/
theorem lineText_reread_eq_iff {record : LogRecord}
    : lineText (reread record) = lineText record ↔ Unreturned record := by
  cases record with
  | commit | hunk => exact iff_of_true rfl trivial
  | oldPath path | newPath path =>
      rw [Unreturned, ← dropReturn_eq_self_iff, reread, lineText, lineText, ← String.toList_inj,
        String.toList_append, String.toList_append, List.append_cancel_left_eq,
        String.toList_ofList]

/-- Two stripped logs are the same exactly if they tell of their records in the same lines. -/
theorem join_render_eq_iff {records others : List LogRecord}
    (single : ∀ record ∈ records, OnOneLine record)
    (singleToo : ∀ record ∈ others, OnOneLine record)
    : String.join (records.map render) = String.join (others.map render)
      ↔ records.map lineText = others.map lineText := by
  constructor
  · intro same
    have lines := congrArg (fun written => Text.byteLines (bytes written)) same
    simp only [byteLines_join_render single, byteLines_join_render singleToo] at lines
    have injective : Function.Injective fun text => ended (bytes text) := by
      intro first second equal
      exact bytes_inj.mp (List.append_cancel_right equal)
    apply List.map_injective_iff.mpr injective
    rw [List.map_map, List.map_map]
    exact lines
  · intro same
    have rendered : render = fun record => lineText record ++ "\n" := funext render_eq
    have mapped := congrArg (List.map (· ++ "\n")) same
    rw [List.map_map, List.map_map] at mapped
    rw [rendered]
    exact congrArg String.join mapped

/-- Stripping twice writes the records as they are read back. -/
theorem written_strip_strip (log : List UInt8)
    : (strip (bytes (strip log).written)).written
      = String.join ((((scan log).records.map Prod.snd).map reread).map render) := by
  rw [strip_written, (scan_strip log).records]

/-- Stripping twice writes the same as stripping once if no path ends in a carriage return. -/
theorem strip_strip_eq_iff {log : List UInt8}
    : (strip (bytes (strip log).written)).written = (strip log).written
      ↔ ∀ record ∈ (scan log).records.map Prod.snd, Unreturned record := by
  have single := onOneLine_of_mem_scan log
  have singleToo
      : ∀ record ∈ ((scan log).records.map Prod.snd).map reread, OnOneLine record := by
    intro record member
    obtain ⟨first, present, rfl⟩ := List.mem_map.mp member
    exact (single first present).reread
  rw [written_strip_strip, strip_written log, join_render_eq_iff singleToo single, List.map_map,
    List.map_inj_left]
  exact forall₂_congr fun record _ => lineText_reread_eq_iff

/-- A stripped log can be stripped again, whatever log it was. This takes one carriage return off
every path that ends in one, and so leaves the stripped log as it is exactly if there is none.
-/
theorem strip_again_drops_returns (log : List UInt8)
    : (strip (bytes (strip log).written)).failure = none
      ∧ (strip (bytes (strip log).written)).written
        = String.join ((((scan log).records.map Prod.snd).map reread).map render)
      ∧ ((strip (bytes (strip log).written)).written = (strip log).written
        ↔ ∀ record ∈ (scan log).records.map Prod.snd, Unreturned record) :=
  ⟨(scan_strip log).complete, written_strip_strip log, strip_strip_eq_iff⟩

/-- The log of a commit with a file whose header ends in two carriage returns. -/
def returnedLog : List UInt8 :=
  encode "commit 0123456789abcdef\n--- a\r\r\n+++ a\r\r\n@@ -3 +3 @@-\n".toList

set_option maxRecDepth 4000 in
/-- A log that can be stripped, and is not written as it is when it is stripped again. -/
theorem exists_strip_again_ne
    : ∃ log,
        (strip log).failure = none
        ∧ (strip log).written
          = "commit 0123456789abcdef\n--- a\r\n+++ a\r\n@@ -3,1 +3,1 @@-\n"
        ∧ (strip (bytes (strip log).written)).written ≠ (strip log).written := by
  have records : (scan returnedLog).records.map Prod.snd
      = [.commit "0123456789abcdef", .oldPath "a\r", .newPath "a\r", .hunk ⟨3, 1, 3, 1⟩] := by
    cbv
  refine ⟨returnedLog, by cbv, ?_, fun same => ?_⟩
  · rw [strip_written, records]
    rfl
  · have unreturned := strip_strip_eq_iff.mp same
    rw [records] at unreturned
    exact absurd rfl (unreturned (.oldPath "a\r") (by simp))

end SourceView.Log
