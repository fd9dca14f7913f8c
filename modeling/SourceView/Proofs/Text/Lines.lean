import SourceView.Proofs.Text.Utf8
import SourceView.Text.Lines

/-! Lines that are put together are the lines that come of cutting them. A text has no more lines
than bytes.
-/

namespace SourceView.Text

/-- A line with the line feed that ends it. -/
def ended (line : List UInt8) : List UInt8 :=
  line ++ [0x0a]

/-- A line without a line feed is cut off at the line feed behind it, by induction on the line. -/
theorem byteLines_ended_append {line : List UInt8} (unbroken : 0x0a ∉ line) (rest : List UInt8)
    : byteLines (ended line ++ rest) = ended line :: byteLines rest := by
  induction line with
  | nil => exact if_pos rfl
  | cons b line ih =>
      rw [List.mem_cons, not_or] at unbroken
      have shorter : byteLines (line ++ [0x0a] ++ rest) = ended line :: byteLines rest :=
        ih unbroken.2
      rw [ended, List.cons_append, List.cons_append, byteLines, if_neg (Ne.symm unbroken.1),
        shorter]
      rfl

/-- Lines that end one behind the other are cut as they are, by induction on the lines. -/
theorem byteLines_flatMap_ended {lines : List (List UInt8)}
    (unbroken : ∀ line ∈ lines, 0x0a ∉ line)
    : byteLines (lines.flatMap ended) = lines.map ended := by
  induction lines with
  | nil => rfl
  | cons line rest ih =>
      rw [List.flatMap_cons, byteLines_ended_append (unbroken line List.mem_cons_self),
        ih fun other member => unbroken other (List.mem_cons_of_mem line member)]
      rfl

/-- A line has no line feed but the one that ends it, by induction on the bytes. -/
theorem unbroken_of_mem_byteLines {bytes line : List UInt8} (member : line ∈ byteLines bytes)
    : ∃ text, 0x0a ∉ text ∧ (line = ended text ∨ line = text) := by
  induction bytes generalizing line with
  | nil => cases member
  | cons b bytes ih =>
      rw [byteLines] at member
      split at member
      · next feed =>
          rcases List.mem_cons.mp member with rfl | later
          · exact ⟨[], nofun, .inl (by rw [feed]; rfl)⟩
          · exact ih later
      · next other =>
          have apart : ∀ {text}, 0x0a ∉ text → 0x0a ∉ b :: text := by
            intro text unbroken
            rw [List.mem_cons, not_or]
            exact ⟨Ne.symm other, unbroken⟩
          split at member
          · obtain rfl := List.mem_singleton.mp member
            exact ⟨[b], apart nofun, .inr rfl⟩
          · next first more cut =>
              rw [cut] at ih
              rcases List.mem_cons.mp member with rfl | later
              · obtain ⟨text, unbroken, same⟩ := ih List.mem_cons_self
                refine ⟨b :: text, apart unbroken, ?_⟩
                rcases same with rfl | rfl
                · exact .inl rfl
                · exact .inr rfl
              · exact ih (List.mem_cons_of_mem first later)

/-- Lines that are ended are cut off before whatever comes behind them, by induction on the bytes.
-/
theorem byteLines_append {before : List UInt8} (whole : ∀ b ∈ before.getLast?, b = 0x0a)
    (rest : List UInt8)
    : byteLines (before ++ rest) = byteLines before ++ byteLines rest := by
  induction before with
  | nil => rfl
  | cons b before ih =>
      rw [List.cons_append, byteLines, byteLines]
      cases before with
      | nil =>
          have feed : b = 0x0a := whole b rfl
          rw [if_pos feed, if_pos feed]
          rfl
      | cons c before =>
          have later := ih whole
          rw [later]
          split
          · rfl
          · cases cut : byteLines (c :: before) with
            | nil =>
                have whole := flatten_byteLines (c :: before)
                rw [cut] at whole
                cases whole
            | cons line lines => rfl

/-- What has no line feed is one line, by induction on the bytes. -/
theorem byteLines_of_unbroken {text : List UInt8} (unbroken : 0x0a ∉ text) (nonempty : text ≠ [])
    : byteLines text = [text] := by
  induction text with
  | nil => exact absurd rfl nonempty
  | cons b text ih =>
      rw [List.mem_cons, not_or] at unbroken
      rw [byteLines, if_neg (Ne.symm unbroken.1)]
      cases text with
      | nil => rfl
      | cons c text => rw [ih unbroken.2 nofun]

/-- A text has no more characters than bytes, by induction on the text. -/
theorem length_le_length_encode (text : List Char) : text.length ≤ (Utf8.encode text).length := by
  induction text with
  | nil => exact Nat.le_refl 0
  | cons c rest ih =>
      have positive := c.utf8Size_pos
      rw [Utf8.encode_cons, List.length_append, String.length_utf8EncodeChar, List.length_cons]
      omega

/-- Every line takes a character, by induction on those that are still to be read. -/
theorem length_linesFrom_le (line text : List Char)
    : (linesFrom line text).length ≤ line.length + text.length := by
  fun_induction linesFrom line text with
  | case1 line empty => exact Nat.zero_le _
  | case2 line begun =>
      exact List.length_pos_iff.mpr (List.isEmpty_eq_false_iff.mp (Bool.eq_false_iff.mpr begun))
  | case3 line rest ih =>
      rw [List.length_cons, List.length_cons]
      simp only [List.length_nil] at ih
      omega
  | case4 line c rest other ih =>
      rw [List.length_cons] at ih ⊢
      omega

/-- A text has no more lines than bytes. -/
theorem length_lines_le (text : String) : (lines text).length ≤ (Utf8.bytes text).length := by
  have few := length_linesFrom_le [] text.toList
  have bytes := length_le_length_encode text.toList
  rw [lines, List.length_map, Utf8.bytes_eq_encode]
  simp only [List.length_nil] at few
  omega

end SourceView.Text
