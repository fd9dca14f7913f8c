/-! Splitting texts at a separator. -/

namespace SourceView.Text

/-- The pieces between the separators, of which there is one more than separators. -/
def split (separator : Char) : List Char → List (List Char)
  | [] => [[]]
  | c :: rest =>
    if c = separator then [] :: split separator rest
    else
      match split separator rest with
      | [] => [[c]]
      | piece :: more => (c :: piece) :: more

/-- What stands before and behind the first separator, if there is one. -/
def splitOnce? (separator : Char) : List Char → Option (List Char × List Char)
  | [] => none
  | c :: rest =>
    if c = separator then some ([], rest)
    else (splitOnce? separator rest).map fun (before, behind) => (c :: before, behind)

/-- There is always a piece. -/
theorem split_ne_nil (separator : Char) (text : List Char)
    : split separator text ≠ [] := by
  cases text with
  | nil => simp [split]
  | cons c rest =>
      unfold split
      split
      · simp
      · split <;> simp

/-- With a separator between them, the pieces are the text that was split. -/
theorem intercalate_split (separator : Char) (text : List Char)
    : [separator].intercalate (split separator text) = text := by
  induction text with
  | nil => rfl
  | cons c rest ih =>
      unfold split
      cases pieces : split separator rest with
      | nil => exact absurd pieces (split_ne_nil separator rest)
      | cons piece more =>
          rw [pieces] at ih
          by_cases h : c = separator
          · simp [h, ← ih, List.intercalate]
          · cases more <;> simp [h, ← ih, List.intercalate]

end SourceView.Text
