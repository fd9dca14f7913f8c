import Mathlib.Data.List.DropRight
import Mathlib.Data.List.TakeWhile
import SourceView.Text.Blank

/-! What trimming takes from texts, and texts from which it takes nothing. -/

namespace SourceView.Text

/-- The text neither begins nor ends with a blank. -/
structure Tight (text : List Char) : Prop where
  first : ∀ c, text.head? = some c → isBlank c = false
  last : ∀ c, text.getLast? = some c → isBlank c = false

/-- An empty text neither begins nor ends with a blank. -/
theorem tight_nil : Tight [] :=
  ⟨nofun, nofun⟩

/-- Whatever stands between two tight texts, they are tight together. -/
theorem Tight.append {before behind : List Char} (first : Tight before) (last : Tight behind)
    (present : before ≠ []) (more : behind ≠ []) (between : List Char)
    : Tight (before ++ (between ++ behind)) := by
  constructor
  · intro c here
    obtain ⟨start, rest, rfl⟩ := List.exists_cons_of_ne_nil present
    exact first.first c here
  · intro c here
    rw [← List.append_assoc, List.getLast?_append, List.getLast?_eq_some_getLast more] at here
    exact last.last c ((List.getLast?_eq_some_getLast more).trans here)

/-- Texts that are tight and not empty are tight together, whatever separates them. -/
theorem tight_intercalate {separator : List Char} {texts : List (List Char)}
    (each : ∀ text ∈ texts, Tight text ∧ text ≠ [])
    : Tight (separator.intercalate texts)
      ∧ (texts ≠ [] → separator.intercalate texts ≠ []) := by
  induction texts with
  | nil => exact ⟨tight_nil, absurd rfl⟩
  | cons text rest ih =>
      obtain ⟨⟨tight, present⟩, others⟩ := List.forall_mem_cons.mp each
      obtain ⟨tightRest, presentRest⟩ := ih others
      by_cases last : rest = []
      · rw [last, List.intercalate_singleton]
        exact ⟨tight, fun _ => present⟩
      · rw [List.intercalate_cons_of_ne_nil last, List.append_assoc]
        exact ⟨tight.append tightRest present (presentRest last) separator, by simp [present]⟩

/-- Nothing is trimmed off the start of a text that does not begin with a blank. -/
theorem trimStart_eq_self {text : List Char} (solid : ∀ c, text.head? = some c → isBlank c = false)
    : trimStart text = text := by
  cases text with
  | nil => rfl
  | cons c rest => exact List.dropWhile_cons_of_neg (by simp [solid c rfl])

/-- Nothing is trimmed off the end of a text that does not end with a blank. -/
theorem trimEnd_eq_self {text : List Char}
    (solid : ∀ c, text.getLast? = some c → isBlank c = false)
    : trimEnd text = text := by
  rw [trimEnd, trimStart_eq_self (by simpa using solid), List.reverse_reverse]

/-- Nothing is trimmed off a text that neither begins nor ends with a blank. -/
theorem Tight.trim_eq {text : List Char} (tight : Tight text) : trim text = text := by
  rw [trim, trimStart_eq_self tight.first, trimEnd_eq_self tight.last]

/-- A blank at the end of a tight text is trimmed, and nothing else. -/
theorem Tight.trim_append_blank {text : List Char} (tight : Tight text) {c : Char}
    (blank : isBlank c = true)
    : trim (text ++ [c]) = text := by
  cases text with
  | nil => simp [trim, trimEnd, trimStart, blank]
  | cons first rest =>
      rw [trim, trimStart_eq_self (by simpa using tight.first), trimEnd, List.reverse_append]
      have cut : trimStart ([c].reverse ++ (first :: rest).reverse)
          = trimStart (first :: rest).reverse :=
        List.dropWhile_cons_of_pos blank
      rw [cut]
      exact trimEnd_eq_self tight.last

-----------------------------------------------------------------------------------------
-- What trimming takes
-----------------------------------------------------------------------------------------

/-- Blanks at the end are trimmed off. -/
theorem trimEnd_append_blanks {blanks : List Char} (blank : ∀ c ∈ blanks, isBlank c = true)
    (text : List Char)
    : trimEnd (text ++ blanks) = trimEnd text := by
  rw [trimEnd, trimEnd, trimStart, trimStart, List.reverse_append, List.dropWhile_append_of_pos]
  exact fun c member => blank c (List.mem_reverse.mp member)

/-- A text that is not all blank keeps what stands behind it when its start is trimmed. -/
theorem trimStart_append_of_ne_nil {text : List Char} (present : trimStart text ≠ [])
    (rest : List Char)
    : trimStart (text ++ rest) = trimStart text ++ rest := by
  rw [trimStart, List.dropWhile_append, if_neg (by simpa [trimStart] using present)]
  rfl

/-- Trimming the start leaves nothing of a blank text, and of no other. -/
theorem trimStart_eq_nil_iff {text : List Char}
    : trimStart text = [] ↔ ∀ c ∈ text, isBlank c = true :=
  List.dropWhile_eq_nil_iff

/-- Blanks at the end do not change what trimming leaves. -/
theorem trim_append_blanks {blanks : List Char} (blank : ∀ c ∈ blanks, isBlank c = true)
    (text : List Char)
    : trim (text ++ blanks) = trim text := by
  by_cases empty : trimStart text = []
  · have all : ∀ c ∈ text ++ blanks, isBlank c = true :=
      List.forall_mem_append.mpr ⟨trimStart_eq_nil_iff.mp empty, blank⟩
    rw [trim, trim, empty, trimStart_eq_nil_iff.mpr all]
  · rw [trim, trim, trimStart_append_of_ne_nil empty, trimEnd_append_blanks blank]

/-- Only blanks are trimmed off the start. -/
theorem exists_eq_append_trimStart (text : List Char)
    : ∃ blanks, text = blanks ++ trimStart text ∧ ∀ c ∈ blanks, isBlank c = true :=
  ⟨text.takeWhile isBlank, List.takeWhile_append_dropWhile.symm,
    List.all_eq_true.mp List.all_takeWhile⟩

/-- Only blanks are trimmed off the end. -/
theorem exists_eq_trimEnd_append (text : List Char)
    : ∃ blanks, text = trimEnd text ++ blanks ∧ ∀ c ∈ blanks, isBlank c = true := by
  obtain ⟨blanks, split, blank⟩ := exists_eq_append_trimStart text.reverse
  refine ⟨blanks.reverse, ?_, fun c member => blank c (List.mem_reverse.mp member)⟩
  rw [trimEnd, ← List.reverse_append, ← split, List.reverse_reverse]

/-- Trimming takes blanks from either end of a text. -/
theorem exists_eq_append_trim (text : List Char)
    : ∃ before behind,
        text = before ++ trim text ++ behind
        ∧ (∀ c ∈ before, isBlank c = true)
        ∧ ∀ c ∈ behind, isBlank c = true := by
  obtain ⟨before, start, blankBefore⟩ := exists_eq_append_trimStart text
  obtain ⟨behind, rest, blankBehind⟩ := exists_eq_trimEnd_append (trimStart text)
  exact ⟨before, behind, by rw [List.append_assoc, trim, ← rest, ← start], blankBefore, blankBehind⟩

/-- Trimming leaves nothing of a blank text, and of no other. -/
theorem trim_eq_nil_iff {text : List Char} : trim text = [] ↔ ∀ c ∈ text, isBlank c = true := by
  constructor
  · intro empty
    obtain ⟨before, behind, split, blankBefore, blankBehind⟩ := exists_eq_append_trim text
    rw [split, empty, List.append_nil]
    exact List.forall_mem_append.mpr ⟨blankBefore, blankBehind⟩
  · exact fun blank => trim_append_blanks blank []

/-- The start need not be trimmed twice. -/
theorem trim_trimStart (text : List Char) : trim (trimStart text) = trim text := by
  rw [trim, trim, trimStart, trimStart, List.dropWhile_idempotent]

/-- The end need not be trimmed twice. -/
theorem trim_trimEnd (text : List Char) : trim (trimEnd text) = trim text := by
  obtain ⟨blanks, split, blank⟩ := exists_eq_trimEnd_append text
  rw [← trim_append_blanks blank, ← split]

/-- A text with a character that is not blank is trimmed on either side of it. -/
theorem trim_append_cons {c : Char} (solid : isBlank c = false) (before behind : List Char)
    : trim (before ++ c :: behind) = trimStart before ++ c :: trimEnd behind := by
  have start {c : Char} (solid : isBlank c = false) (before behind : List Char)
      : trimStart (before ++ c :: behind) = trimStart before ++ c :: behind := by
    by_cases empty : trimStart before = []
    · rw [empty, trimStart, List.dropWhile_append_of_pos (trimStart_eq_nil_iff.mp empty)]
      exact trimStart_eq_self (by simpa using solid)
    · exact trimStart_append_of_ne_nil empty _
  rw [trim, start solid, trimEnd, List.reverse_append, List.reverse_cons, List.append_assoc,
    List.singleton_append, start solid, List.reverse_append, List.reverse_cons,
    List.reverse_reverse, List.append_assoc, List.singleton_append, trimEnd]

end SourceView.Text
