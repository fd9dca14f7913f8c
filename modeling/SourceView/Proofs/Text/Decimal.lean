import SourceView.Text.Decimal
import SourceView.Text.Split

/-! Numbers that are written in decimal digits read back as themselves, and stand between separators
without being mistaken for them.
-/

namespace SourceView.Text

namespace Decimal

/-- The value of a digit is how far it is from zero. -/
theorem digit?_of_isDigit {c : Char} (digit : c.isDigit = true)
    : digit? c = some (c.toNat - '0'.toNat) := by
  rw [Char.isDigit, Bool.and_eq_true, decide_eq_true_eq, decide_eq_true_eq] at digit
  exact if_pos digit

/-- Digits are read as they are counted together, by induction on the digits. -/
theorem readFrom_eq (value : Nat) {digits : List Char} (all : ∀ c ∈ digits, c.isDigit = true)
    : readFrom value digits = some (Nat.ofDigitChars 10 digits value) := by
  induction digits generalizing value with
  | nil => rfl
  | cons c rest ih =>
      rw [readFrom, digit?_of_isDigit (all c List.mem_cons_self)]
      exact ih _ fun other member => all other (List.mem_cons_of_mem c member)

/-- Other characters have no value. -/
theorem digit?_eq_none {c : Char} (other : c.isDigit = false) : digit? c = none := by
  rw [Char.isDigit, Bool.and_eq_false_iff, decide_eq_false_iff_not, decide_eq_false_iff_not]
    at other
  exact if_neg fun digit => other.elim (· digit.1) (· digit.2)

/-- Nothing but digits is read, by induction on the text. -/
theorem readFrom_eq_none {text : List Char} {c : Char} (member : c ∈ text)
    (other : c.isDigit = false) (value : Nat)
    : readFrom value text = none := by
  induction text generalizing value with
  | nil => cases member
  | cons first rest ih =>
      rw [readFrom]
      rcases List.mem_cons.mp member with rfl | member
      · rw [digit?_eq_none other]
        rfl
      · cases digit? first with
        | none => rfl
        | some digit => exact ih member _

/-- A number below a bound is digits, and at least one. -/
theorem read?_eq (bound : Nat) (text : List Char)
    : read? bound text
      = if text ≠ [] ∧ text.all Char.isDigit = true ∧ Nat.ofDigitChars 10 text 0 < bound then
          some (Nat.ofDigitChars 10 text 0)
        else none := by
  rw [read?]
  by_cases empty : text = []
  · simp [empty]
  · by_cases all : text.all Char.isDigit = true
    · rw [if_neg (by simpa using empty), readFrom_eq 0 (List.all_eq_true.mp all),
        Option.filter_some]
      by_cases small : Nat.ofDigitChars 10 text 0 < bound
      · rw [if_pos (decide_eq_true small), if_pos ⟨empty, all, small⟩]
      · rw [if_neg (by simpa using small), if_neg (small ·.2.2)]
    · obtain ⟨c, member, other⟩ := List.all_eq_false.mp (Bool.eq_false_iff.mpr all)
      rw [if_neg (by simpa using empty), readFrom_eq_none member (Bool.eq_false_iff.mpr other),
        if_neg (all ·.2.1)]
      rfl

/-- The text spells a number: its digits, which may stand behind a plus sign. -/
def Spells (text : List Char) (n : Nat) : Prop :=
  ∃ digits,
    (text = digits ∨ text = '+' :: digits)
    ∧ digits ≠ []
    ∧ digits.all Char.isDigit = true
    ∧ Nat.ofDigitChars 10 digits 0 = n

/-- A number is read of digits that make it, if it is below the bound. -/
theorem read?_eq_some_iff {bound n : Nat} {text : List Char}
    : read? bound text = some n
      ↔ text ≠ []
        ∧ text.all Char.isDigit = true
        ∧ Nat.ofDigitChars 10 text 0 = n
        ∧ n < bound := by
  rw [read?_eq, Option.ite_none_right_eq_some, Option.some.injEq]
  constructor
  · rintro ⟨⟨present, digits, small⟩, rfl⟩
    exact ⟨present, digits, rfl, small⟩
  · rintro ⟨present, digits, rfl, small⟩
    exact ⟨⟨present, digits, small⟩, rfl⟩

/-- A number is read of digits with or without a plus sign, if it is below the bound. -/
theorem readSigned?_eq_some_iff {bound n : Nat} {text : List Char}
    : readSigned? bound text = some n ↔ Spells text n ∧ n < bound := by
  fun_cases readSigned? bound text with
  | case1 rest =>
      rw [read?_eq_some_iff]
      constructor
      · rintro ⟨present, digits, same, small⟩
        exact ⟨⟨rest, .inr rfl, present, digits, same⟩, small⟩
      · rintro ⟨⟨digits, rfl | signed, present, all, same⟩, small⟩
        · cases all
        · cases signed
          exact ⟨present, all, same, small⟩
  | case2 =>
      rename_i unsigned
      rw [read?_eq_some_iff]
      constructor
      · rintro ⟨present, digits, same, small⟩
        exact ⟨⟨text, .inl rfl, present, digits, same⟩, small⟩
      · rintro ⟨⟨digits, rfl | signed, present, all, same⟩, small⟩
        · exact ⟨present, all, same, small⟩
        · exact (unsigned digits signed).elim

/-- A number that was written is read back. -/
theorem read?_toDigits {bound n : Nat} (small : n < bound)
    : read? bound (Nat.toDigits 10 n) = some n := by
  have digits : ∀ c ∈ Nat.toDigits 10 n, c.isDigit = true :=
    fun _ => Nat.isDigit_of_mem_toDigits (by decide) (by decide)
  rw [read?, if_neg (by simp), readFrom_eq 0 digits, Nat.ofDigitChars_ten_toDigits]
  simp [small]

/-- The digits of a number are its only characters. -/
theorem not_mem_toDigits {c : Char} (other : c.isDigit = false) (n : Nat)
    : c ∉ Nat.toDigits 10 n := by
  intro member
  cases other.symm.trans (Nat.isDigit_of_mem_toDigits (by decide) (by decide) member)

end Decimal

-----------------------------------------------------------------------------------------
-- Separators
-----------------------------------------------------------------------------------------

variable {separator : Char}

/-- A text is split at the first separator, by induction on what stands before it. -/
theorem splitOnce?_append {before : List Char} (absent : separator ∉ before)
    (behind : List Char)
    : splitOnce? separator (before ++ separator :: behind) = some (before, behind) := by
  induction before with
  | nil => exact if_pos rfl
  | cons c rest ih =>
      rw [List.mem_cons, not_or] at absent
      rw [List.cons_append, splitOnce?, if_neg (Ne.symm absent.1), ih absent.2]
      rfl

/-- A text without the separator is not split, by induction on the text. -/
theorem splitOnce?_eq_none {text : List Char} (absent : separator ∉ text)
    : splitOnce? separator text = none := by
  induction text with
  | nil => rfl
  | cons c rest ih =>
      rw [List.mem_cons, not_or] at absent
      rw [splitOnce?, if_neg (Ne.symm absent.1), ih absent.2]
      rfl

end SourceView.Text
