import SourceView.Text.Utf8

/-! The tokens of a JSON text, read from its bytes.
Strings keep their escapes and their bytes, numbers keep their digits: what they stand for is a
question of its own, which a reader that skips a value never asks.
-/

namespace SourceView.Json

/-- A part of a string as it was written. -/
inductive Mark where
  | byte (b : UInt8)
  /-- A 16-bit unit given by its number. -/
  | unit (n : Nat)
  deriving DecidableEq, Repr

/-- A number as it was written, digit by digit. -/
structure Numeral where
  negative : Bool
  whole : List Nat
  /-- The digits behind the point, of which there are none without a point. -/
  fraction : List Nat := []
  /-- Whether the exponent is below zero, and its digits. -/
  exponent : Option (Bool × List Nat) := none
  deriving DecidableEq, Repr

/-- The tokens of a JSON text. -/
inductive Token where
  | openArray | closeArray | openObject | closeObject | comma | colon
  | null
  | bool (value : Bool)
  | number (numeral : Numeral)
  | string (marks : List Mark)
  deriving DecidableEq, Repr

/-- A blank between tokens. -/
def isBlank (b : UInt8) : Bool :=
  b == 0x20 || b == 0x09 || b == 0x0a || b == 0x0d

/-- The value of a decimal digit. -/
def digit? (b : UInt8) : Option Nat :=
  if 0x30 ≤ b ∧ b ≤ 0x39 then some (b.toNat - 0x30) else none

/-- The value of a hexadecimal digit. -/
def hexDigit? (b : UInt8) : Option Nat :=
  if 0x30 ≤ b ∧ b ≤ 0x39 then some (b.toNat - 0x30)
  else if 0x41 ≤ b ∧ b ≤ 0x46 then some (b.toNat - 0x41 + 10)
  else if 0x61 ≤ b ∧ b ≤ 0x66 then some (b.toNat - 0x61 + 10)
  else none

/-- The byte that a backslash and a letter stand for. -/
def escaped? (letter : UInt8) : Option UInt8 :=
  match letter with
  | 0x22 => some 0x22
  | 0x5c => some 0x5c
  | 0x2f => some 0x2f
  | 0x62 => some 0x08
  | 0x66 => some 0x0c
  | 0x6e => some 0x0a
  | 0x72 => some 0x0d
  | 0x74 => some 0x09
  | _ => none

/-- The digits at the start of a text, and the rest. -/
def takeDigits : List UInt8 → List Nat × List UInt8
  | [] => ([], [])
  | b :: rest =>
    match digit? b with
    | some d => (d :: (takeDigits rest).1, (takeDigits rest).2)
    | none => ([], b :: rest)

/-- Nothing behind digits is longer than what they were taken from. -/
theorem length_takeDigits_snd_le (text : List UInt8)
    : (takeDigits text).2.length ≤ text.length := by
  fun_induction takeDigits text with
  | case1 => simp
  | case2 b rest d h ih => simp only [List.length_cons]; omega
  | case3 => simp

/-- The inside of a string up to its closing quote, and the text behind the quote. -/
def takeMarks? : List UInt8 → Option (List Mark × List UInt8)
  | [] => none
  | 0x22 :: rest => some ([], rest)
  | 0x5c :: 0x75 :: a :: b :: c :: d :: rest => do
    let unit := (← hexDigit? a) * 4096 + (← hexDigit? b) * 256 + (← hexDigit? c) * 16
      + (← hexDigit? d)
    let (marks, more) ← takeMarks? rest
    return (.unit unit :: marks, more)
  | 0x5c :: letter :: rest => do
    let b ← escaped? letter
    let (marks, more) ← takeMarks? rest
    return (.byte b :: marks, more)
  | b :: rest =>
    if b < 0x20 || b == 0x5c then none
    else do
      let (marks, more) ← takeMarks? rest
      return (.byte b :: marks, more)

/-- The text behind a string is shorter than the one with it. -/
theorem length_lt_of_takeMarks? {text more : List UInt8} {marks : List Mark}
    (h : takeMarks? text = some (marks, more))
    : more.length < text.length := by
  fun_induction takeMarks? text generalizing marks more with
  | case1 => simp at h
  | case2 rest => simp at h; simp [h]
  | case3 a b c d rest ih =>
      simp only [Option.bind_eq_bind, Option.bind_eq_some_iff] at h
      obtain ⟨_, _, _, _, _, _, _, _, ⟨m, r⟩, hr, h⟩ := h
      simp only [Option.pure_def, Option.some.injEq, Prod.mk.injEq] at h
      have := ih hr
      obtain ⟨-, rfl⟩ := h
      simp only [List.length_cons]; omega
  | case4 letter rest _ ih =>
      simp only [Option.bind_eq_bind, Option.bind_eq_some_iff] at h
      obtain ⟨_, _, ⟨m, r⟩, hr, h⟩ := h
      simp only [Option.pure_def, Option.some.injEq, Prod.mk.injEq] at h
      have := ih hr
      obtain ⟨-, rfl⟩ := h
      simp only [List.length_cons]; omega
  | case5 => simp at h
  | case6 b rest _ _ _ _ ih =>
      simp only [Option.bind_eq_bind, Option.bind_eq_some_iff] at h
      obtain ⟨⟨m, r⟩, hr, h⟩ := h
      simp only [Option.pure_def, Option.some.injEq, Prod.mk.injEq] at h
      have := ih hr
      obtain ⟨-, rfl⟩ := h
      simp only [List.length_cons]; omega

/-- The digits before the point: a single zero, or digits of which the first is not zero. -/
def takeWhole? (text : List UInt8) : Option (List Nat × List UInt8) :=
  match text with
  | 0x30 :: rest => some ([0], rest)
  | text =>
    match takeDigits text with
    | ([], _) => none
    | taken => some taken

/-- The digits behind a point, if a point is next. -/
def takeFraction? (text : List UInt8) : Option (List Nat × List UInt8) :=
  match text with
  | 0x2e :: rest =>
    match takeDigits rest with
    | ([], _) => none
    | taken => some taken
  | text => some ([], text)

/-- The exponent, if its letter is next. -/
def takeExponent? (text : List UInt8) : Option (Option (Bool × List Nat) × List UInt8) :=
  match text with
  | letter :: rest =>
    if letter = 0x65 ∨ letter = 0x45 then
      let (negative, rest) :=
        match rest with
        | 0x2b :: rest => (false, rest)
        | 0x2d :: rest => (true, rest)
        | rest => (false, rest)
      match takeDigits rest with
      | ([], _) => none
      | (digits, more) => some (some (negative, digits), more)
    else some (none, letter :: rest)
  | [] => some (none, [])

/-- The number at the start of a text, and the rest. -/
def takeNumber? (text : List UInt8) : Option (Numeral × List UInt8) := do
  let (negative, text) :=
    match text with
    | 0x2d :: rest => (true, rest)
    | text => (false, text)
  let (whole, text) ← takeWhole? text
  let (fraction, text) ← takeFraction? text
  let (exponent, text) ← takeExponent? text
  return ({ negative, whole, fraction, exponent }, text)

/-- The token at the start of a text that begins with no blank, and the rest. -/
def takeToken? (text : List UInt8) : Option (Token × List UInt8) :=
  match text with
  | 0x5b :: rest => some (.openArray, rest)
  | 0x5d :: rest => some (.closeArray, rest)
  | 0x7b :: rest => some (.openObject, rest)
  | 0x7d :: rest => some (.closeObject, rest)
  | 0x2c :: rest => some (.comma, rest)
  | 0x3a :: rest => some (.colon, rest)
  | 0x22 :: rest => (takeMarks? rest).map fun (marks, more) => (.string marks, more)
  | 0x6e :: 0x75 :: 0x6c :: 0x6c :: rest => some (.null, rest)
  | 0x74 :: 0x72 :: 0x75 :: 0x65 :: rest => some (.bool true, rest)
  | 0x66 :: 0x61 :: 0x6c :: 0x73 :: 0x65 :: rest => some (.bool false, rest)
  | text => (takeNumber? text).map fun (numeral, more) => (.number numeral, more)

/-! ### Every token takes something -/

/-- Taking digits leaves less of a text, if it takes any. -/
theorem length_takeDigits_snd_lt {text : List UInt8} (h : (takeDigits text).1 ≠ [])
    : (takeDigits text).2.length < text.length := by
  cases text with
  | nil => simp [takeDigits] at h
  | cons b rest =>
      simp only [takeDigits] at h ⊢
      cases hd : digit? b with
      | none => simp [hd] at h
      | some d =>
          have := length_takeDigits_snd_le rest
          simp only [List.length_cons]; omega

/-- Taking a whole number leaves less of the text. -/
theorem length_lt_of_takeWhole? {text more : List UInt8} {digits : List Nat}
    (h : takeWhole? text = some (digits, more))
    : more.length < text.length := by
  unfold takeWhole? at h
  split at h
  · simp at h; simp [h]
  · split at h
    · simp at h
    · next hne =>
        simp only [Option.some.injEq] at h
        have := @length_takeDigits_snd_lt text
          (fun e => hne (takeDigits text).2 (by rw [← e]))
        rw [h] at this
        exact this

/-- Taking a fraction leaves no more of the text. -/
theorem length_le_of_takeFraction? {text more : List UInt8} {digits : List Nat}
    (h : takeFraction? text = some (digits, more))
    : more.length ≤ text.length := by
  unfold takeFraction? at h
  split at h
  · next rest =>
      have := length_takeDigits_snd_le rest
      split at h
      · simp at h
      · simp only [Option.some.injEq] at h
        rw [h] at this
        simp only [List.length_cons] at this ⊢; omega
  · simp only [Option.some.injEq, Prod.mk.injEq] at h
    simp [h]

/-- Taking an exponent leaves no more of the text. -/
theorem length_le_of_takeExponent? {text more : List UInt8}
    {exponent : Option (Bool × List Nat)} (h : takeExponent? text = some (exponent, more))
    : more.length ≤ text.length := by
  unfold takeExponent? at h
  split at h
  · next letter rest =>
      split at h
      · have key : ∀ sign : Bool × List UInt8, sign.2.length ≤ rest.length →
            (match takeDigits sign.2 with
              | ([], _) => none
              | (digits, more) => some (some (sign.1, digits), more)) = some (exponent, more) →
            more.length ≤ (letter :: rest).length := by
          intro sign hle hs
          have := length_takeDigits_snd_le sign.2
          split at hs
          · simp at hs
          · next e =>
              simp only [Option.some.injEq, Prod.mk.injEq] at hs
              rw [e] at this
              obtain ⟨-, rfl⟩ := hs
              simp only [List.length_cons] at this ⊢; omega
        refine key _ ?_ h
        split <;> simp
      · simp only [Option.some.injEq, Prod.mk.injEq] at h
        simp [← h.2]
  · simp only [Option.some.injEq, Prod.mk.injEq] at h
    simp [← h.2]

/-- Taking a number leaves less of the text. -/
theorem length_lt_of_takeNumber? {text more : List UInt8} {numeral : Numeral}
    (h : takeNumber? text = some (numeral, more))
    : more.length < text.length := by
  unfold takeNumber? at h
  have key : ∀ sign : Bool × List UInt8, sign.2.length ≤ text.length →
      (do
        let (whole, text) ← takeWhole? sign.2
        let (fraction, text) ← takeFraction? text
        let (exponent, text) ← takeExponent? text
        return ({ negative := sign.1, whole, fraction, exponent }, text)
          : Option (Numeral × List UInt8)) = some (numeral, more) →
      more.length < text.length := by
    intro sign hle hs
    simp only [Option.bind_eq_bind, Option.bind_eq_some_iff] at hs
    obtain ⟨⟨_, _⟩, hw, ⟨_, _⟩, hf, ⟨_, _⟩, he, hs⟩ := hs
    have hw := length_lt_of_takeWhole? hw
    have hf := length_le_of_takeFraction? hf
    have he := length_le_of_takeExponent? he
    simp only [Option.pure_def, Option.some.injEq, Prod.mk.injEq] at hs
    obtain ⟨-, rfl⟩ := hs
    simp only at hw hf he
    omega
  refine key _ ?_ h
  split <;> simp

/-- The text behind a token is shorter than the one with it. -/
theorem length_lt_of_takeToken? {text more : List UInt8} {token : Token}
    (h : takeToken? text = some (token, more))
    : more.length < text.length := by
  unfold takeToken? at h
  split at h
  case h_7 rest =>
    obtain ⟨⟨_, _⟩, ht, h⟩ := Option.map_eq_some_iff.mp h
    have := length_lt_of_takeMarks? ht
    simp only [Prod.mk.injEq] at h
    obtain ⟨-, rfl⟩ := h
    simp only [List.length_cons]; omega
  case h_11 =>
    obtain ⟨⟨_, _⟩, ht, h⟩ := Option.map_eq_some_iff.mp h
    have := length_lt_of_takeNumber? ht
    simp only [Prod.mk.injEq] at h
    obtain ⟨-, rfl⟩ := h
    exact this
  all_goals
    simp only [Option.some.injEq, Prod.mk.injEq] at h
    obtain ⟨-, rfl⟩ := h
    simp only [List.length_cons]; omega

/-- Nothing behind blanks is longer than the text with them. -/
theorem length_dropWhile_le (p : UInt8 → Bool) (text : List UInt8)
    : (text.dropWhile p).length ≤ text.length := by
  induction text with
  | nil => simp
  | cons b rest ih =>
      rw [List.dropWhile_cons]
      split
      · simp only [List.length_cons]; omega
      · exact Nat.le_refl _

/-- The tokens of a whole text. -/
def tokens? (text : List UInt8) : Option (List Token) :=
  if (text.dropWhile isBlank).isEmpty then some []
  else
    match _taken : takeToken? (text.dropWhile isBlank) with
    | none => none
    | some (token, more) => (tokens? more).map (token :: ·)
termination_by text.length
decreasing_by
  have := length_lt_of_takeToken? _taken
  have := length_dropWhile_le isBlank text
  omega

end SourceView.Json
