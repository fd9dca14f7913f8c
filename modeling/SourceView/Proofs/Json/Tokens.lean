import SourceView.Json.Meaning
import SourceView.Proofs.Text.Decimal
import SourceView.Proofs.Text.Utf8

/-! The tokens of texts that were written from strings and numbers.
They stand for what was written, whatever comes behind them.
-/

namespace SourceView.Json

open Text.Utf8 (encode)

-----------------------------------------------------------------------------------------
-- Single tokens
-----------------------------------------------------------------------------------------

section Taking

variable {text more : List UInt8} {token : Token}

/-- A text that begins with no blank begins with the token that is taken from it. -/
theorem tokens?_of_takeToken? {b : UInt8} (solid : isBlank b = false)
    (taken : takeToken? (b :: text) = some (token, more))
    : tokens? (b :: text) = (tokens? more).map (token :: ·) := by
  have kept : (b :: text).dropWhile isBlank = b :: text :=
    List.dropWhile_cons_of_neg (by simp [solid])
  rw [tokens?, kept, if_neg (by simp)]
  split
  · next untaken => cases taken.symm.trans untaken
  · next found =>
      cases taken.symm.trans found
      rfl

/-- A blank before a text adds no token. -/
theorem tokens?_blank {b : UInt8} (blank : isBlank b = true) (text : List UInt8)
    : tokens? (b :: text) = tokens? text := by
  rw [tokens?, List.dropWhile_cons_of_pos blank, tokens?]

/-- The empty text has no tokens. -/
theorem tokens?_nil : tokens? [] = some [] := by
  rw [tokens?]
  rfl

/-- The tokens that are written as a single byte. -/
def punctuation : List (UInt8 × Token) :=
  [(0x5b, .openArray), (0x5d, .closeArray), (0x7b, .openObject), (0x7d, .closeObject),
    (0x2c, .comma), (0x3a, .colon)]

/-- A punctuation mark is a token of its own. -/
theorem tokens?_punctuation {b : UInt8} (mark : (b, token) ∈ punctuation) (text : List UInt8)
    : tokens? (b :: text) = (tokens? text).map (token :: ·) := by
  simp only [punctuation, List.mem_cons, Prod.mk.injEq, List.not_mem_nil, or_false] at mark
  rcases mark with ⟨rfl, rfl⟩ | ⟨rfl, rfl⟩ | ⟨rfl, rfl⟩ | ⟨rfl, rfl⟩ | ⟨rfl, rfl⟩ | ⟨rfl, rfl⟩
  all_goals exact tokens?_of_takeToken? (by decide) (by rw [takeToken?])

/-- The text of the null is a token of its own. -/
theorem tokens?_null (text : List UInt8)
    : tokens? (encode "null".toList ++ text) = (tokens? text).map (.null :: ·) :=
  tokens?_of_takeToken? (by decide) (by rfl)

/-- The text of a truth value is a token of its own. -/
theorem tokens?_bool (value : Bool) (text : List UInt8)
    : tokens? (encode (chars (.bool value)) ++ text) = (tokens? text).map (.bool value :: ·) := by
  cases value with
  | true => exact tokens?_of_takeToken? (by decide) (by rfl)
  | false => exact tokens?_of_takeToken? (by decide) (by rfl)

end Taking

-----------------------------------------------------------------------------------------
-- Strings
-----------------------------------------------------------------------------------------

/-- What a character is written as in a string. -/
def charMarks (c : Char) : List Mark :=
  if c.toNat < 0x20 ∧ c ∉ ['\n', '\r', '\t', '\x08', '\x0c'] then [.unit c.toNat]
  else (String.utf8EncodeChar c).map .byte

def stringMarks (text : List Char) : List Mark :=
  text.flatMap charMarks

section Strings

variable {rest more : List UInt8} {marks : List Mark}

/-- A byte that stands for itself. -/
theorem takeMarks?_byte {b : UInt8} (solid : 0x20 ≤ b) (quote : b ≠ 0x22) (backslash : b ≠ 0x5c)
    (taken : takeMarks? rest = some (marks, more))
    : takeMarks? (b :: rest) = some (.byte b :: marks, more) := by
  rw [takeMarks?]
  · rw [if_neg (by simp [backslash, UInt8.not_lt.mpr solid]), taken]
    rfl
  · exact quote
  · exact fun _ _ _ _ _ same _ => backslash same
  · exact fun _ _ same _ => backslash same

/-- Bytes that mean themselves are marks of a string, by induction on the bytes. -/
theorem takeMarks?_bytes {bytes : List UInt8}
    (plain : ∀ b ∈ bytes, 0x20 ≤ b ∧ b ≠ 0x22 ∧ b ≠ 0x5c)
    (taken : takeMarks? rest = some (marks, more))
    : takeMarks? (bytes ++ rest) = some (bytes.map .byte ++ marks, more) := by
  induction bytes with
  | nil => exact taken
  | cons b bytes ih =>
      have ⟨solid, quote, backslash⟩ := plain b List.mem_cons_self
      exact takeMarks?_byte solid quote backslash
        (ih fun other member => plain other (List.mem_cons_of_mem b member))

/-- A byte that a letter stands for. -/
theorem takeMarks?_letter {letter b : UInt8} (escaped : escaped? letter = some b)
    (taken : takeMarks? rest = some (marks, more))
    : takeMarks? (0x5c :: letter :: rest) = some (.byte b :: marks, more) := by
  rw [takeMarks?]
  · rw [escaped, taken]
    rfl
  · rintro _ _ _ _ _ rfl
    cases escaped

/-- The first sixteen digits are read as what they stand for. -/
theorem hexDigit?_of_lt_sixteen
    : ∀ d < 16, (encode [Nat.digitChar d]).map hexDigit? = [some d] := by
  decide

/-- A character that is given by its number. -/
theorem takeMarks?_unit {n : Nat} (small : n < 0x20)
    (taken : takeMarks? rest = some (marks, more))
    : takeMarks? (encode ['\\', 'u', '0', '0', Nat.digitChar (n / 16), Nat.digitChar (n % 16)]
        ++ rest)
      = some (.unit n :: marks, more) := by
  have high := hexDigit?_of_lt_sixteen (n / 16) (by omega)
  have low := hexDigit?_of_lt_sixteen (n % 16) (by omega)
  obtain ⟨a, highText, highDigit⟩ := List.map_eq_singleton_iff.mp high
  obtain ⟨b, lowText, lowDigit⟩ := List.map_eq_singleton_iff.mp low
  have text : encode ['\\', 'u', '0', '0', Nat.digitChar (n / 16), Nat.digitChar (n % 16)]
      = [0x5c, 0x75, 0x30, 0x30, a, b] := by
    have parts : encode (['\\', 'u', '0', '0']
          ++ ([Nat.digitChar (n / 16)] ++ [Nat.digitChar (n % 16)]))
        = encode ['\\', 'u', '0', '0'] ++ ([a] ++ [b]) := by
      rw [Text.Utf8.encode_append, Text.Utf8.encode_append, highText, lowText]
    exact parts
  have zero : hexDigit? 0x30 = some 0 := rfl
  have sum : n / 16 * 16 + n % 16 = n := by omega
  rw [text]
  simp [takeMarks?, zero, highDigit, lowDigit, taken, sum]

/-- No byte of a character that stands for itself is a quote, a backslash or a control byte. -/
theorem plain_of_mem_utf8EncodeChar {c : Char} (solid : 0x20 ≤ c.toNat) (quote : c ≠ '"')
    (backslash : c ≠ '\\')
    : ∀ b ∈ String.utf8EncodeChar c, 0x20 ≤ b ∧ b ≠ 0x22 ∧ b ≠ 0x5c := by
  intro b member
  by_cases ascii : b.toNat < 0x80
  · have same := Text.Utf8.ascii_of_mem_utf8EncodeChar member ascii
    refine ⟨?_, ?_, ?_⟩
    · exact UInt8.le_iff_toNat_le.mpr (same ▸ solid)
    · rintro rfl
      exact quote (Char.toNat_inj.mp same)
    · rintro rfl
      exact backslash (Char.toNat_inj.mp same)
  · refine ⟨?_, ?_, ?_⟩
    · exact UInt8.le_iff_toNat_le.mpr (Nat.le_trans (by decide) (Nat.le_of_not_lt ascii))
    · rintro rfl
      exact ascii (by decide)
    · rintro rfl
      exact ascii (by decide)

/-- A character is read as it was written. -/
theorem takeMarks?_spell (c : Char) (taken : takeMarks? rest = some (marks, more))
    : takeMarks? (encode (spell c) ++ rest) = some (charMarks c ++ marks, more) := by
  unfold spell
  split
  · exact takeMarks?_letter rfl taken
  · exact takeMarks?_letter rfl taken
  · exact takeMarks?_letter rfl taken
  · exact takeMarks?_letter rfl taken
  · exact takeMarks?_letter rfl taken
  · exact takeMarks?_letter rfl taken
  · exact takeMarks?_letter rfl taken
  · next quote backslash feed carriage tab back form =>
    split
    · next control =>
        rw [charMarks, if_pos ⟨control, by simp; exact ⟨feed, carriage, tab, back, form⟩⟩]
        exact takeMarks?_unit control taken
    · next solid =>
        have itself : encode [c] = String.utf8EncodeChar c := List.append_nil _
        rw [charMarks, if_neg fun control => solid control.1, itself]
        exact takeMarks?_bytes
          (plain_of_mem_utf8EncodeChar (Nat.le_of_not_lt solid) quote backslash) taken

/-- The spelling of a text is read as its marks up to the closing quote, by induction on the text.
-/
theorem takeMarks?_string (text : List Char) (rest : List UInt8)
    : takeMarks? (encode (text.flatMap spell) ++ 0x22 :: rest)
      = some (stringMarks text, rest) := by
  induction text with
  | nil => exact takeMarks?.eq_2 rest
  | cons c text ih =>
      rw [List.flatMap_cons, Text.Utf8.encode_append, List.append_assoc]
      exact takeMarks?_spell c ih

/-- A string that was written is one token. -/
theorem tokens?_string (value : String) (text : List UInt8)
    : tokens? (encode (renderString value) ++ text)
      = (tokens? text).map (.string (stringMarks value.toList) :: ·) := by
  have parts : encode (renderString value) ++ text
      = 0x22 :: (encode (value.toList.flatMap spell) ++ 0x22 :: text) := by
    rw [renderString, Text.Utf8.encode_cons, Text.Utf8.encode_append]
    simp [encode, String.utf8EncodeChar]
  rw [parts]
  apply tokens?_of_takeToken? (by decide)
  rw [takeToken?, takeMarks?_string]
  rfl

/-- Bytes that mean themselves stand for themselves, by induction on the bytes. -/
theorem bytes?_append {bytes bytesToo : List UInt8} (stand : Mark.bytes? marks = some bytesToo)
    : Mark.bytes? (bytes.map .byte ++ marks) = some (bytes ++ bytesToo) := by
  induction bytes with
  | nil => exact stand
  | cons b bytes ih =>
      rw [List.map_cons, List.cons_append, Mark.bytes?, ih]
      rfl

/-- The marks of a character stand for its bytes. -/
theorem bytes?_charMarks (c : Char) {bytes : List UInt8} (stand : Mark.bytes? marks = some bytes)
    : Mark.bytes? (charMarks c ++ marks) = some (String.utf8EncodeChar c ++ bytes) := by
  rw [charMarks]
  split
  · next control =>
      rw [List.singleton_append, Mark.bytes?.eq_def]
      dsimp only
      rw [if_neg (by omega), if_neg (by omega), stand, Char.ofNat_toNat]
      rfl
  · exact bytes?_append stand

/-- The marks stand for the bytes of the text. -/
theorem bytes?_stringMarks (text : List Char)
    : Mark.bytes? (stringMarks text) = some (encode text) := by
  induction text with
  | nil => rfl
  | cons c text ih => exact bytes?_charMarks c ih

/-- The marks of a text stand for the text. -/
theorem string?_stringMarks (value : String)
    : Mark.string? (stringMarks value.toList) = some value := by
  simp [Mark.string?, bytes?_stringMarks, Text.Utf8.decode?_encode]

end Strings

-----------------------------------------------------------------------------------------
-- Numbers
-----------------------------------------------------------------------------------------

/-- What comes behind a number is no part of it. -/
def EndsNumber (rest : List UInt8) : Prop :=
  ∀ b ∈ rest.head?, digit? b = none ∧ b ≠ 0x2e ∧ b ≠ 0x65 ∧ b ≠ 0x45

/-- The values of decimal digits. -/
def digitValues (digits : List Char) : List Nat :=
  digits.map fun c => c.toNat - '0'.toNat

section Numbers

variable {rest : List UInt8} {digits : List Char}

/-- The digits are ten characters in a row. -/
theorem toNat_of_isDigit {c : Char} (digit : c.isDigit = true) : 48 ≤ c.toNat ∧ c.toNat ≤ 57 := by
  rw [Char.isDigit, Bool.and_eq_true, decide_eq_true_eq, decide_eq_true_eq] at digit
  exact ⟨UInt32.le_iff_toNat_le.mp digit.1, UInt32.le_iff_toNat_le.mp digit.2⟩

/-- A digit is one byte, which is read as its value. -/
theorem digit?_of_isDigit {c : Char} (digit : c.isDigit = true)
    : String.utf8EncodeChar c = [.ofNat c.toNat]
      ∧ digit? (.ofNat c.toNat) = some (c.toNat - '0'.toNat) := by
  have ⟨low, high⟩ := toNat_of_isDigit digit
  have ascii : c.toNat < 0x80 := by omega
  refine ⟨Text.Utf8.utf8EncodeChar_of_ascii ascii, ?_⟩
  have byte : (UInt8.ofNat c.toNat).toNat = c.toNat := Text.Utf8.toNat_byte ascii
  rw [digit?, if_pos, byte]
  · rfl
  · rw [UInt8.le_iff_toNat_le, UInt8.le_iff_toNat_le, byte]
    exact ⟨low, high⟩

/-- No digit stands where a number ends. -/
theorem takeDigits_of_endsNumber (ends : EndsNumber rest) : takeDigits rest = ([], rest) := by
  cases rest with
  | nil => rfl
  | cons b rest => rw [takeDigits, (ends b rfl).1]

/-- All the digits are taken, by induction on the digits. -/
theorem takeDigits_encode (all : ∀ c ∈ digits, c.isDigit = true) (ends : EndsNumber rest)
    : takeDigits (encode digits ++ rest) = (digitValues digits, rest) := by
  induction digits with
  | nil => exact takeDigits_of_endsNumber ends
  | cons c digits ih =>
      have ⟨text, digit⟩ := digit?_of_isDigit (all c List.mem_cons_self)
      have later := ih fun other member => all other (List.mem_cons_of_mem c member)
      rw [Text.Utf8.encode_cons, text, List.append_assoc, List.singleton_append, takeDigits, digit]
      simp only [later, digitValues, List.map_cons]

/-- The values of digits make the number that the digits make. -/
theorem value_digitValues (digits : List Char)
    : Numeral.value (digitValues digits) = Nat.ofDigitChars 10 digits 0 := by
  rw [Numeral.value, digitValues, List.foldl_map]
  rfl

/-- A number does not begin with a zero unless that is all of it. -/
theorem head?_toDigits_ne {n : Nat} (positive : n ≠ 0) : (Nat.toDigits 10 n).head? ≠ some '0' := by
  induction n using Nat.strongRecOn with
  | ind n ih =>
      by_cases single : n < 10
      · rw [Nat.toDigits_of_lt_base single]
        have digits : ∀ d < 10, d ≠ 0 → [Nat.digitChar d].head? ≠ some '0' := by decide
        exact digits n single positive
      · have more := ih (n / 10) (by omega) (by omega)
        rw [Nat.toDigits_of_base_le (by decide) (by omega), List.head?_append]
        cases first : (Nat.toDigits 10 (n / 10)).head? with
        | none => exact absurd (List.head?_eq_none_iff.mp first) Nat.toDigits_ne_nil
        | some c =>
            rw [first] at more
            exact more

/-- The digits of a number are digits. -/
theorem isDigit_toDigits (n : Nat) : ∀ c ∈ Nat.toDigits 10 n, c.isDigit = true :=
  fun _ => Nat.isDigit_of_mem_toDigits (by decide) (by decide)

/-- The digits of a number are taken as one whole number where it ends. -/
theorem takeWhole?_toDigits (n : Nat) (ends : EndsNumber rest)
    : takeWhole? (encode (Nat.toDigits 10 n) ++ rest)
      = some (digitValues (Nat.toDigits 10 n), rest) := by
  by_cases zero : n = 0
  · subst zero
    rfl
  have first := head?_toDigits_ne zero
  have all := isDigit_toDigits n
  have taken := takeDigits_encode all ends
  cases digits : Nat.toDigits 10 n with
  | nil => exact absurd digits Nat.toDigits_ne_nil
  | cons c more =>
      rw [digits] at first all taken
      have digit := all c List.mem_cons_self
      rw [takeWhole?, taken]
      · simp only [digitValues, List.map_cons]
      · intro behind same
        rw [Text.Utf8.encode_cons, (digit?_of_isDigit digit).1] at same
        have byte := congrArg UInt8.toNat (List.cons.inj same).1
        have bounds := toNat_of_isDigit digit
        rw [Text.Utf8.toNat_byte (by omega)] at byte
        exact first (congrArg some (Char.toNat_inj.mp byte))

/-- No fraction stands where a number ends. -/
theorem takeFraction?_of_endsNumber (ends : EndsNumber rest)
    : takeFraction? rest = some ([], rest) := by
  rw [takeFraction?]
  rintro more rfl
  exact (ends 0x2e rfl).2.1 rfl

/-- No exponent stands where a number ends. -/
theorem takeExponent?_of_endsNumber (ends : EndsNumber rest)
    : takeExponent? rest = some (none, rest) := by
  cases rest with
  | nil => rfl
  | cons b rest =>
      have ⟨_, _, small, capital⟩ := ends b rfl
      unfold takeExponent?
      exact if_neg (by simp [small, capital])

/-- How a whole number is written. -/
def numeral (value : Int) : Numeral :=
  { negative := decide (value < 0), whole := digitValues (Nat.toDigits 10 value.natAbs) }

/-- A whole number is written as its sign, if it has one, and its digits. -/
theorem render_whole (value : Int)
    : (Number.whole value).render
      = (if value < 0 then ['-'] else []) ++ Nat.toDigits 10 value.natAbs := by
  rw [Number.render, Int.toString_eq_repr, Int.repr_eq_if]
  by_cases negative : value < 0
  · have size : (-value).toNat = value.natAbs := by omega
    rw [if_neg (by omega), if_pos negative, String.toList_append, Nat.toList_repr, size]
    rfl
  · have size : value.toNat = value.natAbs := by omega
    rw [if_pos (by omega), if_neg negative, Nat.toList_repr, size]
    rfl

/-- A natural number begins with a digit. -/
theorem encode_toDigits_eq_cons (n : Nat)
    : ∃ b more, encode (Nat.toDigits 10 n) = b :: more ∧ 0x30 ≤ b ∧ b ≤ 0x39 := by
  cases digits : Nat.toDigits 10 n with
  | nil => exact absurd digits Nat.toDigits_ne_nil
  | cons c more =>
      have digit := isDigit_toDigits n c (by simp [digits])
      have bounds := toNat_of_isDigit digit
      refine ⟨.ofNat c.toNat, encode more, ?_, ?_⟩
      · rw [Text.Utf8.encode_cons, (digit?_of_isDigit digit).1]
        rfl
      · rw [UInt8.le_iff_toNat_le, UInt8.le_iff_toNat_le, Text.Utf8.toNat_byte (by omega)]
        exact bounds

/-- A whole number that was written is taken as its sign and its digits where it ends. -/
theorem takeNumber?_whole (value : Int) (ends : EndsNumber rest)
    : takeNumber? (encode (Number.whole value).render ++ rest) = some (numeral value, rest) := by
  have whole := takeWhole?_toDigits value.natAbs ends
  have fraction := takeFraction?_of_endsNumber ends
  have exponent := takeExponent?_of_endsNumber ends
  rw [render_whole]
  by_cases negative : value < 0
  · have minus : encode ['-'] = [0x2d] := rfl
    rw [if_pos negative, Text.Utf8.encode_append, minus, List.append_assoc]
    simp [takeNumber?, whole, fraction, exponent, numeral, negative]
  · rw [if_neg negative, List.nil_append]
    obtain ⟨b, more, text, low, high⟩ := encode_toDigits_eq_cons value.natAbs
    rw [text, List.cons_append] at whole ⊢
    have unsigned : b ≠ 0x2d := by
      rintro rfl
      exact absurd low (by decide)
    unfold takeNumber?
    split
    next sign unread read =>
      split at read
      · next same => exact absurd (List.cons.inj same).1 unsigned
      · cases read
        simp [whole, fraction, exponent, numeral, negative]

/-- A whole number that was written is one token where it ends. -/
theorem tokens?_whole (value : Int) (ends : EndsNumber rest)
    : tokens? (encode (Number.whole value).render ++ rest)
      = (tokens? rest).map (.number (numeral value) :: ·) := by
  have taken := takeNumber?_whole value ends
  obtain ⟨b, more, text, start⟩ : ∃ b more, encode (Number.whole value).render = b :: more
      ∧ (b = 0x2d ∨ 0x30 ≤ b ∧ b ≤ 0x39) := by
    rw [render_whole]
    by_cases negative : value < 0
    · rw [if_pos negative]
      exact ⟨0x2d, _, rfl, .inl rfl⟩
    · obtain ⟨b, more, text, digit⟩ := encode_toDigits_eq_cons value.natAbs
      rw [if_neg negative]
      exact ⟨b, more, text, .inr digit⟩
  have apart : ∀ other : UInt8, ¬(other = 0x2d ∨ 0x30 ≤ other ∧ other ≤ 0x39) → b ≠ other := by
    rintro other outside rfl
    exact outside start
  rw [text, List.cons_append] at taken ⊢
  apply tokens?_of_takeToken?
  · simp only [isBlank, Bool.or_eq_false_iff, beq_eq_false_iff_ne]
    refine ⟨⟨⟨?_, ?_⟩, ?_⟩, ?_⟩ <;> exact apart _ (by decide)
  · rw [takeToken?]
    · rw [taken]
      rfl
    all_goals
      intro behind same
      exact apart _ (by decide) (List.cons.inj same).1

/-- The range of whole numbers that are told apart. -/
def InRange (value : Int) : Prop :=
  -0x8000000000000000 ≤ value ∧ value < UInt64.size

/-- The sign and the digits of a whole number in range stand for the number. -/
theorem number?_numeral {value : Int} (inRange : InRange value)
    : (numeral value).number? = some (.whole value) := by
  have ⟨low, high⟩ := inRange
  have digits : Numeral.value (numeral value).whole = value.natAbs := by
    rw [numeral, value_digitValues, Nat.ofDigitChars_ten_toDigits]
  have whole : (numeral value).whole? = some value := by
    rw [Numeral.whole?, if_pos (by rfl), digits]
    by_cases negative : value < 0
    · rw [if_pos (by simp [numeral, negative]), if_pos (by omega)]
      congr 1
      omega
    · rw [if_neg (by simp [numeral, negative]), if_pos (by omega)]
      congr 1
      omega
  rw [Numeral.number?, whole]

end Numbers

end SourceView.Json
