import SourceView.Text.Utf8

/-! Text that is written as UTF-8 reads back as itself.
A character of one byte stands among what was read only where its byte stands among the bytes, so
that bytes can be told apart by such characters before they are read.
-/

namespace SourceView.Text.Utf8

-----------------------------------------------------------------------------------------
-- Bytes
-----------------------------------------------------------------------------------------

/-- The bytes of an array are listed from a start on, by induction on the loop. -/
theorem toList_loop (bytes : ByteArray) (start : Nat) (before : List UInt8)
    : ByteArray.toList.loop bytes start before
      = before.reverse ++ bytes.data.toList.drop start := by
  fun_induction ByteArray.toList.loop bytes start before with
  | case1 start before inside ih =>
      have listed : start < bytes.data.toList.length := by simpa using inside
      have found : bytes.get! start = bytes.data[start] := getElem!_pos bytes.data start inside
      rw [ih, List.drop_eq_getElem_cons listed, found]
      simp
  | case2 start before outside =>
      rw [List.drop_eq_nil_of_le (by simpa using Nat.le_of_not_lt outside), List.append_nil]

/-- The bytes of a text are those of its characters. -/
theorem bytes_eq_encode (text : String) : bytes text = encode text.toList := by
  have whole : text.toByteArray = (encode text.toList).toByteArray :=
    String.utf8Encode_toList.symm
  rw [bytes, String.toUTF8_eq_toByteArray, whole, ByteArray.toList, toList_loop]
  simp

/-- Texts one behind the other have their bytes one behind the other. -/
theorem encode_append (first rest : List Char)
    : encode (first ++ rest) = encode first ++ encode rest :=
  List.flatMap_append

/-- The bytes of the first character come first. -/
theorem encode_cons (c : Char) (rest : List Char)
    : encode (c :: rest) = String.utf8EncodeChar c ++ encode rest :=
  List.flatMap_cons

/-- Texts one behind the other have their bytes one behind the other. -/
theorem bytes_append (first rest : String) : bytes (first ++ rest) = bytes first ++ bytes rest := by
  simp [bytes_eq_encode, encode_append]

/-- Texts that are joined have their bytes one behind the other, by induction on the texts. -/
theorem bytes_join (texts : List String) : bytes (String.join texts) = texts.flatMap bytes := by
  induction texts with
  | nil => exact bytes_eq_encode _
  | cons text rest ih => rw [String.join_cons, bytes_append, ih, List.flatMap_cons]

-----------------------------------------------------------------------------------------
-- Reading what was written
-----------------------------------------------------------------------------------------

section Reading

variable {n owed value : Nat} {low high : UInt8} {rest : List UInt8}

/-- A byte in its place brings the character on, or ends it. -/
theorem cutFrom_of_mem_range (lowest : low.toNat ≤ n) (highest : n ≤ high.toNat)
    : cutFrom (owed + 1) value low high (.ofNat n :: rest)
      = if owed = 0 then .char (.ofNat (64 * value + n % 64)) :: cut rest
        else cutFrom owed (64 * value + n % 64) 0x80 0xbf rest := by
  have byte : n % 256 = n := by
    have := high.toNat_lt
    omega
  have inRange : low ≤ .ofNat n ∧ .ofNat n ≤ high := by
    simp only [UInt8.le_iff_toNat_le, UInt8.toNat_ofNat', byte, Nat.reducePow]
    exact ⟨lowest, highest⟩
  rw [cutFrom, if_neg (Nat.succ_ne_zero owed), if_pos inRange]
  simp [byte, cut]

/-- A first byte says how the character goes on. -/
theorem cut_of_following? {length : Nat} (byte : n < 256) (long : 128 ≤ n)
    (begins : following? (.ofNat n) = some (length, low, high))
    : cut (.ofNat n :: rest) = cutFrom length (n % (1 <<< (6 - length))) low high rest := by
  have other : ¬ UInt8.ofNat n < 0x80 := by
    simp only [UInt8.lt_iff_toNat_lt, UInt8.toNat_ofNat', Nat.reducePow, UInt8.reduceToNat]
    omega
  have small : n % 256 = n := Nat.mod_eq_of_lt byte
  rw [cut, cutFrom, if_pos rfl, cutFrom.begin, if_neg other, begins]
  simp [leadValue, small]

/-- The bytes that may follow a first byte, by its number. -/
theorem following?_eq (byte : n < 256)
    : following? (.ofNat n)
      = if 0xc2 ≤ n ∧ n ≤ 0xdf then some (1, 0x80, 0xbf)
        else if n = 0xe0 then some (2, 0xa0, 0xbf)
        else if n = 0xed then some (2, 0x80, 0x9f)
        else if 0xe1 ≤ n ∧ n ≤ 0xef then some (2, 0x80, 0xbf)
        else if n = 0xf0 then some (3, 0x90, 0xbf)
        else if 0xf1 ≤ n ∧ n ≤ 0xf3 then some (3, 0x80, 0xbf)
        else if n = 0xf4 then some (3, 0x80, 0x8f)
        else none := by
  have small : n % 256 = n := Nat.mod_eq_of_lt byte
  simp [following?, UInt8.le_iff_toNat_le, ← UInt8.toNat_inj, small]

end Reading

/-- The second byte of a character of three is in its place. -/
theorem following?_three {v : Nat} (lowest : 0x800 ≤ v) (highest : v ≤ 0xffff)
    (valid : v < 0xd800 ∨ 0xdfff < v)
    : ∃ low high,
        following? (.ofNat (v / 4096 % 16 + 224)) = some (2, low, high)
        ∧ low.toNat ≤ v / 64 % 64 + 128
        ∧ v / 64 % 64 + 128 ≤ high.toNat := by
  rw [following?_eq (by omega), if_neg (by omega)]
  by_cases first : v / 4096 % 16 + 224 = 0xe0
  · exact ⟨_, _, if_pos first, by simp; omega, by simp; omega⟩
  rw [if_neg first]
  by_cases surrogates : v / 4096 % 16 + 224 = 0xed
  · exact ⟨_, _, if_pos surrogates, by simp, by simp; omega⟩
  rw [if_neg surrogates]
  exact ⟨_, _, if_pos (by omega), by simp, by simp; omega⟩

/-- The second byte of a character of four is in its place. -/
theorem following?_four {v : Nat} (lowest : 0x10000 ≤ v) (highest : v < 0x110000)
    : ∃ low high,
        following? (.ofNat (v / 262144 % 8 + 240)) = some (3, low, high)
        ∧ low.toNat ≤ v / 4096 % 64 + 128
        ∧ v / 4096 % 64 + 128 ≤ high.toNat := by
  rw [following?_eq (by omega), if_neg (by omega), if_neg (by omega), if_neg (by omega),
    if_neg (by omega)]
  by_cases first : v / 262144 % 8 + 240 = 0xf0
  · exact ⟨_, _, if_pos first, by simp; omega, by simp; omega⟩
  rw [if_neg first]
  by_cases last : v / 262144 % 8 + 240 = 0xf4
  · rw [if_neg (by omega)]
    exact ⟨_, _, if_pos last, by simp, by simp; omega⟩
  · exact ⟨_, _, if_pos (by omega), by simp, by simp; omega⟩

/-- A character is cut off the bytes that it begins, by cases on how many bytes it has. -/
theorem cut_char (c : Char) (rest : List UInt8)
    : cut (String.utf8EncodeChar c ++ rest) = .char c :: cut rest := by
  have number : Char.ofNat c.val.toNat = c := Char.ofNat_toNat c
  have valid : c.val.toNat < 0xd800 ∨ 0xdfff < c.val.toNat ∧ c.val.toNat < 0x110000 := c.valid
  unfold String.utf8EncodeChar
  generalize c.val.toNat = v at number valid
  dsimp only
  split
  · next one =>
      have ascii : UInt8.ofNat v < 0x80 := by
        simp only [UInt8.lt_iff_toNat_lt, UInt8.toNat_ofNat', Nat.reducePow, UInt8.reduceToNat]
        omega
      have small : v % 256 = v := by omega
      rw [cut, List.singleton_append, cutFrom, if_pos rfl, cutFrom.begin, if_pos ascii]
      simp [small, number, cut]
  split
  · next two =>
      have begins : following? (.ofNat (v / 64 % 32 + 192)) = some (1, 0x80, 0xbf) := by
        rw [following?_eq (by omega), if_pos (by omega)]
      have whole : 64 * ((v / 64 % 32 + 192) % (1 <<< (6 - 1))) + (v % 64 + 128) % 64 = v := by
        simp only [Nat.reduceSub, Nat.reduceShiftLeft]
        omega
      rw [List.cons_append, List.singleton_append, cut_of_following? (by omega) (by omega) begins,
        cutFrom_of_mem_range (by simp) (by simp; omega), if_pos rfl, whole, number]
  split
  · next three =>
      obtain ⟨low, high, begins, lowest, highest⟩ :=
        following?_three (v := v) (by omega) three (by omega)
      have whole : 64 * (64 * ((v / 4096 % 16 + 224) % (1 <<< (6 - 2))) + (v / 64 % 64 + 128) % 64)
          + (v % 64 + 128) % 64 = v := by
        simp only [Nat.reduceSub, Nat.reduceShiftLeft]
        omega
      simp only [List.cons_append, List.nil_append]
      rw [cut_of_following? (by omega) (by omega) begins, cutFrom_of_mem_range lowest highest,
        if_neg Nat.one_ne_zero, cutFrom_of_mem_range (by simp) (by simp; omega), if_pos rfl, whole,
        number]
  · next four =>
      obtain ⟨low, high, begins, lowest, highest⟩ :=
        following?_four (v := v) (by omega) (by omega)
      have whole : 64 * (64 * (64 * ((v / 262144 % 8 + 240) % (1 <<< (6 - 3)))
          + (v / 4096 % 64 + 128) % 64) + (v / 64 % 64 + 128) % 64) + (v % 64 + 128) % 64 = v := by
        simp only [Nat.reduceSub, Nat.reduceShiftLeft]
        omega
      simp only [List.cons_append, List.nil_append]
      rw [cut_of_following? (by omega) (by omega) begins, cutFrom_of_mem_range lowest highest,
        if_neg (by omega), cutFrom_of_mem_range (by simp) (by simp; omega), if_neg Nat.one_ne_zero,
        cutFrom_of_mem_range (by simp) (by simp; omega), if_pos rfl, whole, number]

/-- The bytes of a text are cut into its characters, whatever stands behind them, by induction on
the text.
-/
theorem cut_encode_append (text : List Char) (rest : List UInt8)
    : cut (encode text ++ rest) = text.map .char ++ cut rest := by
  induction text with
  | nil => rfl
  | cons c text ih =>
      rw [encode_cons, List.append_assoc, cut_char, ih]
      rfl

/-- No bytes are cut into no pieces. -/
theorem cut_nil : cut [] = [] := by
  simp [cut, cutFrom]

/-- The bytes of a text are cut into its characters. -/
theorem cut_encode (text : List Char) : cut (encode text) = text.map .char := by
  simpa [cut_nil] using cut_encode_append text []

/-- The bytes of a text are decoded as the text. -/
theorem decode?_encode (text : List Char) : decode? (encode text) = some text := by
  have whole : text.mapM (fun c => some c) = some text :=
    List.mapM_pure.trans (congrArg some (List.map_id text))
  rw [decode?, cut_encode, List.mapM_map]
  exact whole

/-- In the bytes of a text nothing is replaced. -/
theorem decodeReplacing_encode (text : List Char) : decodeReplacing (encode text) = text := by
  simp [decodeReplacing, cut_encode, Function.comp_def]

/-- The bytes of a text are read as the text. -/
theorem readable_bytes (text : String) : readable (bytes text) = text := by
  rw [readable, bytes_eq_encode, decodeReplacing_encode, String.ofList_toList]

-----------------------------------------------------------------------------------------
-- Characters of one byte
-----------------------------------------------------------------------------------------

section Ascii

variable {c : Char}

/-- A character of ASCII is one byte, which is its number. -/
theorem utf8EncodeChar_of_ascii (ascii : c.toNat < 0x80)
    : String.utf8EncodeChar c = [.ofNat c.toNat] := by
  have one : c.val.toNat ≤ 127 := Nat.le_of_lt_succ ascii
  simp only [String.utf8EncodeChar, if_pos one]
  rfl

/-- Characters of more than one byte have no byte below 128. -/
theorem ascii_of_mem_utf8EncodeChar {b : UInt8} (member : b ∈ String.utf8EncodeChar c)
    (ascii : b.toNat < 0x80)
    : c.toNat = b.toNat := by
  unfold String.utf8EncodeChar at member
  have same : c.val.toNat = c.toNat := rfl
  rw [same] at member
  generalize c.toNat = v at member
  dsimp only at member
  split at member
  · next one =>
      rw [List.mem_singleton] at member
      subst member
      rw [UInt8.toNat_ofNat']
      omega
  · -- Every byte is one of those that the first byte leads, or the first byte itself
    split at member
    · simp only [List.mem_cons, List.not_mem_nil, or_false] at member
      rcases member with rfl | rfl <;> simp only [UInt8.toNat_ofNat'] at ascii <;> omega
    split at member
    · simp only [List.mem_cons, List.not_mem_nil, or_false] at member
      rcases member with rfl | rfl | rfl <;> simp only [UInt8.toNat_ofNat'] at ascii <;> omega
    · simp only [List.mem_cons, List.not_mem_nil, or_false] at member
      rcases member with rfl | rfl | rfl | rfl <;> simp only [UInt8.toNat_ofNat'] at ascii <;> omega

/-- The number of a character of ASCII is that of its byte. -/
theorem toNat_byte (ascii : c.toNat < 0x80) : (UInt8.ofNat c.toNat).toNat = c.toNat := by
  rw [UInt8.toNat_ofNat']
  omega

/-- The byte of a character of ASCII is in a text's bytes if the character is in the text. -/
theorem mem_encode_iff_of_ascii {text : List Char} (ascii : c.toNat < 0x80)
    : .ofNat c.toNat ∈ encode text ↔ c ∈ text := by
  rw [encode, List.mem_flatMap]
  constructor
  · rintro ⟨other, member, byte⟩
    have same := ascii_of_mem_utf8EncodeChar byte (by rwa [toNat_byte ascii])
    rw [toNat_byte ascii] at same
    rwa [← Char.toNat_inj.mp same]
  · intro member
    exact ⟨c, member, by simp [utf8EncodeChar_of_ascii ascii]⟩

/-- A text whose bytes end in a character of ASCII ends in the character. -/
theorem getLast?_encode_of_ascii {text : List Char} (ascii : c.toNat < 0x80)
    (last : (encode text).getLast? = some (.ofNat c.toNat))
    : text.getLast? = some c := by
  rcases List.eq_nil_or_concat text with rfl | ⟨front, other, rfl⟩
  · cases last
  · have nonempty : String.utf8EncodeChar other ≠ [] := String.utf8EncodeChar_ne_nil
    rw [List.concat_eq_append, encode_append, encode_cons, List.getLast?_append] at last
    have byte : UInt8.ofNat c.toNat ∈ String.utf8EncodeChar other := by
      apply List.mem_of_getLast?
      simpa [encode, nonempty] using last
    have same := ascii_of_mem_utf8EncodeChar byte (by rwa [toNat_byte ascii])
    rw [toNat_byte ascii] at same
    rw [List.concat_eq_append, List.getLast?_concat, Char.toNat_inj.mp same]

/-- The number read so far of a character of several bytes, of which `owed` are due, is so large
that no character of one byte comes of it.
-/
def Large (owed value : Nat) (low : UInt8) : Prop :=
  owed = 0 ∨ (owed = 1 ∧ 2 ≤ value) ∨ (owed = 2 ∧ (1 ≤ value ∨ 0xa0 ≤ low.toNat))
    ∨ (owed = 3 ∧ (1 ≤ value ∨ 0x90 ≤ low.toNat))

/-- A character that takes more than one byte has a number beyond ASCII. -/
theorem large_of_following? {b low high : UInt8} {length : Nat}
    (begins : following? b = some (length, low, high))
    : Large length (leadValue b length) low ∧ high.toNat ≤ 0xbf := by
  simp only [following?, UInt8.le_iff_toNat_le, ← UInt8.toNat_inj, UInt8.reduceToNat] at begins
  simp only [Large, leadValue, Nat.shiftLeft_eq, Nat.one_mul]
  -- By cases on the first byte: each line of the table has a length of its own
  split at begins
  · cases begins
    exact ⟨by omega, by decide⟩
  split at begins
  · cases begins
    exact ⟨.inr (.inr (.inl ⟨rfl, .inr (by decide)⟩)), by decide⟩
  split at begins
  · cases begins
    exact ⟨by omega, by decide⟩
  split at begins
  · cases begins
    exact ⟨by omega, by decide⟩
  split at begins
  · cases begins
    exact ⟨.inr (.inr (.inr ⟨rfl, .inr (by decide)⟩)), by decide⟩
  split at begins
  · cases begins
    exact ⟨by omega, by decide⟩
  split at begins
  · cases begins
    exact ⟨by omega, by decide⟩
  · cases begins

/-- Every further byte leaves the number large. -/
theorem Large.next {owed value : Nat} {low b : UInt8} (large : Large (owed + 1) value low)
    (lowest : low ≤ b) (byte : b.toNat ≤ 0xbf)
    : if owed = 0 then 0x80 ≤ 64 * value + b.toNat % 64
      else Large owed (64 * value + b.toNat % 64) 0x80 := by
  simp only [UInt8.le_iff_toNat_le] at lowest
  simp only [Large] at large ⊢
  split
  · omega
  · omega

/-- The number of a byte is that of the character with the number. -/
theorem toNat_ofNat_byte (b : UInt8) : (Char.ofNat b.toNat).toNat = b.toNat := by
  have valid : b.toNat.isValidChar := .inl (Nat.lt_trans b.toNat_lt (by decide))
  rw [Char.ofNat, dif_pos valid]
  rfl

/-- A character beyond ASCII is none of ASCII. -/
theorem ofNat_ne_of_large {value : Nat} (large : 0x80 ≤ value) (ascii : c.toNat < 0x80)
    (solid : c.toNat ≠ 0)
    : Char.ofNat value ≠ c := by
  rintro rfl
  rw [Char.ofNat] at ascii solid
  by_cases valid : value.isValidChar
  · rw [dif_pos valid] at ascii
    exact absurd ascii (Nat.not_lt.mpr large)
  · rw [dif_neg valid] at solid
    exact solid rfl

/-- Where a character of one byte was read, its byte stands, by induction on the bytes. -/
theorem cutFrom_split {owed value : Nat} {low high : UInt8} {bytes : List UInt8}
    {before after : List Piece} (ascii : c.toNat < 0x80) (solid : c.toNat ≠ 0)
    (large : Large owed value low) (bounded : high.toNat ≤ 0xbf)
    (found : cutFrom owed value low high bytes = before ++ .char c :: after)
    : ∃ front back, bytes = front ++ .ofNat c.toNat :: back ∧ after = cut back := by
  induction bytes generalizing owed value low high before with
  | nil =>
      rw [cutFrom] at found
      have member : Piece.char c ∈ (if owed = 0 then [] else [Piece.illFormed]) := by simp [found]
      split at member <;> simp at member
  | cons b rest ih =>
      have later : ∀ {owed value low high before},
          Large owed value low → high.toNat ≤ 0xbf
          → cutFrom owed value low high rest = before ++ .char c :: after
          → ∃ front back, b :: rest = front ++ .ofNat c.toNat :: back ∧ after = cut back := by
        intro owed value low high before large bounded found
        obtain ⟨front, back, split, same⟩ := ih large bounded found
        exact ⟨b :: front, back, by rw [split]; rfl, same⟩
      have whole : Large 0 0 0 := .inl rfl
      have behind : ∀ {piece before}, piece ≠ .char c
          → piece :: cutFrom 0 0 0 0 rest = before ++ .char c :: after
          → ∃ front back, b :: rest = front ++ .ofNat c.toNat :: back ∧ after = cut back := by
        intro piece before other found
        cases before with
        | nil => exact absurd (List.cons.inj found).1 other
        | cons first before => exact later whole (by decide) (List.cons.inj found).2
      have beginning : ∀ {before}, cutFrom.begin b rest = before ++ .char c :: after
          → ∃ front back, b :: rest = front ++ .ofNat c.toNat :: back ∧ after = cut back := by
        intro before found
        rw [cutFrom.begin] at found
        split at found
        · cases before with
          | nil =>
              obtain ⟨same, tail⟩ := List.cons.inj found
              have byte : UInt8.ofNat c.toNat = b := by
                rw [← Piece.char.inj same, toNat_ofNat_byte, UInt8.ofNat_toNat]
              exact ⟨[], rest, by rw [byte]; rfl, tail.symm⟩
          | cons first before => exact later whole (by decide) (List.cons.inj found).2
        split at found
        · next begins =>
            obtain ⟨large, bounded⟩ := large_of_following? begins
            exact later large bounded found
        · have other : Piece.illFormed ≠ .char c := by
            intro same
            cases same
          exact behind other found
      rw [cutFrom] at found
      split at found
      · exact beginning found
      next going =>
      split at found
      · next inRange =>
          obtain ⟨owed, rfl⟩ := Nat.exists_eq_succ_of_ne_zero going
          have byte : b.toNat ≤ 0xbf :=
            Nat.le_trans (UInt8.le_iff_toNat_le.mp inRange.2) bounded
          have next := large.next inRange.1 byte
          dsimp only at found
          split at found
          · next last =>
              rw [if_pos (by omega)] at next
              have other : Piece.char (.ofNat (64 * value + b.toNat % 64)) ≠ .char c :=
                fun same => ofNat_ne_of_large next ascii solid (Piece.char.inj same)
              exact behind other found
          · next more =>
              rw [if_neg (by omega)] at next
              exact later next (by decide) found
      · cases before with
        | nil => cases found
        | cons first before => exact beginning (List.cons.inj found).2

/-- Pieces of characters of one byte are where the characters are, as the replacement character is
none of them.
-/
theorem decodeReplacing_split {bytes : List UInt8} {before after : List Char}
    (ascii : c.toNat < 0x80) (solid : c.toNat ≠ 0)
    (found : decodeReplacing bytes = before ++ c :: after)
    : ∃ front back, bytes = front ++ .ofNat c.toNat :: back ∧ after = decodeReplacing back := by
  obtain ⟨pieces, rest, whole, -, found⟩ := List.map_eq_append_iff.mp found
  obtain ⟨piece, rest, rfl, read, tail⟩ := List.map_eq_cons_iff.mp found
  cases piece with
  | char other =>
      obtain rfl : other = c := read
      obtain ⟨front, back, split, same⟩ := cutFrom_split ascii solid (.inl rfl) (by decide) whole
      exact ⟨front, back, split, by rw [← tail, same, decodeReplacing]⟩
  | illFormed =>
      subst read
      exact absurd ascii (by decide)

/-- A character of ASCII that was decoded was there as its byte. -/
theorem mem_of_mem_decodeReplacing {bytes : List UInt8} (ascii : c.toNat < 0x80)
    (solid : c.toNat ≠ 0) (member : c ∈ decodeReplacing bytes)
    : .ofNat c.toNat ∈ bytes := by
  obtain ⟨before, after, found⟩ := List.append_of_mem member
  obtain ⟨front, back, split, -⟩ := decodeReplacing_split ascii solid found
  simp [split]

/-- Bytes that are cut leave some piece, by induction on the bytes. -/
theorem cutFrom_ne_nil (owed value : Nat) (low high : UInt8) (bytes : List UInt8)
    (going : owed ≠ 0 ∨ bytes ≠ [])
    : cutFrom owed value low high bytes ≠ [] := by
  induction bytes generalizing owed value low high with
  | nil => simpa [cutFrom] using going
  | cons b rest ih =>
      have beginning : cutFrom.begin b rest ≠ [] := by
        rw [cutFrom.begin]
        split
        · exact List.cons_ne_nil _ _
        split
        · next begins =>
            refine ih _ _ _ _ (.inl ?_)
            simp only [following?] at begins
            grind
        · exact List.cons_ne_nil _ _
      rw [cutFrom]
      split
      · exact beginning
      split
      · dsimp only
        split
        · exact List.cons_ne_nil _ _
        · exact ih _ _ _ _ (.inl (by omega))
      · exact List.cons_ne_nil _ _

/-- Bytes that decode to a text which ends in a character of ASCII end in its byte. -/
theorem getLast?_of_getLast?_decodeReplacing {bytes : List UInt8} (ascii : c.toNat < 0x80)
    (solid : c.toNat ≠ 0) (last : (decodeReplacing bytes).getLast? = some c)
    : bytes.getLast? = some (.ofNat c.toNat) := by
  obtain ⟨before, found⟩ := List.getLast?_eq_some_iff.mp last
  obtain ⟨front, back, split, ended⟩ := decodeReplacing_split ascii solid found
  cases back with
  | nil => simp [split]
  | cons b back =>
      have more := cutFrom_ne_nil 0 0 0 0 (b :: back) (.inr nofun)
      exact absurd (List.map_eq_nil_iff.mp ended.symm) more

end Ascii

-----------------------------------------------------------------------------------------
-- Text before and behind other bytes
-----------------------------------------------------------------------------------------

/-- Text in front of bytes is decoded by itself. -/
theorem decode?_encode_append (text : List Char) (rest : List UInt8)
    : decode? (encode text ++ rest) = (decode? rest).map (text ++ ·) := by
  have alone := decode?_encode text
  rw [decode?, cut_encode] at alone
  rw [decode?, cut_encode_append, List.mapM_append, alone]
  change ((decode? rest).bind fun more => some (text ++ more)) = _
  cases decode? rest <;> rfl

/-- A first byte that others follow needs some, and none of ASCII. -/
theorem begun_of_following? {b low high : UInt8} {length : Nat}
    (begins : following? b = some (length, low, high))
    : length ≠ 0 ∧ 0x80 ≤ low := by
  unfold following? at begins
  repeat'
    split at begins
    · cases begins
      decide
  cases begins

/-- A byte below 128 is a character of its own, by induction on the bytes before it. -/
theorem cutFrom_concat {owed value : Nat} {low high b : UInt8} (ascii : b < 0x80)
    (above : owed ≠ 0 → 0x80 ≤ low) (bytes : List UInt8)
    : cutFrom owed value low high (bytes ++ [b])
      = cutFrom owed value low high bytes ++ [.char (.ofNat b.toNat)] := by
  have alone : cutFrom.begin b [] = [.char (.ofNat b.toNat)] := by
    simp [cutFrom.begin, ascii, cutFrom]
  induction bytes generalizing owed value low high with
  | nil =>
      rw [List.nil_append, cutFrom, cutFrom, alone]
      split
      · rfl
      · next going =>
          have outside : ¬ (low ≤ b ∧ b ≤ high) := fun inside =>
            absurd (above going) (UInt8.not_le.mpr (UInt8.lt_of_le_of_lt inside.1 ascii))
          rw [if_neg outside]
          rfl
  | cons first rest ih =>
      have whole : ∀ piece, piece :: cutFrom 0 0 0 0 (rest ++ [b])
          = (piece :: cutFrom 0 0 0 0 rest) ++ [.char (.ofNat b.toNat)] := by
        intro piece
        rw [ih (by simp), List.cons_append]
      have beginning : cutFrom.begin first (rest ++ [b])
          = cutFrom.begin first rest ++ [.char (.ofNat b.toNat)] := by
        rw [cutFrom.begin, cutFrom.begin]
        split
        · exact whole _
        split
        · next begins => exact ih fun _ => (begun_of_following? begins).2
        · exact whole _
      rw [List.cons_append, cutFrom, cutFrom]
      split
      · exact beginning
      split
      · dsimp only
        split
        · exact whole _
        · exact ih fun _ => by decide
      · rw [beginning, List.cons_append]

/-- Whether bytes are text does not depend on a byte below 128 behind them. -/
theorem isSome_decode?_concat {b : UInt8} (ascii : b < 0x80) (bytes : List UInt8)
    : (decode? (bytes ++ [b])).isSome = (decode? bytes).isSome := by
  have pieces : cut (bytes ++ [b]) = cut bytes ++ [.char (.ofNat b.toNat)] :=
    cutFrom_concat ascii (by simp) bytes
  rw [decode?, pieces, List.mapM_append]
  change ((decode? bytes).bind fun text => some (text ++ [.ofNat b.toNat])).isSome = _
  cases decode? bytes <;> rfl

/-- In the middle of a character of several bytes no character of one byte is read first, by
induction on the bytes.
-/
theorem head?_cutFrom_ne {c : Char} {owed value : Nat} {low high : UInt8} (ascii : c.toNat < 0x80)
    (solid : c.toNat ≠ 0) (going : owed ≠ 0) (large : Large owed value low)
    (bounded : high.toNat ≤ 0xbf) (bytes : List UInt8)
    : (cutFrom owed value low high bytes).head? ≠ some (.char c) := by
  induction bytes generalizing owed value low high with
  | nil =>
      rw [cutFrom, if_neg going]
      intro same
      cases same
  | cons b rest ih =>
      rw [cutFrom, if_neg going]
      split
      · next inRange =>
          obtain ⟨owed, rfl⟩ := Nat.exists_eq_succ_of_ne_zero going
          have byte : b.toNat ≤ 0xbf :=
            Nat.le_trans (UInt8.le_iff_toNat_le.mp inRange.2) bounded
          have next := large.next inRange.1 byte
          dsimp only
          split
          · next last =>
              rw [if_pos (by omega)] at next
              intro same
              exact ofNat_ne_of_large next ascii solid (Piece.char.inj (Option.some.inj same))
          · next more =>
              rw [if_neg (by omega)] at next
              exact ih (by omega) next (by decide)
      · intro same
        cases same

/-- Text begins with a character of one byte exactly where its bytes begin with that byte. -/
theorem head?_decode? {c : Char} {bytes : List UInt8} {text : List Char} (ascii : c.toNat < 0x80)
    (solid : c.toNat ≠ 0) (read : decode? bytes = some text)
    : text.head? = some c ↔ bytes.head? = some (.ofNat c.toNat) := by
  constructor
  · intro first
    obtain ⟨rest, rfl⟩ := List.head?_eq_some_iff.mp first
    have piece : (cut bytes).head? = some (.char c) := by
      rw [decode?] at read
      cases pieces : cut bytes with
      | nil =>
          rw [pieces] at read
          cases read
      | cons piece more =>
          rw [pieces, List.mapM_cons, Option.bind_eq_bind, Option.bind_eq_some_iff] at read
          obtain ⟨char, whole, read⟩ := read
          obtain ⟨others, -, same⟩ := Option.bind_eq_some_iff.mp read
          cases piece with
          | illFormed => cases whole
          | char other =>
              cases whole
              rw [(List.cons.inj (Option.some.inj same)).1]
              rfl
    cases bytes with
    | nil =>
        rw [cut_nil] at piece
        cases piece
    | cons b rest =>
        rw [cut, cutFrom, if_pos rfl, cutFrom.begin] at piece
        split at piece
        · have same := Piece.char.inj (Option.some.inj piece)
          rw [← same, toNat_ofNat_byte, UInt8.ofNat_toNat]
          rfl
        split at piece
        · next begins =>
            obtain ⟨large, bounded⟩ := large_of_following? begins
            have going := (begun_of_following? begins).1
            exact absurd piece (head?_cutFrom_ne ascii solid going large bounded rest)
        · cases piece
  · intro first
    obtain ⟨rest, rfl⟩ := List.head?_eq_some_iff.mp first
    have front : UInt8.ofNat c.toNat :: rest = encode [c] ++ rest := by
      rw [encode_cons, utf8EncodeChar_of_ascii ascii]
      rfl
    rw [front, decode?_encode_append] at read
    obtain ⟨more, -, rfl⟩ := Option.map_eq_some_iff.mp read
    rfl

end SourceView.Text.Utf8
