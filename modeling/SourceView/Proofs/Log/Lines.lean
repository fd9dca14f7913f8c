import SourceView.History.Log
import SourceView.Proofs.Text.Decimal
import SourceView.Proofs.Text.Lines
import SourceView.Proofs.Text.Utf8

/-! What the lines of a log say.
A line is known by how it begins. What was written behind that reads back as it was meant.
-/

namespace SourceView.Log

open Text (ended)
open Text.Utf8 (bytes encode)

-----------------------------------------------------------------------------------------
-- The ends of lines
-----------------------------------------------------------------------------------------

section Ends

variable {line text : List UInt8}

/-- Of a line with its end only the text is left, without a carriage return at its end. -/
theorem withoutEnd_ended (text : List UInt8)
    : withoutEnd (ended text)
      = if text.getLast? = some 0x0d then text.dropLast else text := by
  simp [withoutEnd, ended]

/-- Of a line with its end the text is left if it does not end in a carriage return. -/
theorem withoutEnd_ended_of_ne (unreturned : text.getLast? ≠ some 0x0d)
    : withoutEnd (ended text) = text := by
  rw [withoutEnd_ended, if_neg unreturned]

/-- What is left of a line with its end is the beginning of the text. -/
theorem withoutEnd_ended_begins (text : List UInt8) : withoutEnd (ended text) <+: text := by
  rw [withoutEnd_ended]
  split
  · exact List.dropLast_prefix text
  · exact List.prefix_rfl

/-- What is left of a line is its beginning. -/
theorem withoutEnd_begins (line : List UInt8) : withoutEnd line <+: line := by
  rw [withoutEnd]
  split
  · split
    · exact (List.dropLast_prefix _).trans (List.dropLast_prefix line)
    · exact List.dropLast_prefix line
  · split
    · exact List.dropLast_prefix line
    · exact List.prefix_rfl

/-- What is left of a line of a log has no line feed. -/
theorem unbroken_withoutEnd {log : List UInt8} (member : line ∈ Text.byteLines log)
    : 0x0a ∉ withoutEnd line := by
  obtain ⟨text, unbroken, same⟩ := Text.unbroken_of_mem_byteLines member
  intro feed
  rcases same with rfl | rfl
  · exact unbroken ((withoutEnd_ended_begins text).subset feed)
  · exact unbroken ((withoutEnd_begins line).subset feed)

/-- A text without a line feed has none in its bytes. -/
theorem unbroken_encode {text : List Char} (unbroken : '\n' ∉ text) : 0x0a ∉ encode text := by
  intro feed
  exact unbroken ((Text.Utf8.mem_encode_iff_of_ascii (by decide)).mp feed)

/-- The text fits into a line, and no part of it is taken for the end of the line. -/
def FitsLine (text : List Char) : Prop :=
  '\n' ∉ text ∧ text.getLast? ≠ some '\r'

instance (text : List Char) : Decidable (FitsLine text) :=
  inferInstanceAs (Decidable (_ ∧ _))

/-- Characters other than line feeds and carriage returns fit on a line. -/
theorem FitsLine.of_forall {text : List Char} (inside : ∀ c ∈ text, c ≠ '\n' ∧ c ≠ '\r')
    : FitsLine text :=
  ⟨fun feed => (inside _ feed).1 rfl, fun last => (inside _ (List.mem_of_getLast? last)).2 rfl⟩

/-- Texts that fit on a line fit there one behind the other. -/
theorem FitsLine.append {first rest : List Char} (fits : FitsLine first) (fitsToo : FitsLine rest)
    : FitsLine (first ++ rest) := by
  constructor
  · simp [fits.1, fitsToo.1]
  · rw [List.getLast?_append]
    cases last : rest.getLast? with
    | none => exact fits.2
    | some c =>
        rw [Option.some_or, ← last]
        exact fitsToo.2

/-- What is left of a line is the text without the carriage return at its end. -/
theorem withoutEnd_ended_encode (text : List Char)
    : withoutEnd (ended (encode text)) = encode (Text.dropReturn text) := by
  rw [Text.dropReturn]
  split
  · next returned =>
      obtain ⟨kept, rfl⟩ := List.getLast?_eq_some_iff.mp returned
      have last : encode (kept ++ ['\r']) = encode kept ++ [0x0d] := by
        rw [Text.Utf8.encode_append]
        rfl
      rw [last, withoutEnd_ended, if_pos (by simp), List.dropLast_concat, List.dropLast_concat]
  · next other =>
      apply withoutEnd_ended_of_ne
      intro last
      exact other (Text.Utf8.getLast?_encode_of_ascii (by decide) last)

/-- Dropping a carriage return leaves a beginning of the text. -/
theorem dropReturn_prefix_self (text : List Char) : Text.dropReturn text <+: text := by
  rw [Text.dropReturn]
  split
  · exact List.dropLast_prefix text
  · exact List.prefix_rfl

/-- A carriage return is dropped from the rest of a text if what stands before the rest does not end
in one.
-/
theorem dropReturn_append {first : List Char} (unreturned : first.getLast? ≠ some '\r')
    (rest : List Char)
    : Text.dropReturn (first ++ rest) = first ++ Text.dropReturn rest := by
  rw [Text.dropReturn, Text.dropReturn, List.getLast?_append]
  cases last : rest.getLast? with
  | none =>
      rw [List.getLast?_eq_none_iff.mp last, Option.none_or, if_neg unreturned]
      rfl
  | some c =>
      obtain ⟨kept, rfl⟩ := List.getLast?_eq_some_iff.mp last
      rw [Option.some_or, ← List.append_assoc, List.dropLast_concat, List.dropLast_concat,
        List.append_assoc, apply_ite (first ++ ·)]

/-- Of a text that fits on a line its bytes are left. -/
theorem FitsLine.withoutEnd_ended {text : List Char} (fits : FitsLine text)
    : withoutEnd (ended (encode text)) = encode text := by
  rw [withoutEnd_ended_encode, Text.dropReturn, if_neg fits.2]

/-- Of two texts that fit on a line the bytes of both are left. -/
theorem withoutEnd_ended_bytes_append {start text : String} (whole : FitsLine start.toList)
    (fits : FitsLine text.toList)
    : withoutEnd (ended (bytes (start ++ text))) = bytes start ++ bytes text := by
  have inside : FitsLine (start ++ text).toList := by
    rw [String.toList_append]
    exact whole.append fits
  rw [← Text.Utf8.bytes_append, Text.Utf8.bytes_eq_encode, inside.withoutEnd_ended]

/-- The end of the line takes at most a part of what comes last. -/
theorem withoutEnd_ended_encode_append {first : List Char} (fits : FitsLine first)
    (rest : List Char)
    : ∃ kept,
        kept <+: rest ∧ withoutEnd (ended (encode (first ++ rest))) = encode (first ++ kept) := by
  refine ⟨Text.dropReturn rest, dropReturn_prefix_self rest, ?_⟩
  rw [withoutEnd_ended_encode, dropReturn_append fits.2]

/-- What is read of the inside of a line has no line feed in it. -/
theorem feed_not_mem_readable (unbroken : 0x0a ∉ text)
    : '\n' ∉ (Text.Utf8.readable text).toList := by
  intro feed
  rw [Text.Utf8.readable, String.toList_ofList] at feed
  exact unbroken (Text.Utf8.mem_of_mem_decodeReplacing (by decide) (by decide) feed)

/-- Bytes that do not end in a carriage return do not read as a text that does. -/
theorem getLast?_readable_ne (unreturned : text.getLast? ≠ some 0x0d)
    : (Text.Utf8.readable text).toList.getLast? ≠ some '\r' := by
  intro last
  rw [Text.Utf8.readable, String.toList_ofList] at last
  exact unreturned (Text.Utf8.getLast?_of_getLast?_decodeReplacing (by decide) (by decide) last)

end Ends

-----------------------------------------------------------------------------------------
-- How lines begin
-----------------------------------------------------------------------------------------

section Beginnings

variable {line rest : List UInt8} {start : String}

/-- What stands behind a beginning is found there. -/
theorem behind?_append (start : String) (rest : List UInt8)
    : behind? start (bytes start ++ rest) = some rest := by
  simp [behind?]

/-- What was found behind a beginning stands there. -/
theorem behind?_eq_some (found : behind? start line = some rest)
    : line = bytes start ++ rest := by
  rw [behind?] at found
  split at found
  · next starts =>
      obtain ⟨more, rfl⟩ := List.isPrefixOf_iff_prefix.mp starts
      have same : more = rest := by simpa using found
      rw [same]
  · cases found

/-- A line that begins with another byte begins otherwise. -/
theorem behind?_eq_none {b : UInt8} (first : (bytes start).head? = some b)
    (other : line.head? ≠ some b)
    : behind? start line = none := by
  rw [behind?, if_neg]
  intro starts
  obtain ⟨more, rfl⟩ := List.isPrefixOf_iff_prefix.mp starts
  exact other (by rw [List.head?_append, first]; rfl)

/-- The bytes with which the line of a commit begins. -/
theorem bytes_commit
    : bytes "commit " = [0x63, 0x6f, 0x6d, 0x6d, 0x69, 0x74, 0x20] :=
  Text.Utf8.bytes_eq_encode _

/-- The bytes with which the line of a path before a change begins. -/
theorem bytes_oldPath : bytes "--- " = [0x2d, 0x2d, 0x2d, 0x20] :=
  Text.Utf8.bytes_eq_encode _

/-- The bytes with which the line of a path behind a change begins. -/
theorem bytes_newPath : bytes "+++ " = [0x2b, 0x2b, 0x2b, 0x20] :=
  Text.Utf8.bytes_eq_encode _

/-- The bytes with which the line of a hunk begins. -/
theorem bytes_hunk : bytes "@@ " = [0x40, 0x40, 0x20] :=
  Text.Utf8.bytes_eq_encode _

/-- The line of a commit is read as its hash. -/
theorem readLine_commit {hash : String} (found : hash? rest = some hash) (number : Nat)
    : readLine number (bytes "commit " ++ rest) = .ok (some (.commit hash, 0)) := by
  simp only [readLine, behind?_append, found]

/-- The line of a path before a change is read as the path. -/
theorem readLine_oldPath (number : Nat) (rest : List UInt8)
    : readLine number (bytes "--- " ++ rest)
      = .ok (some (.oldPath (Text.Utf8.readable rest), 0)) := by
  have first : (bytes "--- " ++ rest).head? = some 0x2d := by rw [bytes_oldPath]; rfl
  rw [readLine, behind?_eq_none (by rw [bytes_commit]; rfl) (by rw [first]; decide),
    behind?_append]

/-- The line of a path behind a change is read as the path. -/
theorem readLine_newPath (number : Nat) (rest : List UInt8)
    : readLine number (bytes "+++ " ++ rest)
      = .ok (some (.newPath (Text.Utf8.readable rest), 0)) := by
  have first : (bytes "+++ " ++ rest).head? = some 0x2b := by rw [bytes_newPath]; rfl
  rw [readLine, behind?_eq_none (by rw [bytes_commit]; rfl) (by rw [first]; decide),
    behind?_eq_none (by rw [bytes_oldPath]; rfl) (by rw [first]; decide), behind?_append]

/-- The line of a hunk is read as the hunk, and its payload is due unless it is bare. -/
theorem readLine_hunk {hunk : Hunk} {bare : Bool}
    (found : hunk? (bytes "@@ " ++ rest) = some (hunk, bare)) (number : Nat)
    : readLine number (bytes "@@ " ++ rest)
      = .ok (some (.hunk hunk, if bare then 0 else hunk.oldLength + hunk.newLength)) := by
  have first : (bytes "@@ " ++ rest).head? = some 0x40 := by rw [bytes_hunk]; rfl
  rw [readLine, behind?_eq_none (by rw [bytes_commit]; rfl) (by rw [first]; decide),
    behind?_eq_none (by rw [bytes_oldPath]; rfl) (by rw [first]; decide),
    behind?_eq_none (by rw [bytes_newPath]; rfl) (by rw [first]; decide), behind?_append]
  simp only [found]

/-- The words that lines which count begin with. -/
def starts : List String :=
  ["commit ", "--- ", "+++ ", "@@ "]

/-- A line that begins with none of the words says nothing that counts. -/
theorem readLine_of_plain (number : Nat) (plain : ∀ start ∈ starts, behind? start line = none)
    : readLine number line = .ok none := by
  simp only [starts, List.mem_cons, List.not_mem_nil, or_false, forall_eq_or_imp, forall_eq]
    at plain
  obtain ⟨commit, oldPath, newPath, hunk⟩ := plain
  rw [readLine, commit, oldPath, newPath, hunk]

end Beginnings

-----------------------------------------------------------------------------------------
-- Hashes
-----------------------------------------------------------------------------------------

/-- Hexadecimal digits are not blank. -/
theorem isBlank_of_isHexDigit {c : Char} (digit : isHexDigit c = true)
    : Text.isBlank c = false := by
  simp only [isHexDigit, Bool.or_eq_true, Bool.and_eq_true, decide_eq_true_eq, Char.le_def,
    UInt32.le_iff_toNat_le, Char.toNat_val, Char.reduceToNat] at digit
  simp only [Text.isBlank, Bool.or_eq_false_iff, Bool.and_eq_false_iff, decide_eq_false_iff_not,
    beq_eq_false_iff_ne]
  omega

/-- A word of hexadecimal digits is the first word of itself. -/
theorem firstWord?_of_isHexDigit {word : List Char} (nonempty : word ≠ [])
    (digits : ∀ c ∈ word, isHexDigit c = true)
    : Text.firstWord? word = some word := by
  have solid : ∀ c ∈ word, Text.isBlank c = false :=
    fun c member => isBlank_of_isHexDigit (digits c member)
  cases word with
  | nil => exact absurd rfl nonempty
  | cons c rest =>
      have first : Text.trimStart (c :: rest) = c :: rest :=
        List.dropWhile_cons_of_neg (by simp [solid c List.mem_cons_self])
      have whole : (c :: rest ++ []).takeWhile (fun c => !Text.isBlank c) = c :: rest ++ [] :=
        List.takeWhile_append_of_pos (by simpa using solid)
      rw [List.append_nil] at whole
      rw [Text.firstWord?, first]
      exact congrArg some whole

/-- Hexadecimal digits fit on a line. -/
theorem fitsLine_hash {hash : List Char} (digits : ∀ c ∈ hash, isHexDigit c = true)
    : FitsLine hash := by
  apply FitsLine.of_forall
  intro c member
  constructor <;> rintro rfl <;> cases digits _ member

/-- A hash that is long enough is read as its short hash. -/
theorem hash?_encode {hash : List Char} (long : hashLength ≤ hash.length)
    (digits : ∀ c ∈ hash, isHexDigit c = true)
    : hash? (encode hash) = some (shortHash (.ofList hash)) := by
  have nonempty : hash ≠ [] := by
    rintro rfl
    simp [hashLength] at long
  simp [hash?, Text.Utf8.decode?_encode, firstWord?_of_isHexDigit nonempty digits, long, shortHash]
  exact digits

/-- A hash that was found is as long as a hash is kept. -/
theorem hash?_eq_some {text : List UInt8} {hash : String} (found : hash? text = some hash)
    : hash.toList.length = hashLength ∧ ∀ c ∈ hash.toList, isHexDigit c = true := by
  simp only [hash?, Option.bind_eq_bind, Option.bind_eq_some_iff] at found
  obtain ⟨chars, -, word, -, kept⟩ := found
  split at kept
  · next long =>
      obtain rfl := Option.some.inj kept
      rw [String.toList_ofList]
      refine ⟨List.length_take_of_le long.1, fun c member => ?_⟩
      exact List.all_eq_true.mp long.2 c (List.mem_of_mem_take member)
  · cases kept

-----------------------------------------------------------------------------------------
-- Hunks
-----------------------------------------------------------------------------------------

/-- A start and a length. A length of one can be left out. -/
def rangeText (brief : Bool) (start length : Nat) : List Char :=
  Nat.toDigits 10 start ++ if brief && length == 1 then [] else ',' :: Nat.toDigits 10 length

/-- The line of a hunk, with what stands behind it. -/
def hunkText (briefOld briefNew : Bool) (hunk : Hunk) (heading : List Char) : List Char :=
  "@@ -".toList ++ (rangeText briefOld hunk.oldStart hunk.oldLength
    ++ ' ' :: '+' :: (rangeText briefNew hunk.newStart hunk.newLength
      ++ ' ' :: '@' :: '@' :: heading))

section Hunks

variable {brief briefOld briefNew : Bool} {start length : Nat} {hunk : Hunk} {heading : List Char}

/-- The text of a range is read as the range if its numbers are in bounds. -/
theorem range?_rangeText (startInBounds : start < sizeBound) (lengthInBounds : length < sizeBound)
    : range? (rangeText brief start length) = some (start, length) := by
  have plain : ',' ∉ Nat.toDigits 10 start := Text.Decimal.not_mem_toDigits (by decide) start
  rw [rangeText]
  split
  · next one =>
      obtain ⟨-, rfl⟩ : brief = true ∧ length = 1 := by simpa using one
      rw [List.append_nil, range?, Text.splitOnce?_eq_none plain]
      simp [Text.Decimal.read?_toDigits startInBounds]
  · rw [range?, Text.splitOnce?_append plain]
    simp [Text.Decimal.read?_toDigits startInBounds, Text.Decimal.read?_toDigits lengthInBounds]

/-- The text of a range has only digits and a comma. -/
theorem not_mem_rangeText {c : Char} (digit : c.isDigit = false) (comma : c ≠ ',')
    : c ∉ rangeText brief start length := by
  have plain := Text.Decimal.not_mem_toDigits digit
  rw [rangeText, List.mem_append, not_or]
  refine ⟨plain start, ?_⟩
  split
  · exact List.not_mem_nil
  · rw [List.mem_cons, not_or]
    exact ⟨comma, plain length⟩

/-- A hunk's line is read from its parts, which blanks keep apart. -/
theorem hunk?_hunkText (inBounds : InBounds hunk)
    : hunk? (encode (hunkText briefOld briefNew hunk heading))
      = some (hunk, decide (heading.head? = some '-')) := by
  have ⟨oldEnd, newEnd, _⟩ := inBounds
  have unspaced : ∀ {brief start length}, ' ' ∉ rangeText brief start length :=
    not_mem_rangeText (by decide) (by decide)
  have old : range? (rangeText briefOld hunk.oldStart hunk.oldLength)
      = some (hunk.oldStart, hunk.oldLength) :=
    range?_rangeText (by omega) (by omega)
  have new : range? (rangeText briefNew hunk.newStart hunk.newLength)
      = some (hunk.newStart, hunk.newLength) :=
    range?_rangeText (by omega) (by omega)
  simp [hunk?, hunkText, Text.Utf8.decode?_encode, behindChars?, Text.splitOnce?_append unspaced,
    old, new, inBounds]

/-- The text of a hunk goes on with what its heading goes on with. -/
theorem hunkText_append (heading more : List Char)
    : hunkText briefOld briefNew hunk (heading ++ more)
      = hunkText briefOld briefNew hunk heading ++ more := by
  simp [hunkText]

/-- The text of a hunk fits on a line if its heading does. -/
theorem fitsLine_hunkText (fits : FitsLine heading)
    : FitsLine (hunkText briefOld briefNew hunk heading) := by
  have plain : ∀ {brief start length}, FitsLine (rangeText brief start length) := by
    intro brief start length
    apply FitsLine.of_forall
    intro c member
    constructor <;> rintro rfl <;> exact not_mem_rangeText (by decide) (by decide) member
  have start : FitsLine "@@ -".toList := by decide
  have middle : FitsLine [' ', '+'] := by decide
  have last : FitsLine [' ', '@', '@'] := by decide
  exact start.append (plain.append (middle.append (plain.append (last.append fits))))

/-- A hunk's line is read as the hunk. The lines that it is about follow it, unless it is bare. -/
theorem readLine_hunkText (inBounds : InBounds hunk) (number : Nat)
    : readLine number (encode (hunkText briefOld briefNew hunk heading))
      = .ok (some (.hunk hunk,
          if heading.head? = some '-' then 0 else hunk.oldLength + hunk.newLength)) := by
  have starts : encode (hunkText briefOld briefNew hunk heading)
      = bytes "@@ " ++ encode ('-' :: (rangeText briefOld hunk.oldStart hunk.oldLength
        ++ ' ' :: '+' :: (rangeText briefNew hunk.newStart hunk.newLength
          ++ ' ' :: '@' :: '@' :: heading))) := by
    rw [Text.Utf8.bytes_eq_encode, ← Text.Utf8.encode_append]
    rfl
  have found : hunk? (encode (hunkText briefOld briefNew hunk heading))
      = some (hunk, decide (heading.head? = some '-')) :=
    hunk?_hunkText inBounds
  rw [starts] at found ⊢
  rw [readLine_hunk found]
  simp

/-- A hunk that was read has its numbers in bounds. -/
theorem hunk?_eq_some {line : List UInt8} {bare : Bool} (found : hunk? line = some (hunk, bare))
    : InBounds hunk := by
  simp only [hunk?, Option.bind_eq_bind, Option.bind_eq_some_iff] at found
  obtain ⟨_, -, _, -, _, -, _, -, _, -, _, -, _, -, _, -, found⟩ := found
  split at found
  · next inBounds =>
      obtain ⟨rfl, -⟩ := Prod.mk.inj (Option.some.inj found)
      exact inBounds
  · cases found

end Hunks

-----------------------------------------------------------------------------------------
-- What was read of a line
-----------------------------------------------------------------------------------------

/-- Where a record was read, the line says it. -/
theorem readLine_eq_some {number due : Nat} {line : List UInt8} {record : LogRecord}
    (read : readLine number line = .ok (some (record, due)))
    : match record with
      | .commit hash => ∃ rest, hash? rest = some hash
      | .oldPath path => ∃ rest, behind? "--- " line = some rest ∧ Text.Utf8.readable rest = path
      | .newPath path => ∃ rest, behind? "+++ " line = some rest ∧ Text.Utf8.readable rest = path
      | .hunk hunk => InBounds hunk := by
  unfold readLine at read
  split at read
  · next rest _ =>
      split at read
      · next found =>
          cases read
          exact ⟨rest, found⟩
      · cases read
  split at read
  · next rest begins =>
      cases read
      exact ⟨rest, begins, rfl⟩
  split at read
  · next rest begins =>
      cases read
      exact ⟨rest, begins, rfl⟩
  split at read
  · cases read
  split at read
  · next found =>
      cases read
      exact hunk?_eq_some found
  · cases read

end SourceView.Log
