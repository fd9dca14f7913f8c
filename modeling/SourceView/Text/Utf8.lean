/-! UTF-8 text: bytes of characters, and characters of bytes.
Bytes are cut into characters and ill-formed runs; a run ends before the first byte that no
well-formed character could have there. Strict decoding refuses every run, and replacement
decoding puts the replacement character in its place.
-/

namespace SourceView.Text.Utf8

/-- The bytes of a text. -/
def encode (text : List Char) : List UInt8 :=
  text.flatMap String.utf8EncodeChar

/-- The bytes of a string. -/
def bytes (text : String) : List UInt8 :=
  text.toUTF8.toList

/-- What bytes of text are cut into. -/
inductive Piece where
  | char (c : Char)
  /-- The longest run of bytes that begins no character or breaks one off. -/
  | illFormed
  deriving DecidableEq, Repr

/-- How many more bytes the character begun by `lead` has, with the range of the next one. -/
def following? (lead : UInt8) : Option (Nat × UInt8 × UInt8) :=
  if 0xc2 ≤ lead ∧ lead ≤ 0xdf then some (1, 0x80, 0xbf)
  else if lead = 0xe0 then some (2, 0xa0, 0xbf)
  else if lead = 0xed then some (2, 0x80, 0x9f)
  else if 0xe1 ≤ lead ∧ lead ≤ 0xef then some (2, 0x80, 0xbf)
  else if lead = 0xf0 then some (3, 0x90, 0xbf)
  else if 0xf1 ≤ lead ∧ lead ≤ 0xf3 then some (3, 0x80, 0xbf)
  else if lead = 0xf4 then some (3, 0x80, 0x8f)
  else none

/-- The part of a character's number that its first byte of `length` more holds. -/
def leadValue (lead : UInt8) (length : Nat) : Nat :=
  lead.toNat % (1 <<< (6 - length))

/-- Cut bytes into pieces. In the middle of a character `owed` more bytes are due, the next
of them between `low` and `high`, and `value` is the number read so far.
-/
def cutFrom (owed value : Nat) (low high : UInt8) : List UInt8 → List Piece
  | [] => if owed = 0 then [] else [.illFormed]
  | b :: rest =>
    if owed = 0 then begin b rest
    else if low ≤ b ∧ b ≤ high then
      let value := 64 * value + b.toNat % 64
      if owed = 1 then .char (.ofNat value) :: cutFrom 0 0 0 0 rest
      else cutFrom (owed - 1) value 0x80 0xbf rest
    else .illFormed :: begin b rest
where
  begin (b : UInt8) (rest : List UInt8) : List Piece :=
    if b < 0x80 then .char (.ofNat b.toNat) :: cutFrom 0 0 0 0 rest
    else
      match following? b with
      | some (length, low, high) => cutFrom length (leadValue b length) low high rest
      | none => .illFormed :: cutFrom 0 0 0 0 rest

/-- Cut bytes into characters and ill-formed runs. -/
def cut (bytes : List UInt8) : List Piece :=
  cutFrom 0 0 0 0 bytes

/-- The text that well-formed bytes stand for. -/
def decode? (bytes : List UInt8) : Option (List Char) :=
  (cut bytes).mapM fun
    | .char c => some c
    | .illFormed => none

/-- The text that bytes stand for, with U+FFFD for each ill-formed run. -/
def decodeReplacing (bytes : List UInt8) : List Char :=
  (cut bytes).map fun
    | .char c => c
    | .illFormed => '\ufffd'

/-- The string that bytes stand for, with U+FFFD for each ill-formed run. -/
def readable (bytes : List UInt8) : String :=
  .ofList (decodeReplacing bytes)

end SourceView.Text.Utf8
