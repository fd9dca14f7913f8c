import SourceView.Json.Basic
import SourceView.Json.Binary64
import SourceView.Json.Written

/-! What JSON texts stand for.
A string has to be well-formed text without half a pair of 16-bit units, a number must not be too
large for a double, and arrays and objects nest only so deep.
-/

namespace SourceView.Json

/-- The bytes of a string, with pairs of units joined. -/
def Mark.bytes? : List Mark → Option (List UInt8)
  | [] => some []
  | .byte b :: rest => (b :: ·) <$> bytes? rest
  | .unit n :: rest =>
    if 0xdc00 ≤ n ∧ n ≤ 0xdfff then none
    else if 0xd800 ≤ n ∧ n ≤ 0xdbff then
      match rest with
      | .unit low :: rest =>
        if 0xdc00 ≤ low ∧ low ≤ 0xdfff then
          let c := Char.ofNat (0x10000 + (n - 0xd800) * 0x400 + (low - 0xdc00))
          (String.utf8EncodeChar c ++ ·) <$> bytes? rest
        else none
      | _ => none
    else (String.utf8EncodeChar (.ofNat n) ++ ·) <$> bytes? rest

/-- The string that marks stand for. -/
def Mark.string? (marks : List Mark) : Option String := do
  return .ofList (← Text.Utf8.decode? (← Mark.bytes? marks))

namespace Numeral

/-- The number that digits stand for. -/
def value (digits : List Nat) : Nat :=
  digits.foldl (fun n d => 10 * n + d) 0

/-- A numeral's text. -/
def text (numeral : Numeral) : String :=
  let digits (ds : List Nat) : String := .ofList (ds.map Nat.digitChar)
  (if numeral.negative then "-" else "") ++ digits numeral.whole
    ++ (if numeral.fraction.isEmpty then "" else "." ++ digits numeral.fraction)
    ++ match numeral.exponent with
      | none => ""
      | some (negative, ds) => "e" ++ (if negative then "-" else "") ++ digits ds

/-- The number is too large for a double. -/
def overflows (numeral : Numeral) : Bool :=
  let (significand, taken) := Binary64.absorb 0 numeral.whole
  let (significand, behind) := Binary64.absorb significand numeral.fraction
  let exponent : Int :=
    match numeral.exponent with
    | none => 0
    | some (negative, ds) => if negative then -(value ds : Int) else value ds
  Binary64.overflows significand
    ((numeral.whole.length - taken : Int) - behind + exponent)

/-- A plain whole number within 64 bits, the sign included. A zero with a sign is none. -/
def whole? (numeral : Numeral) : Option Int :=
  if numeral.fraction.isEmpty && numeral.exponent.isNone then
    let n := value numeral.whole
    if numeral.negative then if 1 ≤ n ∧ n ≤ 0x8000000000000000 then some (-n) else none
    else if n < UInt64.size then some n else none
  else none

/-- The number that a numeral stands for. -/
def number? (numeral : Numeral) : Option Number :=
  match numeral.whole? with
  | some n => some (.whole n)
  | none => if numeral.overflows then none else some (.other numeral.text)

end Numeral

namespace Written

mutual

/-- The value that a tree stands for, if arrays and objects nest at most `depth` deep. -/
def value? (depth : Nat) : Written → Option Json
  | null => some .null
  | bool value => some (.bool value)
  | number numeral => Json.number <$> numeral.number?
  | string marks => Json.string <$> Mark.string? marks
  | array items =>
    match depth with
    | 0 => none
    | depth + 1 => Json.array <$> items? depth items
  | object members =>
    match depth with
    | 0 => none
    | depth + 1 => Json.object <$> members? depth members

/-- The values that trees stand for. -/
def items? (depth : Nat) : List Written → Option (List Json)
  | [] => some []
  | item :: rest => do return (← value? depth item) :: (← items? depth rest)

/-- The members that trees stand for. -/
def members? (depth : Nat) : List (List Mark × Written) → Option (List (String × Json))
  | [] => some []
  | (name, value) :: rest => do
    return (← Mark.string? name, ← value? depth value) :: (← members? depth rest)

end

end Written

/-- How deep arrays and objects may nest in a text that is read as a whole. -/
def maxDepth : Nat := 127

/-- The value that a text stands for. -/
def parse? (text : List UInt8) : Option Json := do
  (← Written.read? text).value? maxDepth

end SourceView.Json
