/-! Whether a decimal number is too large for a double.
A number is read as a significand of 64 bits and a power of ten, each rounded to 53 significant
bits, and their product is rounded once more. A tie goes to the even neighbour.
-/

namespace SourceView.Json.Binary64

/-- The nearest number with 53 significant bits. -/
def round (n : Nat) : Nat :=
  if n < 1 <<< 53 then n
  else
    let unit := 1 <<< (n.log2 - 52)
    let quotient := n / unit
    let rest := n % unit
    if 2 * rest > unit ∨ (2 * rest = unit ∧ quotient % 2 = 1) then (quotient + 1) * unit
    else quotient * unit

/-- The digits that still fit into a significand of 64 bits: the significand with them, and how
many they are.
-/
def absorb (significand : Nat) : List Nat → Nat × Nat
  | [] => (significand, 0)
  | d :: rest =>
    if 10 * significand + d < UInt64.size then
      let (value, count) := absorb (10 * significand + d) rest
      (value, count + 1)
    else (significand, 0)

/-- A significand times a power of ten is too large for a double. -/
def overflows (significand : Nat) (exponent : Int) : Bool :=
  if significand = 0 then false
  else
    match exponent with
    | .negSucc _ => false
    | .ofNat e => 308 < e || 1 <<< 1024 ≤ round (round significand * round (Nat.pow 10 e))

end SourceView.Json.Binary64
