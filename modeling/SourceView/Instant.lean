/-! Moments in whole seconds since 1970, and their text in universal time.
Days are counted in years that begin in March, so that a leap day is the last day of its year.
-/

namespace SourceView

/-- A moment from 1970 to the end of the year 262142, the last that has a text. -/
structure Instant where
  seconds : Nat
  seconds_lt : seconds < 8210266876800
  deriving DecidableEq

namespace Instant

/-- The moment this many seconds after 1970 began, if it came later and has a text. -/
def ofSeconds? (seconds : Int) : Option Instant :=
  match seconds with
  | .ofNat (n + 1) => if h : n + 1 < 8210266876800 then some ⟨n + 1, h⟩ else none
  | _ => none

/-- A day by the calendar: year, month and day of the month. -/
structure Date where
  year : Nat
  month : Nat
  day : Nat
  deriving DecidableEq, Repr

/-- The date this many days after the first of January 1970. A cycle of four hundred years has
146097 days, and begins with the first of March.
-/
def Date.ofDays (days : Nat) : Date :=
  let shifted := days + 719468
  let cycle := shifted / 146097
  let inCycle := shifted % 146097
  let year := (inCycle - inCycle / 1460 + inCycle / 36524 - inCycle / 146096) / 365
  let inYear := inCycle - (365 * year + year / 4 - year / 100)
  let month := (5 * inYear + 2) / 153
  let day := inYear - (153 * month + 2) / 5 + 1
  {
    year := 400 * cycle + year + (if month < 10 then 0 else 1)
    month := if month < 10 then month + 3 else month - 9
    day }

/-- A number with at least so many digits. -/
def padded (width n : Nat) : String :=
  let digits := toString n
  .ofList (List.replicate (width - digits.length) '0') ++ digits

/-- The text of a moment, such as `2023-11-14T22:13:20Z`. A year of five or more digits has a
plus sign.
-/
def render (instant : Instant) : String :=
  let date := Date.ofDays (instant.seconds / 86400)
  let rest := instant.seconds % 86400
  (if date.year > 9999 then "+" else "") ++ padded 4 date.year
    ++ "-" ++ padded 2 date.month ++ "-" ++ padded 2 date.day
    ++ "T" ++ padded 2 (rest / 3600) ++ ":" ++ padded 2 (rest / 60 % 60)
    ++ ":" ++ padded 2 (rest % 60) ++ "Z"

end Instant

end SourceView
