/-
Points in time, and how they are written.

A point in time is told in nanoseconds since the year 1970 began, and written as the date and the
time of day by universal time.  Of the fraction of a second the digits are written in groups of
three, as many as say something; there are none for a whole second.
-/

namespace ProposerBook

/-- A point in time, in nanoseconds since the year 1970 began. -/
structure Timestamp where
  nanoseconds : Nat
  deriving DecidableEq, Repr

namespace Timestamp

instance : Inhabited Timestamp := ⟨⟨0⟩⟩

/-- Year, month and day, so many days after 1970 began.  Years are counted from March here, so that
a leap day is the last of its year, and in cycles of 400 years, which are all of one length. -/
def date (days : Nat) : Nat × Nat × Nat :=
  let day := days + 719468
  let inCycle := day % 146097
  let year := (inCycle - inCycle / 1460 + inCycle / 36524 - inCycle / 146096) / 365
  let inYear := inCycle - (365 * year + year / 4 - year / 100)
  let fromMarch := (5 * inYear + 2) / 153
  let month := if fromMarch < 10 then fromMarch + 3 else fromMarch - 9
  (400 * (day / 146097) + year + (if month ≤ 2 then 1 else 0), month,
    inYear - (153 * fromMarch + 2) / 5 + 1)

/-- A number in `width` digits at least. -/
def padded (width n : Nat) : String :=
  let digits := Nat.toDigits 10 n
  String.ofList (List.replicate (width - digits.length) '0' ++ digits)

def yearText (year : Nat) : String :=
  if year ≤ 9999 then padded 4 year else "+" ++ padded 5 year

/-- The fraction of a second, in nanoseconds. -/
def fractionText (nanoseconds : Nat) : String :=
  if nanoseconds = 0 then ""
  else if nanoseconds % 1000000 = 0 then "." ++ padded 3 (nanoseconds / 1000000)
  else if nanoseconds % 1000 = 0 then "." ++ padded 6 (nanoseconds / 1000)
  else "." ++ padded 9 nanoseconds

def toText (t : Timestamp) : String :=
  let seconds := t.nanoseconds / 1000000000
  let (year, month, day) := date (seconds / 86400)
  let ofDay := seconds % 86400
  yearText year ++ "-" ++ padded 2 month ++ "-" ++ padded 2 day ++ "T"
    ++ padded 2 (ofDay / 3600) ++ ":" ++ padded 2 (ofDay / 60 % 60) ++ ":" ++ padded 2 (ofDay % 60)
    ++ fractionText (t.nanoseconds % 1000000000) ++ "Z"

end Timestamp

end ProposerBook
