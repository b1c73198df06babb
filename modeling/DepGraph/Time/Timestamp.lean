/-!
# Points in time

A timestamp counts seconds from the start of 1970, UTC, and nanoseconds within the second. It is
written as a date and a time of day with as many places as it needs, in groups of three.
-/

namespace DepGraph

/-- A point in time. -/
structure Timestamp where
  seconds : Int
  nanoseconds : Nat := 0
  deriving Repr, DecidableEq, Inhabited

namespace Timestamp

/-- The nanoseconds since the start of 1970. -/
def toNanoseconds (t : Timestamp) : Int :=
  t.seconds * 1000000000 + t.nanoseconds

/-- The nanoseconds of a day. -/
def dayNanoseconds : Int := 86400 * 1000000000

/-- The nanoseconds from one point in time to another. -/
def since (later earlier : Timestamp) : Int :=
  later.toNanoseconds - earlier.toNanoseconds

/-- The point in time so many days earlier. -/
def minusDays (t : Timestamp) (days : Nat) : Timestamp :=
  { t with seconds := t.seconds - 86400 * days }

/-! ## Dates -/

/-- A day of the calendar. -/
structure Date where
  year : Int
  month : Nat
  day : Nat
  deriving Repr, DecidableEq

/-- The date that is so many days after the first of January 1970. Years are counted from March, so
that the leap day is the last of its year, in eras of 400 years of the same length. -/
def dateOfDays (days : Int) : Date :=
  let shifted := days + 719468
  let era := Int.fdiv shifted 146097
  let dayOfEra := (Int.fmod shifted 146097).toNat
  let yearOfEra :=
    (dayOfEra - dayOfEra / 1460 + dayOfEra / 36524 - dayOfEra / 146096) / 365
  let dayOfYear := dayOfEra - (365 * yearOfEra + yearOfEra / 4 - yearOfEra / 100)
  let shiftedMonth := (5 * dayOfYear + 2) / 153
  let day := dayOfYear - (153 * shiftedMonth + 2) / 5 + 1
  let month := if shiftedMonth < 10 then shiftedMonth + 3 else shiftedMonth - 9
  let year := (yearOfEra : Int) + era * 400
  ⟨if month ≤ 2 then year + 1 else year, month, day⟩

/-! ## The written form -/

/-- The digits of a number, with zeros in front up to the given width. -/
def padded (width n : Nat) : String :=
  let digits := Nat.toDigits 10 n
  String.ofList (List.replicate (width - digits.length) '0' ++ digits)

/-- A year: four digits from 0 to 9999, and a sign and at least four digits beyond. -/
def yearText (year : Int) : String :=
  if 0 ≤ year && year ≤ 9999 then padded 4 year.natAbs
  else (if year < 0 then "-" else "+") ++ padded 4 year.natAbs

/-- The places after the seconds. -/
def fractionText (nanoseconds : Nat) : String :=
  if nanoseconds == 0 then ""
  else if nanoseconds % 1000000 == 0 then "." ++ padded 3 (nanoseconds / 1000000)
  else if nanoseconds % 1000 == 0 then "." ++ padded 6 (nanoseconds / 1000)
  else "." ++ padded 9 nanoseconds

/-- The written form. -/
def text (t : Timestamp) : String :=
  let date := dateOfDays (Int.fdiv t.seconds 86400)
  let second := (Int.fmod t.seconds 86400).toNat
  yearText date.year ++ "-" ++ padded 2 date.month ++ "-" ++ padded 2 date.day ++ "T" ++
    padded 2 (second / 3600) ++ ":" ++ padded 2 (second / 60 % 60) ++ ":" ++
    padded 2 (second % 60) ++ fractionText t.nanoseconds ++ "Z"

end Timestamp

end DepGraph
