import VariantCache.Time

/-!
# Dates written out

A date is written in the Gregorian calendar, extended to all years, with the
fraction of its second as short as it can be and at least one digit.
-/

namespace VariantCache.Calendar

/-- A day of the Gregorian calendar. -/
structure Day where
  year : Int
  month : Nat
  day : Nat
  deriving DecidableEq

/-- The days from the first of March of the year zero to the start of 1970. -/
def epochOffset : Int := 719468

/-- The days of four centuries. -/
def eraDays : Int := 146097

/-- The day that comes so many days after the first of January 1970. Years are counted
from March, so that the leap day is the last one. -/
def Day.ofEpochDays (days : Int) : Day :=
  let z := days + epochOffset
  let era := z.fdiv eraDays
  let dayOfEra := (z.fmod eraDays).toNat
  let yearOfEra := (dayOfEra - dayOfEra / 1460 + dayOfEra / 36524 - dayOfEra / 146096) / 365
  let dayOfYear := dayOfEra - (365 * yearOfEra + yearOfEra / 4 - yearOfEra / 100)
  let shifted := (5 * dayOfYear + 2) / 153
  let month := if shifted < 10 then shifted + 3 else shifted - 9
  let year := era * 400 + yearOfEra
  ⟨if month ≤ 2 then year + 1 else year, month, dayOfYear - (153 * shifted + 2) / 5 + 1⟩

/-- A number with zeros in front up to a width. -/
def padded (width n : Nat) : String :=
  let digits := toString n
  String.ofList (List.replicate (width - digits.length) '0') ++ digits

/-- A year with at least four digits. -/
def yearText (year : Int) : String :=
  if year < 0 then "-" ++ padded 4 year.natAbs else padded 4 year.natAbs

/-- The digits of a fraction of a second, without the zeros at the end. -/
def fractionText (nanos : Nat) : String :=
  let digits := (padded 9 nanos).toList
  let kept := (digits.reverse.dropWhile (· == '0')).reverse
  if kept.isEmpty then "0" else String.ofList kept

/-- A date as day, time of day and offset from universal time. -/
def text (t : Instant) : String :=
  let days := t.seconds.fdiv 86400
  let second := (t.seconds.fmod 86400).toNat
  let day := Day.ofEpochDays days
  yearText day.year ++ "-" ++ padded 2 day.month ++ "-" ++ padded 2 day.day ++ " " ++
    toString (second / 3600) ++ ":" ++ padded 2 (second / 60 % 60) ++ ":" ++
    padded 2 (second % 60) ++ "." ++ fractionText t.nanos ++ " +00:00:00"

end VariantCache.Calendar
