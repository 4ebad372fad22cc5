/-!
Points in time as civil fields in UTC.

* `Instant`: a date and a time of day, with a leap second where the second is sixty.
* `Instant.text`: the form `2024-01-02T03:04:05.250Z`, with none, three, six or nine places.
* `Instant.shiftMinutes?`: the instant some minutes later or earlier, less than a day.
* `Instant.ofMoment`: the instant of a reading of the clock.
-/

namespace Bringup

set_option autoImplicit false

/-- A reading of the clock: whole seconds since the start of 1970, and nanoseconds. -/
structure Moment where
  seconds : Nat
  nanos : Nat
deriving DecidableEq, Repr, Inhabited

/-- A date and a time of day in UTC. -/
structure Instant where
  year : Int
  month : Nat
  day : Nat
  hour : Nat
  minute : Nat
  /-- Sixty in a leap second. -/
  second : Nat
  nano : Nat
deriving DecidableEq, Repr, Inhabited

namespace Instant

/-- The year has a 29th of February. -/
def isLeapYear (year : Int) : Bool :=
  (year % 4 == 0 && year % 100 != 0) || year % 400 == 0

/-- The number of days of a month. -/
def daysIn (year : Int) (month : Nat) : Nat :=
  if month = 2 then (if isLeapYear year then 29 else 28)
  else if month = 4 ∨ month = 6 ∨ month = 9 ∨ month = 11 then 30
  else 31

/-- The first year that dates are kept for. -/
def firstYear : Int := -262143

/-- The last year that dates are kept for. -/
def lastYear : Int := 262142

/-- The fields name a day of the calendar and a time of that day. -/
def Valid (t : Instant) : Prop :=
  (firstYear ≤ t.year ∧ t.year ≤ lastYear) ∧ (1 ≤ t.month ∧ t.month ≤ 12) ∧
    (1 ≤ t.day ∧ t.day ≤ daysIn t.year t.month) ∧ t.hour ≤ 23 ∧ t.minute ≤ 59 ∧ t.second ≤ 60 ∧
    t.nano < 1000000000

instance (t : Instant) : Decidable t.Valid := by unfold Valid; infer_instance

/-- The same time on the day after, unless the calendar ends there. -/
def nextDay? (t : Instant) : Option Instant :=
  if t.day < daysIn t.year t.month then some { t with day := t.day + 1 }
  else if t.month < 12 then some { t with month := t.month + 1, day := 1 }
  else if t.year < lastYear then some { t with year := t.year + 1, month := 1, day := 1 }
  else none

/-- The same time on the day before, unless the calendar starts there. -/
def previousDay? (t : Instant) : Option Instant :=
  if 1 < t.day then some { t with day := t.day - 1 }
  else if 1 < t.month then
    some { t with month := t.month - 1, day := daysIn t.year (t.month - 1) }
  else if firstYear < t.year then some { t with year := t.year - 1, month := 12, day := 31 }
  else none

/-- The instant with its time of day set to a minute counted from midnight. -/
def atMinute (t : Instant) (minutes : Nat) : Instant :=
  { t with hour := minutes / 60, minute := minutes % 60 }

/-- The instant some minutes later, less than a day in either direction. -/
def shiftMinutes? (t : Instant) (minutes : Int) : Option Instant :=
  let total : Int := t.hour * 60 + t.minute + minutes
  if total < 0 then (t.previousDay?).map fun d => d.atMinute (total + 1440).toNat
  else if total < 1440 then some (t.atMinute total.toNat)
  else (t.nextDay?).map fun d => d.atMinute (total - 1440).toNat

/-! ## Text -/

/-- A number with leading zeros up to a width. -/
def padded (width n : Nat) : String :=
  let digits := Nat.toDigits 10 n
  String.ofList (List.replicate (width - digits.length) '0' ++ digits)

/-- The year, with a sign when four digits do not hold it. -/
def yearText (year : Int) : String :=
  if 0 ≤ year ∧ year ≤ 9999 then padded 4 year.toNat
  else (if year < 0 then "-" else "+") ++ padded 4 year.natAbs

/-- The places of the second that are needed, in groups of three. -/
def fractionText (nano : Nat) : String :=
  if nano = 0 then ""
  else if nano % 1000000 = 0 then "." ++ padded 3 (nano / 1000000)
  else if nano % 1000 = 0 then "." ++ padded 6 (nano / 1000)
  else "." ++ padded 9 nano

/-- The instant to the second, without the closing letter. -/
def secondsText (t : Instant) : String :=
  yearText t.year ++ "-" ++ padded 2 t.month ++ "-" ++ padded 2 t.day ++ "T" ++ padded 2 t.hour ++ ":"
    ++ padded 2 t.minute ++ ":" ++ padded 2 t.second

/-- The instant in full. -/
def text (t : Instant) : String := secondsText t ++ fractionText t.nano ++ "Z"

/-! ## The clock -/

/-- The date of a day counted from the start of 1970: years are counted from March, so that the leap
day is the last of its year, in eras of four hundred years. -/
def dateOfDay (days : Nat) : Int × Nat × Nat :=
  let z := days + 719468
  let era := z / 146097
  let dayOfEra := z % 146097
  let yearOfEra := (dayOfEra - dayOfEra / 1460 + dayOfEra / 36524 - dayOfEra / 146096) / 365
  let dayOfYear := dayOfEra - (365 * yearOfEra + yearOfEra / 4 - yearOfEra / 100)
  let shifted := (5 * dayOfYear + 2) / 153
  let day := dayOfYear - (153 * shifted + 2) / 5 + 1
  let month := if shifted < 10 then shifted + 3 else shifted - 9
  let year := yearOfEra + era * 400 + (if month ≤ 2 then 1 else 0)
  (year, month, day)

/-- The instant of a reading of the clock. -/
def ofMoment (m : Moment) : Instant :=
  let (year, month, day) := dateOfDay (m.seconds / 86400)
  let second := m.seconds % 86400
  { year, month, day, hour := second / 3600, minute := second / 60 % 60, second := second % 60,
    nano := m.nanos }

end Instant

end Bringup
