namespace ReplicatedLog

/-- A point in time: seconds since 1970 began, and nanoseconds behind them. A leap second shows as
    nanoseconds of `10 ^ 9` and more behind the second before it. -/
structure Instant where
  seconds : Int
  nanos : Nat := 0
  deriving DecidableEq, Repr, Inhabited

/-- A day of the calendar. -/
structure Date where
  year : Int
  month : Nat
  day : Nat
  deriving DecidableEq, Repr

namespace Date

def isLeap (year : Int) : Bool :=
  year % 4 = 0 ∧ (year % 100 ≠ 0 ∨ year % 400 = 0)

def daysInMonth (year : Int) (month : Nat) : Nat :=
  if month = 2 then if isLeap year then 29 else 28
  else if month = 4 ∨ month = 6 ∨ month = 9 ∨ month = 11 then 30
  else 31

def IsValid (date : Date) : Prop :=
  1 ≤ date.month ∧ date.month ≤ 12 ∧ 1 ≤ date.day ∧ date.day ≤ daysInMonth date.year date.month

instance (date : Date) : Decidable date.IsValid :=
  by unfold IsValid; infer_instance

/-- Days from the first of March of the year 0 to the first of January 1970. -/
def epoch : Int := 719468

/-- Days since 1970 began. A year is counted from its first of March, so that a leap day is the
    last of its year. -/
def toDays (date : Date) : Int :=
  let year := if date.month ≤ 2 then date.year - 1 else date.year
  let month := (date.month + 9) % 12
  let era := year / 400
  let yearOfEra := (year % 400).toNat
  let dayOfYear := (153 * month + 2) / 5 + date.day - 1
  let dayOfEra := 365 * yearOfEra + yearOfEra / 4 - yearOfEra / 100 + dayOfYear
  era * 146097 + dayOfEra - epoch

/-- The date that lies `days` days after 1970 began. The last century of an era and the last
    year of four are a day longer than the others. -/
def ofDays (days : Int) : Date :=
  let era := (days + epoch) / 146097
  let dayOfEra := ((days + epoch) % 146097).toNat
  let century := min (dayOfEra / 36524) 3
  let dayOfCentury := dayOfEra - 36524 * century
  let four := dayOfCentury / 1461
  let dayOfFour := dayOfCentury - 1461 * four
  let one := min (dayOfFour / 365) 3
  let dayOfYear := dayOfFour - 365 * one
  let month := (5 * dayOfYear + 2) / 153
  let year := era * 400 + (100 * century + 4 * four + one : Nat)
  { year := if month < 10 then year else year + 1
    month := if month < 10 then month + 3 else month - 9
    day := dayOfYear - (153 * month + 2) / 5 + 1 }

end Date

/-- A time of day. -/
structure ClockTime where
  hour : Nat
  minute : Nat
  second : Nat
  deriving DecidableEq, Repr

namespace ClockTime

/-- A minute may end with a leap second. -/
def IsValid (time : ClockTime) : Prop :=
  time.hour < 24 ∧ time.minute < 60 ∧ time.second ≤ 60

instance (time : ClockTime) : Decidable time.IsValid :=
  by unfold IsValid; infer_instance

end ClockTime

namespace Instant

/-- The date and time of day of an instant; fractions of a second are left out. -/
def civil (instant : Instant) : Date × ClockTime :=
  let second := (instant.seconds % 86400).toNat
  (Date.ofDays (instant.seconds / 86400),
    { hour := second / 3600, minute := second / 60 % 60, second := second % 60 })

/-- The instant of a date and time of day, none if there is no such date or time. -/
def ofCivil? (date : Date) (time : ClockTime) : Option Instant :=
  if date.IsValid ∧ time.IsValid then
    let minutes := date.toDays * 86400 + (time.hour * 3600 + time.minute * 60 : Nat)
    some (if time.second = 60 then ⟨minutes + 59, 1000000000⟩ else ⟨minutes + time.second, 0⟩)
  else none

/-- The instant a number of nanoseconds after the start of 1970. -/
def ofNanos (nanos : Nat) : Instant :=
  ⟨nanos / 1000000000, nanos % 1000000000⟩

/-- Whole and fractional time from `start` to `stop` in nanoseconds, 0 where `stop` is earlier. -/
def nanosSince (stop start : Instant) : Nat :=
  (stop.seconds * 1000000000 + stop.nanos - (start.seconds * 1000000000 + start.nanos)).toNat

/-- The time from `created` to `now` as the calendar tells it, in nanoseconds, 0 where `now` is
    earlier. A leap second at one end counts as a second of its own once the other end, by its time of
    day, lies beyond it. -/
def age (now created : Instant) : Nat :=
  let passed := now.seconds * 1000000000 + now.nanos - (created.seconds * 1000000000 + created.nanos)
  let leap : Int :=
    if created.seconds % 86400 < now.seconds % 86400 ∧ 1000000000 ≤ created.nanos then 1000000000
    else if now.seconds % 86400 < created.seconds % 86400 ∧ 1000000000 ≤ now.nanos then -1000000000
    else 0
  (passed + leap).toNat

end Instant

end ReplicatedLog
