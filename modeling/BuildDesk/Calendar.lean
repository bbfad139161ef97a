/-
Days and hours of the proleptic Gregorian calendar, in universal time.

Main definitions:
* `Calendar.Moment`, `Calendar.ofSeconds` — the date and time of day of a count
  of seconds since 1970;
* `Calendar.moment` — the same within the reach of clocks and calendars;
* `Moment.stamp`, `Moment.clock` — how the two are written.
-/
import BuildDesk.Number.Decompose

namespace BuildDesk.Calendar

/-- A date and a time of day. -/
structure Moment where
  year : Int
  month : Nat
  day : Nat
  hour : Nat
  minute : Nat
  second : Nat
  deriving DecidableEq, Repr

/-- The date of a count of days since 1970.  Eras have 400 years, and years begin
in March, so that leap days come last. -/
def dateOfDays (days : Int) : Int × Nat × Nat :=
  let shifted := days + 719468
  let era := shifted.fdiv 146097
  let dayOfEra := (shifted - era * 146097).toNat
  let yearOfEra := (dayOfEra - dayOfEra / 1460 + dayOfEra / 36524 - dayOfEra / 146096) / 365
  let dayOfYear := dayOfEra - (365 * yearOfEra + yearOfEra / 4 - yearOfEra / 100)
  let fromMarch := (5 * dayOfYear + 2) / 153
  let day := dayOfYear - (153 * fromMarch + 2) / 5 + 1
  let month := if fromMarch < 10 then fromMarch + 3 else fromMarch - 9
  let year := (yearOfEra : Int) + era * 400
  (if month ≤ 2 then year + 1 else year, month, day)

/-- The moment of a count of seconds since 1970. -/
def ofSeconds (seconds : Int) : Moment :=
  let days := seconds.fdiv 86400
  let rest := (seconds - days * 86400).toNat
  let (year, month, day) := dateOfDays days
  ⟨year, month, day, rest / 3600, rest / 60 % 60, rest % 60⟩

/-- Why a count of seconds has no moment. -/
inductive Undated
  /-- The count is too large for a clock. -/
  | uncounted
  /-- The system knows no date so far away. -/
  | unknown
  /-- The year is outside of the years 1 to 9999. -/
  | outside
  deriving DecidableEq, Repr

/-- A clock counts the seconds: the number fits in 64 bits with a sign. -/
def isCounted (seconds : Int) : Bool :=
  -(Number.twoTo 63 : Int) ≤ seconds && seconds < (Number.twoTo 63 : Int)

/-- The seconds of which the system knows a date: those of the years that fit in 32 bits
when they are counted from 1900. -/
def isDated (seconds : Int) : Bool :=
  -67768040609740800 ≤ seconds && seconds ≤ 67768036191676799

/-- The first second of the year 1. -/
def firstSecond : Int := -62135596800

/-- The last second of the year 9999. -/
def lastSecond : Int := 253402300799

/-- The moment of a count of seconds from `first` on. -/
def moment (first seconds : Int) : Except Undated Moment :=
  if !isCounted seconds then .error .uncounted
  else if !isDated seconds then .error .unknown
  else if first ≤ seconds && seconds ≤ lastSecond then .ok (ofSeconds seconds)
  else .error .outside

/-- A number with zeros in front up to a width. -/
def padded (width n : Nat) : String :=
  let digits := Nat.toDigits 10 n
  String.ofList (List.replicate (width - digits.length) '0' ++ digits)

/-- Time of day. -/
def Moment.time (m : Moment) : String :=
  padded 2 m.hour ++ ":" ++ padded 2 m.minute ++ ":" ++ padded 2 m.second

/-- Month and day. -/
def Moment.monthDay (m : Moment) : String := padded 2 m.month ++ "-" ++ padded 2 m.day

/-- The moment as files hold it, with its offset from universal time. -/
def Moment.stamp (m : Moment) : String :=
  padded 4 m.year.toNat ++ "-" ++ m.monthDay ++ "T" ++ m.time ++ "+00:00"

/-- The moment as people read it; the year is not padded. -/
def Moment.clock (m : Moment) : String :=
  toString m.year ++ "-" ++ m.monthDay ++ " " ++ m.time

end BuildDesk.Calendar
