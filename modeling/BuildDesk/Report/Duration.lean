/-
Durations and points in time as reports show them.

A duration below a second is shown in milliseconds, a longer one in hours, minutes
and seconds from the largest unit that it fills.

Main definitions:
* `hoursMinutesSeconds` — whole seconds;
* `duration` — a number of milliseconds;
* `localTime` — a point in time, in milliseconds since 1970.
-/
import BuildDesk.Fault
import BuildDesk.Number.Quantity

namespace BuildDesk.Report

/-- Whole seconds in hours, minutes and seconds. -/
def hoursMinutesSeconds (total : Nat) : String :=
  let hours := total / 3600
  let minutes := total % 3600 / 60
  let seconds := toString (total % 60) ++ "s"
  if hours > 0 then toString hours ++ "h " ++ toString minutes ++ "m " ++ seconds
  else if minutes > 0 then toString minutes ++ "m " ++ seconds
  else seconds

/-- Milliseconds below a second; nothing is shorter than nothing. -/
def milliseconds (n : Int) : String := toString n.toNat ++ "ms"

/-- A number of milliseconds as a duration. -/
def duration : Quantity → Except Fault String
  | .whole n =>
    .ok (if n < 1000 then milliseconds n else hoursMinutesSeconds (n.toNat / 1000))
  | .real x =>
    if x.isNaN then .error .badValue
    else if x.isInf then .error (if x < 0 then .tooLarge else .badValue)
    else .ok (if x < 1000 then milliseconds (Number.nearest x)
      else hoursMinutesSeconds (Number.wholeThousands x))

/-- Whole seconds of a point in time that is rounded to microseconds. -/
def secondsOf (x : Float) : Int :=
  let whole := Number.truncated x
  let rest := if whole.natAbs < Number.twoTo 53 then x - Number.scaled whole 0 else 0.0
  let micros := Number.nearest (rest * 1000000.0)
  if micros < 0 then whole - 1 else if 1000000 ≤ micros then whole + 1 else whole

/-- Local time begins a day later than the calendar, so that no zone is before it. -/
def firstLocalSecond : Int := Calendar.firstSecond + 86400

/-- A point in time, in milliseconds since 1970, as people read it. -/
def localTime (millis : Quantity) : Except Fault String :=
  let x := millis.thousandths
  if x.isNaN then .error .badValue
  else if x.isInf then .error .tooLarge
  else
    match Calendar.moment firstLocalSecond (secondsOf x) with
    | .ok moment => .ok moment.clock
    | .error undated => .error (.ofUndated undated)

end BuildDesk.Report
