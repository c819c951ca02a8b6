/-! Instants of the UTC time line to the nanosecond, and the calendar date of a
day count in the proleptic Gregorian calendar. -/
namespace Switchyard

/-- Seconds since 1970-01-01 and nanoseconds within the second. A count of
nanoseconds of `10 ^ 9` or more lies in the leap second after it. -/
structure Instant where
  seconds : Int
  nanos : Nat
deriving DecidableEq, Repr, Inhabited

namespace Instant

def perSecond : Nat := 1000000000

def ofNanos (n : Int) : Instant := ⟨n.fdiv perSecond, (n.fmod perSecond).toNat⟩

/-- Whole milliseconds since 1970-01-01. -/
def millis (t : Instant) : Int := t.seconds * 1000 + (t.nanos / 1000000 : Nat)

def toNanos (t : Instant) : Int := t.seconds * perSecond + t.nanos

/-- Whole seconds from `start` to `t`, toward zero. -/
def secondsSince (t start : Instant) : Int := (t.toNanos - start.toNanos).tdiv perSecond

end Instant

namespace Calendar

/-- A calendar date. -/
structure Date where
  year : Int
  month : Nat
  day : Nat
deriving DecidableEq, Repr, Inhabited

def isLeap (year : Int) : Bool :=
  (year % 4 == 0 && year % 100 != 0) || year % 400 == 0

def daysInMonth (year : Int) (month : Nat) : Nat :=
  match month with
  | 1 | 3 | 5 | 7 | 8 | 10 | 12 => 31
  | 4 | 6 | 9 | 11 => 30
  | 2 => if isLeap year then 29 else 28
  | _ => 0

/-- Days from 1970-01-01 to a date. Years are counted from March, so that the
leap day ends a year. -/
def dayCount (d : Date) : Int :=
  let y : Int := if d.month ≤ 2 then d.year - 1 else d.year
  let era := y.fdiv 400
  let yoe := y - era * 400
  let mp : Int := ((d.month + 9) % 12 : Nat)
  let doy := (153 * mp + 2).fdiv 5 + (d.day : Int) - 1
  let doe := yoe * 365 + yoe.fdiv 4 - yoe.fdiv 100 + doy
  era * 146097 + doe - 719468

/-- The date that lies `days` days after 1970-01-01. -/
def dateOf (days : Int) : Date :=
  let z := days + 719468
  let era := z.fdiv 146097
  let doe := z - era * 146097
  let yoe := (doe - doe.fdiv 1460 + doe.fdiv 36524 - doe.fdiv 146096).fdiv 365
  let doy := doe - (365 * yoe + yoe.fdiv 4 - yoe.fdiv 100)
  let mp := (5 * doy + 2).fdiv 153
  let day := doy - (153 * mp + 2).fdiv 5 + 1
  let month := if mp < 10 then mp + 3 else mp - 9
  let year := yoe + era * 400 + (if month ≤ 2 then 1 else 0)
  ⟨year, month.toNat, day.toNat⟩

end Calendar

end Switchyard
