import RecordSql.Time.Calendar
import RecordSql.Text.Numeral
/-!
Instants of universal time, to the nanosecond, and the texts they are written as. The second
before a leap second may carry up to two thousand million nanoseconds, and is then written as
second 60.
-/

namespace RecordSql

/-- An instant: seconds since 1970-01-01T00:00:00Z and nanoseconds within the second. -/
structure Instant where
  seconds : Int
  nanos : Nat
  deriving DecidableEq, Repr

namespace Instant

open RecordSql.Text RecordSql.Time

/-- A second is a thousand million nanoseconds. -/
def nanosPerSecond : Nat := 1000000000

/-- The first and the last day that instants may fall on. -/
def dayInRange (days : Int) : Bool :=
  (Date.mk (-262143) 1 1).days ≤ days && days ≤ (Date.mk 262142 12 31).days

/-- The instant so many seconds after the start of 1970, if its day is in range. -/
def ofSeconds? (seconds : Int) : Option Instant :=
  if dayInRange (seconds.fdiv 86400) then some ⟨seconds, 0⟩ else none

/-- The day of the instant. -/
def date (t : Instant) : Date := Date.ofDays (t.seconds.fdiv 86400)

/-- The seconds since the start of the day. -/
def secondOfDay (t : Instant) : Nat := (t.seconds.fmod 86400).toNat

/-- The start of the day. -/
def startOfDay (t : Instant) : Instant := ⟨t.seconds.fdiv 86400 * 86400, 0⟩

/-- Years with four digits; outside 0 to 9999 with a sign. -/
def yearText (year : Int) : String :=
  if 0 ≤ year ∧ year ≤ 9999 then padded 4 year.toNat
  else (if year < 0 then "-" else "+") ++ padded 4 year.natAbs

/-- Year, month and day. -/
def dateText (t : Instant) : String :=
  let d := t.date
  yearText d.year ++ "-" ++ padded 2 d.month ++ "-" ++ padded 2 d.day

/-- Hour, minute and second; the nanoseconds of a leap second are its second 60. -/
def clockText (t : Instant) : String :=
  let s := t.secondOfDay
  padded 2 (s / 3600) ++ ":" ++ padded 2 (s / 60 % 60) ++ ":" ++
    padded 2 (s % 60 + t.nanos / nanosPerSecond)

/-- A point and the first `places` places of the fraction of the second. -/
def fractionText (places : Nat) (t : Instant) : String :=
  "." ++ padded places (t.nanos % nanosPerSecond / Nat.pow 10 (9 - places))

/-- Date and time with `places` places after the second. -/
def text (places : Nat) (t : Instant) : String :=
  t.dateText ++ " " ++ t.clockText ++ t.fractionText places

/-- Date and time with `T` between them and an offset of zero, the fraction in groups of three
places as far as it goes. -/
def rfc3339 (t : Instant) : String :=
  let nanos := t.nanos % nanosPerSecond
  let fraction :=
    if nanos = 0 then ""
    else if nanos % 1000000 = 0 then t.fractionText 3
    else if nanos % 1000 = 0 then t.fractionText 6
    else t.fractionText 9
  t.dateText ++ "T" ++ t.clockText ++ fraction ++ "+00:00"

end Instant

end RecordSql
