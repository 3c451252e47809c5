import RecordSql.Time.Instant
import RecordSql.Text.Blank
/-!
Reading instants: the internet date-time with an offset, and dates with or without a time of day,
taken as universal time. Each reader gives a value and the text after it.
-/

namespace RecordSql.Time

open RecordSql.Text

/-- Whether the character is an ASCII digit. -/
def isDigit (c : Char) : Bool := decide ('0' ≤ c) && decide (c ≤ '9')

/-- A number of at least `least` digits and at most `most`. -/
def digits? (least most : Nat) (cs : List Char) : Option (Nat × List Char) :=
  let ds := (cs.take most).takeWhile isDigit
  if ds.length < least then none
  else some (ds.foldl (fun n c => n * 10 + (c.toNat - '0'.toNat)) 0, cs.drop ds.length)

/-- The given character. -/
def literal? (c : Char) : List Char → Option (List Char)
  | [] => none
  | x :: rest => if x == c then some rest else none

/-- The digits after a decimal point as nanoseconds; those after the ninth are passed over. -/
def nanos? (cs : List Char) : Option (Nat × List Char) := do
  let (n, rest) ← digits? 1 9 cs
  return (n * Nat.pow 10 (9 - (cs.length - rest.length)), rest.dropWhile isDigit)

/-- A time of day. -/
structure Clock where
  hour : Nat
  minute : Nat
  second : Nat
  nanos : Nat

/-- Seconds and nanoseconds since the start of the day; second 60 is a leap second. -/
def Clock.position? (c : Clock) : Option (Nat × Nat) :=
  if c.hour < 24 ∧ c.minute < 60 ∧ c.second ≤ 60 ∧ c.nanos < Instant.nanosPerSecond then
    let start := c.hour * 3600 + c.minute * 60
    if c.second = 60 then some (start + 59, c.nanos + Instant.nanosPerSecond)
    else some (start + c.second, c.nanos)
  else none

/-- The instant of a date and a time of day, `offset` seconds east of universal time. -/
def instant? (year : Int) (month day : Nat) (clock : Clock) (offset : Int) : Option Instant := do
  let date ← Date.of? year month day
  let (seconds, nanos) ← clock.position?
  return ⟨date.days * 86400 + seconds - offset, nanos⟩

/-- The offset from universal time in seconds: `Z`, or a sign, hours and minutes. -/
def offset? (cs : List Char) : Option (Int × List Char) :=
  match cs with
  | [] => none
  | sign :: rest =>
    if sign == 'Z' || sign == 'z' then some (0, rest)
    else if sign == '+' || sign == '-' || sign == '\u2212' then do
      let (hours, rest) ← digits? 2 2 rest
      let rest ← literal? ':' rest
      let (minutes, rest) ← digits? 2 2 rest
      if hours < 24 ∧ minutes < 60 then
        let east : Int := hours * 3600 + minutes * 60
        return (if sign == '+' then east else -east, rest)
      else none
    else none

/-- The internet date-time: all numbers with two digits and the year with four, `T` or a space
between date and time, an optional fraction, and an offset. -/
def rfc3339? (cs : List Char) : Option Instant := do
  let (year, rest) ← digits? 4 4 cs
  let rest ← literal? '-' rest
  let (month, rest) ← digits? 2 2 rest
  let rest ← literal? '-' rest
  let (day, rest) ← digits? 2 2 rest
  let rest ← match rest with
    | 'T' :: rest => some rest
    | 't' :: rest => some rest
    | ' ' :: rest => some rest
    | _ => none
  let (hour, rest) ← digits? 2 2 rest
  let rest ← literal? ':' rest
  let (minute, rest) ← digits? 2 2 rest
  let rest ← literal? ':' rest
  let (second, rest) ← digits? 2 2 rest
  let (nanos, rest) ← match rest with
    | '.' :: rest => nanos? rest
    | _ => some (0, rest)
  let (offset, rest) ← offset? rest
  if rest.isEmpty then instant? year month day ⟨hour, minute, second, nanos⟩ offset else none

/-- A number of one or two digits, after any blanks. -/
def short? (cs : List Char) : Option (Nat × List Char) :=
  digits? 1 2 (cs.dropWhile isBlank)

/-- A year after any blanks: up to four digits, or a sign and any number of digits. -/
def year? (cs : List Char) : Option (Int × List Char) :=
  match cs.dropWhile isBlank with
  | '-' :: rest => (digits? 1 rest.length rest).map fun (n, rest) => (-(n : Int), rest)
  | '+' :: rest => (digits? 1 rest.length rest).map fun (n, rest) => ((n : Int), rest)
  | rest => (digits? 1 4 rest).map fun (n, rest) => ((n : Int), rest)

/-- Year, month and day with dashes between them. -/
def date? (cs : List Char) : Option ((Int × Nat × Nat) × List Char) := do
  let (year, rest) ← year? cs
  let rest ← literal? '-' rest
  let (month, rest) ← short? rest
  let rest ← literal? '-' rest
  let (day, rest) ← short? rest
  return ((year, month, day), rest)

/-- Hour, minute and second with colons between them. -/
def clock? (cs : List Char) : Option (Clock × List Char) := do
  let (hour, rest) ← short? cs
  let rest ← literal? ':' rest
  let (minute, rest) ← short? rest
  let rest ← literal? ':' rest
  let (second, rest) ← short? rest
  return (⟨hour, minute, second, 0⟩, rest)

/-- A date, then blanks, then a time of day with an optional fraction. -/
def spaced? (cs : List Char) : Option Instant := do
  let ((year, month, day), rest) ← date? cs
  let (clock, rest) ← clock? (rest.dropWhile isBlank)
  let (nanos, rest) ← match rest with
    | '.' :: rest => nanos? rest
    | _ => some (0, rest)
  if rest.isEmpty then instant? year month day { clock with nanos } 0 else none

/-- A date and a time of day with `T` between them. -/
def joined? (cs : List Char) : Option Instant := do
  let ((year, month, day), rest) ← date? cs
  let rest ← literal? 'T' rest
  let (clock, rest) ← clock? rest
  if rest.isEmpty then instant? year month day clock 0 else none

/-- A date alone, for the start of its day. -/
def dateOnly? (cs : List Char) : Option Instant := do
  let ((year, month, day), rest) ← date? cs
  if rest.isEmpty then instant? year month day ⟨0, 0, 0, 0⟩ 0 else none

end RecordSql.Time

namespace RecordSql

/-- Reads an instant in the first of the accepted forms that fits. -/
def Instant.ofText? (cs : List Char) : Option Instant :=
  (Time.rfc3339? cs).orElse fun _ => (Time.spaced? cs).orElse fun _ =>
    (Time.joined? cs).orElse fun _ => Time.dateOnly? cs

end RecordSql
