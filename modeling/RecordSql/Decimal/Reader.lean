import RecordSql.Decimal.Binary64
import RecordSql.Text.Numeral
/-!
Decimal text as a floating-point number: an optional sign, then digits with at most one point and an
optional exponent, or a word for infinity or "not a number" in any case.
-/

namespace RecordSql.Decimal

open RecordSql.Text

/-- The leading decimal digits and what follows them. -/
def spanDigits (cs : List Char) : List Char × List Char :=
  cs.span fun c => decide ('0' ≤ c) && decide (c ≤ '9')

/-- The exponent after the digits: nothing, or `e`, an optional sign and one or more digits. -/
def exponent? (cs : List Char) : Option Int :=
  match cs with
  | [] => some 0
  | c :: rest =>
    if c == 'e' || c == 'E' then
      match rest with
      | '-' :: digits => (nat? 10 digits).map fun n => -(n : Int)
      | '+' :: digits => (nat? 10 digits).map fun n => (n : Int)
      | digits => (nat? 10 digits).map fun n => (n : Int)
    else none

/-- An unsigned number. -/
def magnitude? (negative : Bool) (cs : List Char) : Option Binary64 :=
  let word := String.ofList (cs.map Char.toLower)
  if word == "inf" || word == "infinity" then some (.infinity negative)
  else if word == "nan" then some .nan
  else
    let (whole, rest) := spanDigits cs
    let (fraction, rest) := match rest with
      | '.' :: after => spanDigits after
      | _ => ([], rest)
    if whole.isEmpty && fraction.isEmpty then none
    else do
      let exponent ← exponent? rest
      let digits ← nat? 10 (whole ++ fraction)
      return .ofDecimal negative digits (exponent - fraction.length)

/-- The number nearest to the decimal written by the text. -/
def Binary64.ofText? (cs : List Char) : Option Binary64 :=
  match cs with
  | '-' :: rest => magnitude? true rest
  | '+' :: rest => magnitude? false rest
  | _ => magnitude? false cs

end RecordSql.Decimal
