import RecordSql.Decimal.Shortest
import RecordSql.Json.Document
import RecordSql.Time.Instant
import RecordSql.Text.Split
/-!
Values that statements bind, and their text as SQL literals.
-/

namespace RecordSql

open RecordSql.Decimal RecordSql.Text

/-- A value to be bound to a placeholder. -/
inductive Value where
  | null
  | bool (b : Bool)
  | int (n : Int64)
  | uint (n : UInt64)
  | float (x : Binary64)
  | text (s : String)
  | blob (bytes : List UInt8)
  | time (t : Instant)
  /-- Several values bound to one placeholder. -/
  | array (items : List Value)

namespace Value

/-- Whether the value is null. -/
def isNull : Value → Bool
  | .null => true
  | _ => false

/-- A text between single quotes; a quote inside it is written twice. -/
def quotedText (s : String) : String :=
  "'" ++ replaceChar '\'' "''" s ++ "'"

mutual
/-- The literal of a value. -/
def literal : Value → String
  | .null => "NULL"
  | .bool b => if b then "TRUE" else "FALSE"
  | .int n => toString n.toInt
  | .uint n => toString n.toNat
  | .float x => x.plain
  | .text s => quotedText s
  | .blob bytes => "X'" ++ hex true bytes ++ "'"
  | .time t => "'" ++ t.text 6 ++ "'"
  | .array items => "(" ++ ",".intercalate (literals items) ++ ")"

/-- The literals of several values. -/
def literals : List Value → List String
  | [] => []
  | v :: vs => literal v :: literals vs
end

/-- A document is stored as its text, the null document as null. -/
def ofJson : Json → Value
  | .null => .null
  | document => .text document.text

/-- A number of 32 bits is stored as the same number of 64 bits. -/
def ofBinary32 (bits : UInt32) : Value := .float (.ofBinary32 bits)

/-- A date is stored as the start of its day. -/
def ofDateOf (t : Instant) : Value := .time t.startOfDay

end Value

end RecordSql
