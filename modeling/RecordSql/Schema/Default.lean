import RecordSql.Decimal.Reader
import RecordSql.Schema.Field
import RecordSql.Time.Reader
/-!
Defaults of columns, read as values of the column's type. A default that calls a function, or is
null or blank, is left to the database.
-/

namespace RecordSql.Default

open RecordSql.Text

/-- Whether a default is left to the database. -/
def isExpression (raw : String) : Bool :=
  (raw.toList.contains '(' && raw.toList.contains ')') || sameLetters raw "null" || raw.isEmpty

/-- The words for true and false. -/
def bool? (raw : String) : Option Bool :=
  if ["1", "t", "T", "TRUE", "true", "True"].contains raw then some true
  else if ["0", "f", "F", "FALSE", "false", "False"].contains raw then some false
  else none

/-- Takes off a radix mark: `0x`, `0o` or `0b` in either case. -/
def splitRadix : List Char → List Char × Nat
  | '0' :: c :: rest =>
    match c.toLower with
    | 'x' => (rest, 16)
    | 'o' => (rest, 8)
    | 'b' => (rest, 2)
    | _ => ('0' :: c :: rest, 10)
  | cs => (cs, 10)

/-- A signed integer: a sign, a radix mark, and then a number that may have a sign of its own. The
first sign is applied to a word of 64 bits. -/
def int? (raw : List Char) : Option Int64 :=
  let (negative, unsigned) := match raw with
    | '-' :: rest => (true, rest)
    | '+' :: rest => (false, rest)
    | _ => (false, raw)
  let (digits, radix) := splitRadix unsigned
  (signed? 64 radix digits).map fun n => if negative then -(Int64.ofInt n) else Int64.ofInt n

/-- An unsigned integer: an optional plus, a radix mark, and then a number that may have a plus. -/
def uint? (raw : List Char) : Option UInt64 :=
  let unsigned := match raw with
    | '+' :: rest => rest
    | _ => raw
  let (digits, radix) := splitRadix unsigned
  (unsigned? 64 radix digits).map UInt64.ofNat

/-- A text without the quotes around it: first the single ones, then the double ones. -/
def unquoted (raw : String) : String :=
  trimBy (· == '"') (trimBy (· == '\'') raw)

/-- The default of a column as a value. An error names the type that the text is not of. -/
def value? (type : Option DataType) (text : String) : Except String (Option Value) :=
  let raw := trim text
  let required (kind : String) (v : Option Value) : Except String (Option Value) :=
    match v with
    | some v => .ok (some v)
    | none => .error ("failed to parse default value " ++ raw ++ " as " ++ kind)
  if isExpression raw then .ok none
  else match type with
    | some .bool => required "bool" ((bool? raw).map .bool)
    | some .int => required "int" ((int? raw.toList).map .int)
    | some .uint => required "uint" ((uint? raw.toList).map .uint)
    | some .float => required "float" ((Decimal.Binary64.ofText? raw.toList).map .float)
    | some .string => .ok (some (.text (unquoted raw)))
    | some .time => .ok ((Instant.ofText? (unquoted raw).toList).map .time)
    | _ => .ok none

end RecordSql.Default
