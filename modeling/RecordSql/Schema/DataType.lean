import RecordSql.Schema.Kind
import RecordSql.Text.Blank
import RecordSql.Text.Case
/-!
What columns hold.
-/

namespace RecordSql

/-- The type of a column's values. -/
inductive DataType where
  | bool
  | int
  | uint
  | float
  | string
  | time
  | bytes
  | byteArray
  /-- A type of the database, by the name the record gives it. -/
  | custom (name : String)
  deriving DecidableEq, Repr

namespace DataType

/-- The types with a name of their own. -/
def standard : List (String × DataType) :=
  [
    ("bool", .bool), ("int", .int), ("uint", .uint), ("float", .float), ("string", .string),
    ("time", .time), ("bytes", .bytes), ("bytesarray", .byteArray)
  ]

/-- The type with a name; names are compared without blanks around them and in lower case. -/
def ofName (name : String) : DataType :=
  (standard.lookup (Text.lower (Text.trim name))).getD (.custom name)

/-- The type that a kind is stored as. -/
def ofKind? : Kind → Option DataType
  | .bool => some .bool
  | .int _ => some .int
  | .uint _ => some .uint
  | .float _ => some .float
  | .string => some .string
  | .time => some .time
  | .slice item => if item.indirect = .uint 8 then some .bytes else none
  | .array item _ => if item.indirect = .uint 8 then some .byteArray else none
  | _ => none

/-- Whether the values are whole numbers. -/
def isInteger : DataType → Bool
  | .int => true
  | .uint => true
  | _ => false

/-- Whether the type is named by the record. -/
def isCustom : DataType → Bool
  | .custom _ => true
  | _ => false

/-- The text of a type. -/
def text : DataType → String
  | .bool => "bool"
  | .int => "int"
  | .uint => "uint"
  | .float => "float"
  | .string => "string"
  | .time => "time"
  | .bytes => "bytes"
  | .byteArray => "bytesarray"
  | .custom name => name

end DataType

end RecordSql
