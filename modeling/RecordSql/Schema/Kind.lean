/-!
The types of record fields by their structure, and references to record types.
-/

namespace RecordSql

/-- A reference to a record type: its identity and its name. -/
structure ModelRef where
  id : String
  name : String
  deriving DecidableEq, Repr

/-- The structure of a field's type. -/
inductive Kind where
  | bool
  | int (bits : Nat)
  | uint (bits : Nat)
  | float (bits : Nat)
  | string
  | time
  | slice (item : Kind)
  | array (item : Kind) (length : Nat)
  /-- A value that may be missing or is held elsewhere. -/
  | ptr (target : Kind)
  | record (model : ModelRef)
  /-- A type that is stored as the given kind, whatever its own structure. -/
  | valuer (stored : Kind)
  | map
  /-- A type that cannot be stored. -/
  | unsupported (name : String)
  deriving DecidableEq, Repr

namespace Kind

/-- The kind behind all pointers. -/
def indirect : Kind → Kind
  | .ptr target => indirect target
  | k => k

/-- The record type behind pointers, slices and arrays. -/
def model? : Kind → Option ModelRef
  | .record model => some model
  | .ptr target => model? target
  | .slice item => model? item
  | .array item _ => model? item
  | _ => none

/-- Whether the kind, behind all pointers, is a sequence. -/
def isSequence (k : Kind) : Bool :=
  match k.indirect with
  | .slice _ => true
  | .array _ _ => true
  | _ => false

/-- The text of a kind. -/
def text : Kind → String
  | .bool => "bool"
  | .int bits => "i" ++ toString bits
  | .uint bits => "u" ++ toString bits
  | .float bits => "f" ++ toString bits
  | .string => "string"
  | .time => "time"
  | .slice item => "[]" ++ text item
  | .array item length => "[" ++ toString length ++ "]" ++ text item
  | .ptr target => "*" ++ text target
  | .record model => model.name
  | .valuer stored => "valuer(" ++ text stored ++ ")"
  | .map => "map"
  | .unsupported name => name

end Kind

end RecordSql
