import RecordSql.Schema.DataType
import RecordSql.Schema.Model
import RecordSql.Tag
import RecordSql.Value
/-!
Fields of a schema: the column a field is stored in, and all that its tag says about it.
-/

namespace RecordSql

/-- What a time set by itself is stored as. -/
inductive TimeUnit where
  | time
  | seconds
  | milli
  | nano
  deriving DecidableEq, Repr

/-- The text of a unit. -/
def TimeUnit.text : TimeUnit → String
  | .time => "time"
  | .seconds => "seconds"
  | .milli => "milli"
  | .nano => "nano"

/-- A field. -/
structure Field where
  name : String
  /-- The column; empty for a field that is not stored. -/
  dbName : String := ""
  /-- The names that lead to the field, more than one for a field of an embedded record. -/
  bindNames : List String
  /-- What the column holds; nothing for a field that is ignored. -/
  dataType : Option DataType := none
  /-- What the field's own type is stored as, whatever its tag says. -/
  semanticType : Option DataType := none
  kind : Kind
  primaryKey : Bool := false
  autoIncrement : Bool := false
  /-- The step of an increment. -/
  incrementStep : Int := 1
  /-- Written on insertion. -/
  creatable : Bool := true
  /-- Written on update. -/
  updatable : Bool := true
  /-- Read back. -/
  readable : Bool := true
  /-- Set to the time of insertion. -/
  autoCreateTime : Option TimeUnit := none
  /-- Set to the time of update. -/
  autoUpdateTime : Option TimeUnit := none
  /-- The database has a value when none is given. -/
  hasDefault : Bool := false
  defaultText : String := ""
  /-- The default as a value, where the text is one. -/
  defaultValue : Option Value := none
  notNull : Bool := false
  unique : Bool := false
  comment : String := ""
  /-- The length of a text, or the bits of a number. -/
  size : Nat := 0
  precision : Nat := 0
  scale : Nat := 0
  ignoreMigration : Bool := false
  serializer : Option String := none
  tag : String := ""
  settings : Tag.Settings := {}
  /-- Which of the embedded schemas of its schema the field comes from. -/
  owner : Option Nat := none

namespace Field

/-- Whether the field is read or written at all. -/
def hasPermission (f : Field) : Bool := f.creatable || f.updatable || f.readable

/-- Whether the field can only be a relationship. -/
def isRelationshipCandidate (f : Field) : Bool :=
  f.dataType.isNone && f.semanticType.isNone && f.hasPermission

/-- The names that lead to the field, as one text. -/
def bindName (f : Field) : String := ".".intercalate f.bindNames

/-- A field before its tag is read. -/
def ofDeclared (d : DeclaredField) : Field :=
  { name := d.name, bindNames := [d.name], kind := d.kind, tag := d.tag,
    settings := Tag.Settings.parse ';' d.tag }

end Field

end RecordSql
