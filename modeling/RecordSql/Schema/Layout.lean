import RecordSql.Naming
import RecordSql.Schema.Field
/-!
The layout of a record type: its table, its fields and columns, and the keys, indexes and
constraints over them. Fields are referred to by their position.
-/

namespace RecordSql

/-- A field's part in an index. -/
structure IndexMember where
  position : Nat
  field : Field
  /-- What is indexed, if it is not the column itself. -/
  expression : String := ""
  sort : String := ""
  collate : String := ""
  /-- How much of a text is indexed. -/
  length : Nat := 0
  /-- Members stand in ascending order of this. -/
  priority : Int := 10

/-- An index. -/
structure Index where
  name : String
  /-- `UNIQUE`, another class, or nothing. -/
  category : String := ""
  method : String := ""
  /-- The rows that are indexed, if not all. -/
  condition : String := ""
  comment : String := ""
  option : String := ""
  members : List IndexMember

/-- Whether the index allows each value once only. -/
def Index.isUnique (i : Index) : Bool := i.category == "UNIQUE"

/-- A condition on the rows of a table. -/
structure CheckConstraint where
  name : String
  condition : String
  field : Field

/-- A column whose values differ from row to row. -/
structure UniqueConstraint where
  name : String
  field : Field

/-- The layout of a record type. -/
structure Layout where
  name : String
  table : String
  naming : Naming
  /-- All fields in the order of declaration, those of embedded records in their place. -/
  fields : List Field
  /-- The columns in the order of the fields they appear in first. -/
  dbNames : List String
  /-- The fields of the primary key. -/
  primary : List Nat
  /-- The primary key field where one is wanted. -/
  prioritized : Option Nat
  /-- Stored fields whose value the database gives. -/
  dbDefaults : List Nat
  /-- Fields that can only be relationships. -/
  candidates : List Nat
  /-- Fields by column. -/
  byDbName : List (String × Nat)
  /-- Fields by name. -/
  byName : List (String × Nat)
  /-- Fields by the names that lead to them. -/
  byBindName : List (String × Nat)
  indexes : List Index
  checks : List CheckConstraint
  uniques : List UniqueConstraint

namespace Layout

/-- The field at a position. -/
def field? (l : Layout) (position : Nat) : Option Field := l.fields[position]?

/-- The fields at several positions. -/
def fieldsAt (l : Layout) (positions : List Nat) : List Field := positions.filterMap l.field?

/-- The position of the field with a column, or else with a name. -/
def lookup (l : Layout) (name : String) : Option Nat :=
  (l.byDbName.lookup name).orElse fun _ => l.byName.lookup name

/-- The field with a column, or else with a name. -/
def lookupField (l : Layout) (name : String) : Option Field :=
  (l.lookup name).bind l.field?

/-- The field with a name. -/
def fieldByName (l : Layout) (name : String) : Option Field :=
  (l.byName.lookup name).bind l.field?

/-- The field with a column. -/
def fieldByDbName (l : Layout) (name : String) : Option Field :=
  (l.byDbName.lookup name).bind l.field?

/-- The field with a name at the end of the given path, or of the longest part of the path, from its
start, that has one. -/
def fieldByPath (l : Layout) (path : List String) (name : String) : Option Field :=
  let lengths := (List.range (path.length + 1)).reverse
  let found := lengths.findSome? fun n =>
    l.byBindName.lookup (".".intercalate (path.take n ++ [name]))
  found.bind l.field?

/-- The index with a name, or else the first that a field with that name takes part in; whichever of
the two stands first. -/
def lookupIndex (l : Layout) (name : String) : Option Index :=
  l.indexes.find? fun i => i.name == name || i.members.any (·.field.name == name)

/-- The fields of the primary key. -/
def primaryFields (l : Layout) : List Field := l.fieldsAt l.primary

/-- The column that stands for the primary key: the prioritized one, or else the first. -/
def primaryColumn? (l : Layout) : Option String :=
  ((l.prioritized.orElse fun _ => l.primary.head?).bind l.field?).map (·.dbName)

/-- The columns whose field, looked up by the column, has a property. -/
def columnsWhere (l : Layout) (p : Field → Bool) : List String :=
  l.dbNames.filter fun name => (l.lookupField name).any p

end Layout

end RecordSql
