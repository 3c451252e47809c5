/-!
References to tables and columns, by name or by what a statement stands for.
-/

namespace RecordSql

/-- A name, or something that a statement resolves when it is written. -/
inductive Name where
  | ident (name : String)
  /-- The table of the statement. -/
  | currentTable
  /-- The primary key of the statement's schema. -/
  | primaryKey
  /-- All associations of a record; never written. -/
  | associations
  deriving DecidableEq, Repr

/-- A column. -/
structure Column where
  table : Option Name := none
  name : Name
  aliasName : Option String := none
  /-- Names are written as they are, without quotes. -/
  raw : Bool := false
  deriving DecidableEq, Repr

namespace Column

/-- A column by its name alone. -/
def named (name : String) : Column := { name := .ident name }

/-- A column of a table. -/
def qualified (table name : String) : Column :=
  { table := some (.ident table), name := .ident name }

/-- A column of the table of the statement. -/
def ofCurrentTable (name : String) : Column :=
  { table := some .currentTable, name := .ident name }

/-- The primary key column without a table. -/
def primaryKey : Column := { name := .primaryKey }

end Column

/-- A table. -/
structure Table where
  name : Name
  aliasName : Option String := none
  /-- Names are written as they are, without quotes. -/
  raw : Bool := false
  deriving DecidableEq, Repr

namespace Table

/-- A table by its name. -/
def named (name : String) : Table := { name := .ident name }

/-- The table of the statement. -/
def current : Table := { name := .currentTable }

end Table

end RecordSql
