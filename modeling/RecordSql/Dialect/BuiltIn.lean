import RecordSql.Dialect
/-!
The dialects that are always there: a generic one, MySQL, PostgreSQL and SQLite.
-/

namespace RecordSql.Dialect

/-- A type with its precision and scale; what has neither is left out. -/
def withPrecision (bare name : String) (precision scale : Nat) : String :=
  if precision = 0 then bare
  else if scale = 0 then name ++ "(" ++ toString precision ++ ")"
  else name ++ "(" ++ toString precision ++ ", " ++ toString scale ++ ")"

/-- A type with its length, if it has one. -/
def withLength (bare name : String) (length : Nat) : String :=
  if length = 0 then bare else name ++ "(" ++ toString length ++ ")"

/-- Column types by the standard. -/
def genericType (f : Field) : String :=
  match f.dataType with
  | none => ""
  | some (.custom name) => name
  | some .bool => "BOOLEAN"
  | some .int | some .uint =>
    if f.size ≤ 16 then "SMALLINT" else if f.size ≤ 32 then "INTEGER" else "BIGINT"
  | some .float => withPrecision "DOUBLE PRECISION" "DECIMAL" f.precision f.scale
  | some .string => withLength "TEXT" "VARCHAR" f.size
  | some .time => "TIMESTAMP"
  | some .bytes | some .byteArray => "BLOB"

/-- The standard dialect. -/
def generic : Dialect := { name := "generic", columnType := genericType }

/-- The least size of a medium text or blob is `2 ^ 16`, the greatest `2 ^ 24`. -/
def isMedium (size : Nat) : Bool := 65536 ≤ size && size ≤ 16777216

/-- The integer types of MySQL. -/
def mysqlInteger (f : Field) (isSigned : Bool) : String :=
  (if f.size ≤ 8 then "tinyint" else if f.size ≤ 16 then "smallint"
    else if f.size ≤ 32 then "int" else "bigint")
  ++ (if isSigned then "" else " unsigned")
  ++ (if f.autoIncrement then " AUTO_INCREMENT" else "")

/-- Column types of MySQL. -/
def mysqlType (f : Field) : String :=
  match f.dataType with
  | none => ""
  | some (.custom name) => name
  | some .bool => "boolean"
  | some .int => mysqlInteger f true
  | some .uint => mysqlInteger f false
  | some .float =>
    if f.precision = 0 then (if f.size ≤ 32 then "float" else "double")
    else "decimal(" ++ toString f.precision ++ ", " ++ toString f.scale ++ ")"
  | some .string =>
    let size := if f.primaryKey && f.size == 0 then 256 else f.size
    if size = 0 then "longtext"
    else if isMedium size then "mediumtext"
    else if 16777216 < size then "longtext"
    else "varchar(" ++ toString size ++ ")"
  | some .time =>
    let precision := if f.precision = 0 then 3 else f.precision
    "datetime(" ++ toString precision ++ ")" ++ (if f.notNull || f.primaryKey then "" else " NULL")
  | some .bytes | some .byteArray =>
    if 0 < f.size ∧ f.size < 65536 then "varbinary(" ++ toString f.size ++ ")"
    else if isMedium f.size then "mediumblob"
    else "longblob"

/-- MySQL. -/
def mysql : Dialect :=
  { name := "mysql", quote := '\x60', maxLimit := some (Nat.pow 2 64 - 1), columnType := mysqlType }

/-- The integer types of PostgreSQL. -/
def postgresInteger (f : Field) : String :=
  if f.autoIncrement then
    if f.size ≤ 15 then "smallserial" else if f.size ≤ 30 then "serial" else "bigserial"
  else if f.size ≤ 15 then "smallint" else if f.size ≤ 30 then "integer" else "bigint"

/-- Column types of PostgreSQL. -/
def postgresType (f : Field) : String :=
  match f.dataType with
  | none => ""
  | some (.custom name) => name
  | some .bool => "boolean"
  | some .int | some .uint => postgresInteger f
  | some .float => withPrecision "decimal" "numeric" f.precision f.scale
  | some .string => withLength "text" "varchar" f.size
  | some .time => withLength "timestamp" "timestamp" f.precision ++ " with time zone"
  | some .bytes | some .byteArray => "bytea"

/-- PostgreSQL. -/
def postgres : Dialect :=
  { name := "postgres"
    placeholder := fun position _ => Placeholder.numbered.text position
    explain := Explain.explain true '\''
    columnType := postgresType }

/-- Column types of SQLite. -/
def sqliteType (f : Field) : String :=
  match f.dataType with
  | none => ""
  | some (.custom name) => name
  | some .bool => "numeric"
  | some .int | some .uint =>
    if f.autoIncrement && f.primaryKey then "integer PRIMARY KEY AUTOINCREMENT" else "integer"
  | some .float => "real"
  | some .string => "text"
  | some .time => "datetime"
  | some .bytes | some .byteArray => "blob"

/-- SQLite. -/
def sqlite : Dialect :=
  { name := "sqlite", quote := '\x60', maxLimit := some (Nat.pow 2 63 - 1), columnType := sqliteType }

/-- All of them. -/
def builtIn : List Dialect := [generic, mysql, postgres, sqlite]

end RecordSql.Dialect
