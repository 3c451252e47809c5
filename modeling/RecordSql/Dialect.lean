import RecordSql.Clause
import RecordSql.Explain
import RecordSql.Identifier.Quoted
import RecordSql.Schema.Field
/-!
Dialects of SQL: how identifiers are quoted and placeholders are written, which type a column has,
and which clauses are written in a way of their own.
-/

namespace RecordSql

/-- How placeholders are written. -/
inductive Placeholder where
  /-- A question mark. -/
  | mark
  /-- A dollar sign and the position of the value. -/
  | numbered
  deriving DecidableEq, Repr

/-- The placeholder for the value at a position, counted from one. -/
def Placeholder.text : Placeholder → Nat → String
  | .mark, _ => "?"
  | .numbered, position => "$" ++ toString position

/-- A dialect. Each part of it has a usual form, and a dialect may have one of its own in its place. -/
structure Dialect where
  name : String
  /-- Stands around identifiers. -/
  quote : Char := '"'
  /-- An identifier as it is written. -/
  quoted : String → String := Quoted.text quote
  /-- What is written for a value, at its position counted from one. -/
  placeholder : Nat → Value → String := fun position _ => Placeholder.mark.text position
  /-- A statement with its values written in, for people to read. -/
  explain : String → List Value → String := Explain.explain false '"'
  /-- The limit to write where there is only an offset, in dialects that need one. -/
  maxLimit : Option Nat := none
  /-- The type of a field's column. -/
  columnType : Field → String
  /-- Writes the default of a field. -/
  defaultValue : Field → Expression := fun _ => .sql "DEFAULT" []
  /-- Writes the clause with a name in the place of the usual way. -/
  clauseWriter : String → Option Clause.Writer := fun _ => none

namespace Dialect

/-- The dialect with a name, whatever the case of its letters. -/
def lookup (dialects : List Dialect) (name : String) : Option Dialect :=
  dialects.find? fun d => d.name == Text.lower name

end Dialect

end RecordSql
