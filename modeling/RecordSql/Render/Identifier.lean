import RecordSql.Dialect.BuiltIn
import RecordSql.Schema.Layout
/-!
Tables and columns as fragments.
-/

namespace RecordSql

/-- What names and clauses are resolved in: the dialect, and the schema of the statement. -/
structure Scope where
  dialect : Dialect
  schema : Option Layout := none

namespace Scope

/-- An identifier between quotes. -/
def quoted (s : Scope) (ident : String) : Piece := .text (s.dialect.quoted ident)

/-- The primary key column of the schema. -/
def primaryKey (s : Scope) : Fragment :=
  match s.schema with
  | none => [.fault (.invalidField "primary key requires a bound schema")]
  | some layout =>
    match layout.primaryColumn? with
    | none => [.fault (.invalidField (layout.name ++ " has no primary key"))]
    | some column => [s.quoted column]

end Scope

/-- A name between quotes, or what it stands for. -/
def Name.fragment (s : Scope) : Name → Fragment
  | .ident name => [s.quoted name]
  | .currentTable => [.currentTable]
  | .primaryKey => s.primaryKey
  | .associations => []

/-- A name that may be raw, in which case it is written as it is. -/
def Name.fragmentRaw (s : Scope) (raw : Bool) : Name → Fragment
  | .ident name => [if raw then .text name else s.quoted name]
  | name => name.fragment s

/-- An alias with the text that announces it. -/
def aliasFragment (s : Scope) (raw : Bool) (announce : String) : Option String → Fragment
  | none => []
  | some name => [.text announce, if raw then .text name else s.quoted name]

/-- A column; the star that stands for all columns has no quotes. -/
def Column.fragment (s : Scope) (c : Column) : Fragment :=
  (match c.table with
    | none => []
    | some table => table.fragmentRaw s c.raw ++ [.text "."])
  ++ c.name.fragmentRaw s (c.raw || c.name == .ident "*")
  ++ aliasFragment s c.raw " AS " c.aliasName

/-- A table. -/
def Table.fragment (s : Scope) (t : Table) : Fragment :=
  t.name.fragmentRaw s t.raw ++ aliasFragment s t.raw " " t.aliasName

/-- Columns with commas between them. -/
def columnList (s : Scope) (columns : List Column) : Fragment :=
  Fragment.joined "," (columns.map (Column.fragment s))

/-- Identifiers with commas between them. -/
def identList (s : Scope) (idents : List String) : Fragment :=
  Fragment.joined "," (idents.map fun i => [s.quoted i])

end RecordSql
