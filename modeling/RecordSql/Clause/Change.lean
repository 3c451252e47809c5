import RecordSql.Clause.Conditions
/-!
Insertion, update and deletion of rows.
-/

namespace RecordSql

/-- The table that is written to, that of the statement if none is named, and a word before it. Both
INSERT and UPDATE clauses are of this form. -/
structure Target where
  table : Option Table := none
  modifier : String := ""

/-- A later table and a later word replace earlier ones. -/
def Target.merge (earlier later : Target) : Target :=
  { table := later.table.orElse fun _ => earlier.table
    modifier := if later.modifier.isEmpty then earlier.modifier else later.modifier }

/-- Rows to insert. -/
structure Values where
  columns : List Column := []
  rows : List (List Arg) := []

/-- A column and what it is set to. -/
structure Assignment where
  column : Column
  value : Arg

/-- The assignments of an update. -/
structure Assignments where
  list : List Assignment := []

namespace Assignments

/-- Assignments by column name, in the order of the names. -/
def ofEntries (entries : List (String × Arg)) : Assignments :=
  ⟨(entries.mergeSort fun a b => !(b.1 < a.1)).map fun (name, value) => ⟨.named name, value⟩⟩

/-- Sets columns to their values in the row that could not be inserted. -/
def ofExcluded (columns : List String) : Assignments :=
  ⟨columns.map fun c => ⟨.named c, .column (.qualified "excluded" c)⟩⟩

end Assignments

/-- A deletion, with a word after it. -/
structure Delete where
  modifier : String := ""

/-- What happens when a row to be inserted is there already. -/
structure OnConflict where
  columns : List Column := []
  /-- Which rows are updated. -/
  condition : Where := {}
  /-- Which rows count as being there. -/
  targetCondition : Where := {}
  constraint : Option String := none
  doNothing : Bool := false
  updates : Assignments := {}
  /-- Without assignments every column is updated that may be. -/
  updateAll : Bool := false

end RecordSql
