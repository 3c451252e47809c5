import RecordSql.Expression
/-!
What a query gives back.
-/

namespace RecordSql

/-- The columns of a SELECT clause. -/
structure Select where
  distinct : Bool := false
  columns : List Column := []
  /-- Columns to leave out of all that the schema reads. -/
  omits : List String := []
  /-- Stands in the place of the columns. -/
  expression : Option Expression := none

namespace Select

/-- Whether the clause names nothing to select or to leave out. -/
def selectsNothing (s : Select) : Bool :=
  s.columns.isEmpty && s.omits.isEmpty && s.expression.isNone

/-- A later selection replaces an earlier one. If it names nothing, only its `DISTINCT` is added. -/
def merge (earlier later : Select) : Select :=
  if later.selectsNothing then { earlier with distinct := earlier.distinct || later.distinct }
  else later

end Select

/-- The columns of a RETURNING clause, all of them if none is named. -/
structure Returning where
  columns : List Column := []

/-- Later columns follow earlier ones. -/
def Returning.merge (earlier later : Returning) : Returning := ⟨earlier.columns ++ later.columns⟩

end RecordSql
