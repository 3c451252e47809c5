import RecordSql.Expression
/-!
Conditions on rows and on groups of rows.
-/

namespace RecordSql

/-- The conditions of a WHERE clause. -/
structure Where where
  conditions : List Expression := []

namespace Where

/-- Whether no condition writes anything. -/
def isEmpty (w : Where) : Bool := Expression.allEmpty w.conditions

/-- Later conditions follow earlier ones. -/
def merge (earlier later : Where) : Where := ⟨earlier.conditions ++ later.conditions⟩

end Where

/-- The columns of a GROUP BY clause and the conditions on the groups. -/
structure GroupBy where
  columns : List Column := []
  having : List Expression := []

namespace GroupBy

/-- Whether there is no column and no condition that writes anything. -/
def isEmpty (g : GroupBy) : Bool := g.columns.isEmpty && Expression.allEmpty g.having

/-- Later columns and conditions follow earlier ones. -/
def merge (earlier later : GroupBy) : GroupBy :=
  ⟨earlier.columns ++ later.columns, earlier.having ++ later.having⟩

end GroupBy

end RecordSql
