import RecordSql.Expression
/-!
Named queries that stand before a statement.
-/

namespace RecordSql

/-- A named query. -/
structure Cte where
  name : String
  columns : List String := []
  body : Expression

/-- The named queries of a statement. -/
structure With where
  recursive : Bool := false
  ctes : List Cte := []
  /-- Stands in the place of the queries. -/
  expression : Option Expression := none

namespace With

/-- Whether there is nothing to write: a query without a name is left out. -/
def isEmpty (w : With) : Bool :=
  match w.expression with
  | some e => e.isEmpty
  | none => w.ctes.all (·.name.isEmpty)

/-- Later queries follow earlier ones; an expression replaces all of them, and what was replaced
does not come back. -/
def merge (earlier later : With) : With :=
  let recursive := earlier.recursive || later.recursive
  if later.expression.isSome then { recursive, expression := later.expression }
  else if earlier.expression.isSome then { earlier with recursive }
  else { recursive, ctes := earlier.ctes ++ later.ctes }

end With

end RecordSql
