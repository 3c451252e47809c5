import RecordSql.Clause.Conditions
/-!
The tables a query reads, the joins between them, and the point in time they are read at.
-/

namespace RecordSql

/-- A point in time to read at: an instant, or SQL that gives one. -/
structure AsOfSystemTime where
  timestamp : Option Instant := none
  raw : Option String := none

/-- Whether no point in time is given. -/
def AsOfSystemTime.isEmpty (a : AsOfSystemTime) : Bool :=
  a.timestamp.isNone && a.raw.all (·.isEmpty)

/-- The kinds of joins. -/
inductive JoinType where
  | cross
  | inner
  | left
  | right
  deriving DecidableEq, Repr

/-- The word for a kind of join. -/
def JoinType.keyword : JoinType → String
  | .cross => "CROSS"
  | .inner => "INNER"
  | .left => "LEFT"
  | .right => "RIGHT"

/-- A join. -/
structure Join where
  type : JoinType := .inner
  table : Table := .current
  on : Where := {}
  /-- Columns that both sides share, where there is no condition. -/
  sharedColumns : List String := []
  /-- Stands in the place of the join. -/
  expression : Option Expression := none

/-- The tables of a FROM clause, the table of the statement if none is named. -/
structure From where
  tables : List Table := []
  joins : List Join := []
  asOf : Option AsOfSystemTime := none

/-- Later tables and a later time replace earlier ones; later joins follow. -/
def From.merge (earlier later : From) : From :=
  { tables := if later.tables.isEmpty then earlier.tables else later.tables
    joins := earlier.joins ++ later.joins
    asOf := later.asOf.orElse fun _ => earlier.asOf }

end RecordSql
