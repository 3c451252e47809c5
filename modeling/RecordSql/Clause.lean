import RecordSql.Clause.Change
import RecordSql.Clause.From
import RecordSql.Clause.Order
import RecordSql.Clause.Select
import RecordSql.Clause.With
import RecordSql.Fragment
/-!
Clauses of a statement. A clause has a body, a keyword before it and fragments around it. A body
that is added to a clause with a body of the same kind is merged with that.
-/

namespace RecordSql

namespace Clause

/-- The body of a clause. -/
inductive Body where
  | select (b : Select)
  | fromTables (b : From)
  | conditions (b : Where)
  | groupBy (b : GroupBy)
  | orderBy (b : OrderBy)
  | limit (b : Limit)
  | insert (b : Target)
  | values (b : Values)
  | update (b : Target)
  | set (b : Assignments)
  | delete (b : Delete)
  | returning (b : Returning)
  | onConflict (b : OnConflict)
  | locking (b : Locking)
  | queries (b : With)
  | asOfSystemTime (b : AsOfSystemTime)
  /-- Any clause, under a name of its own. -/
  | custom (name : String) (b : Expression)

namespace Body

/-- The name of the clause that a body belongs to. -/
def name : Body → String
  | .select _ => "SELECT"
  | .fromTables _ => "FROM"
  | .conditions _ => "WHERE"
  | .groupBy _ => "GROUP BY"
  | .orderBy _ => "ORDER BY"
  | .limit _ => "LIMIT"
  | .insert _ => "INSERT"
  | .values _ => "VALUES"
  | .update _ => "UPDATE"
  | .set _ => "SET"
  | .delete _ => "DELETE"
  | .returning _ => "RETURNING"
  | .onConflict _ => "ON CONFLICT"
  | .locking _ => "FOR"
  | .queries _ => "WITH"
  | .asOfSystemTime _ => "AS OF SYSTEM TIME"
  | .custom name _ => name

/-- Whether a body writes nothing, for the bodies that may. -/
def isEmpty : Body → Bool
  | .conditions b => b.isEmpty
  | .groupBy b => b.isEmpty
  | .orderBy b => b.isEmpty
  | .limit b => b.isEmpty
  | .queries b => b.isEmpty
  | .asOfSystemTime b => b.isEmpty
  | .custom _ b => b.isEmpty
  | _ => false

/-- The body that a later one makes of an earlier one. -/
def merge (earlier : Option Body) (later : Body) : Body :=
  match earlier, later with
  | some (.select a), .select b => .select (a.merge b)
  | some (.fromTables a), .fromTables b => .fromTables (a.merge b)
  | some (.conditions a), .conditions b => .conditions (a.merge b)
  | some (.groupBy a), .groupBy b => .groupBy (a.merge b)
  | some (.orderBy a), .orderBy b => .orderBy (a.merge b)
  | some (.limit a), .limit b => .limit (a.merge b)
  | some (.insert a), .insert b => .insert (a.merge b)
  | some (.update a), .update b => .update (a.merge b)
  | some (.returning a), .returning b => .returning (a.merge b)
  | some (.queries a), .queries b => .queries (a.merge b)
  | _, .limit b => .limit b.normalized
  | _, b => b

/-- The keyword before a body: its name, unless the body writes that itself. -/
def keyword : Body → String
  | .limit _ => ""
  | .values _ => ""
  | .delete _ => ""
  | .asOfSystemTime _ => ""
  | .groupBy b => if b.columns.isEmpty then "" else "GROUP BY"
  | b => b.name

end Body

/-- What there is to write of a clause. -/
structure Parts where
  /-- The keyword before the body; empty for a body that writes its own. -/
  name : String := ""
  /-- Stands before the keyword. -/
  before : Option Expression := none
  /-- Stands between the keyword and the body. -/
  afterName : Option Expression := none
  /-- Stands after the body. -/
  after : Option Expression := none
  body : Option Body := none

/-- A way to write a clause that takes the place of the usual one. -/
abbrev Writer := Parts → Fragment

end Clause

/-- A clause of a statement. -/
structure Clause extends Clause.Parts where
  /-- Writes the clause in the place of its parts. -/
  writer : Option Clause.Writer := none

namespace Clause

/-- Whether the clause writes nothing. -/
def isEmpty (c : Clause) : Bool :=
  c.writer.isNone && c.body.all (·.isEmpty)

/-- Adds a body to a clause. -/
def add (c : Clause) (body : Body) : Clause :=
  let merged := Body.merge c.body body
  { c with name := merged.keyword, body := some merged }

end Clause

end RecordSql
