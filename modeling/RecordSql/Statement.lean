import RecordSql.Render.Clause
/-!
Statements under construction. Clauses are added in any order and written in the order that is asked
for. What has been written is never changed: each fragment adds text, values and errors at the end.
-/

namespace RecordSql

/-- What has been written. -/
structure Output where
  sql : String := ""
  /-- The values bound, in the order of their placeholders. -/
  values : List Value := []
  errors : List Error := []
  /-- The table expression mentions the table that it stands for, so that writing it never ends. -/
  endless : Bool := false

namespace Output

/-- Adds a piece. A value gets the placeholder of its position. The table of the statement has been
put in by then. -/
def push (d : Dialect) (o : Output) : Piece → Output
  | .text s => { o with sql := o.sql ++ s }
  | .bound v =>
    { o with
      sql := o.sql ++ d.placeholder (o.values.length + 1) v
      values := o.values ++ [v] }
  | .fault e => { o with errors := o.errors ++ [e] }
  | .currentTable => { o with endless := true }

/-- Adds the pieces of a fragment. -/
def append (d : Dialect) (o : Output) (f : Fragment) : Output := f.foldl (push d) o

end Output

/-- A statement. -/
structure Statement where
  dialect : Dialect
  schema : Option Layout := none
  table : String := ""
  /-- Stands in the place of the table. -/
  tableExpr : Option Expression := none
  /-- The clauses by name, each name once. -/
  clauses : List (String × Clause) := []
  /-- Every row may be updated or deleted. -/
  allowGlobalUpdate : Bool := false
  output : Output := {}

namespace Statement

/-- Binds a schema, whose table is that of the statement if it has none. -/
def withSchema (st : Statement) (layout : Layout) : Statement :=
  { st with
    schema := some layout
    table := if st.table.isEmpty then layout.table else st.table }

/-- What names are resolved in. -/
def scope (st : Statement) : Scope := ⟨st.dialect, st.schema⟩

/-- The table of the statement as it is written. -/
def tableFragment (st : Statement) : Fragment :=
  match st.tableExpr with
  | some e => e.fragment st.scope
  | none =>
    if st.table.isEmpty then [.fault (.unsupportedModel "statement has no table bound")]
    else [st.scope.quoted st.table]

/-- Writes a fragment. -/
def write (st : Statement) (f : Fragment) : Statement :=
  { st with output := st.output.append st.dialect (f.withTable st.tableFragment) }

/-- Records an error. -/
def addError (st : Statement) (e : Error) : Statement := st.write [.fault e]

/-- Writes an expression. -/
def writeExpression (st : Statement) (e : Expression) : Statement := st.write (e.fragment st.scope)

/-- Writes the negated form of an expression and tells whether it has one. -/
def writeNegation (st : Statement) (e : Expression) : Bool × Statement :=
  match (e.forms st.scope).negative with
  | some f => (true, st.write f)
  | none => (false, st)

/-- The clause with a name. -/
def clause? (st : Statement) (name : String) : Option Clause := st.clauses.lookup name

/-- Puts a clause under a name in a list of clauses. -/
def setClause (name : String) (c : Clause) : List (String × Clause) → List (String × Clause)
  | [] => [(name, c)]
  | (n, old) :: rest => if n == name then (n, c) :: rest else (n, old) :: setClause name c rest

/-- Puts a clause under a name. -/
def withClause (st : Statement) (name : String) (c : Clause) : Statement :=
  { st with clauses := setClause name c st.clauses }

/-- Adds a clause, merging it with the one of its name. -/
def addClause (st : Statement) (body : Clause.Body) : Statement :=
  st.withClause body.name (((st.clause? body.name).getD {}).add body)

/-- Adds a clause if there is none of its name. -/
def addClauseIfAbsent (st : Statement) (body : Clause.Body) : Statement :=
  if (st.clause? body.name).isSome then st else st.addClause body

/-- Changes the clause with a name, which is made if there is none. -/
def editClause (st : Statement) (name : String) (edit : Clause → Clause) : Statement :=
  st.withClause name (edit ((st.clause? name).getD { name }))

/-- Whether there is a condition on the rows. -/
def hasCondition (st : Statement) : Bool := (st.clause? "WHERE").any (!·.isEmpty)

/-- Records an error if an update or a deletion is asked for that would touch every row. -/
def checkGlobalUpdate (st : Statement) (names : List String) : Statement :=
  if st.allowGlobalUpdate || st.hasCondition then st
  else match names.find? fun n => n == "UPDATE" || n == "DELETE" with
    | some name => st.addError (.missingWhere name)
    | none => st

/-- A clause as it is written in the dialect of the statement. -/
def clauseFragment (st : Statement) (name : String) (c : Clause) : Fragment :=
  match st.dialect.clauseWriter name with
  | some write => write c.toParts
  | none => c.fragment st.scope

/-- Writes the clause with a name, after a space unless it is the first text. A clause that is
missing or empty is passed over. -/
def writeClause (st : Statement) (name : String) : Statement :=
  match st.clause? name with
  | none => st
  | some c =>
    if c.isEmpty then st
    else
      let gap : Fragment := if st.output.sql.isEmpty then [] else [.text " "]
      st.write (gap ++ st.clauseFragment name c)

/-- Writes the named clauses in order. -/
def build (st : Statement) (names : List String) : Statement :=
  names.foldl writeClause (st.checkGlobalUpdate names)

/-- The statement with its values written in, for people to read. -/
def explain (st : Statement) : String := st.dialect.explain st.output.sql st.output.values

/-- The text and the values, or what went wrong. -/
def finish (st : Statement) : Except Error (String × List Value) :=
  match Error.aggregate st.output.errors with
  | some e => .error e
  | none => .ok (st.output.sql, st.output.values)

end Statement

end RecordSql
