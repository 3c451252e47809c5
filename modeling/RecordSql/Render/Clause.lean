import RecordSql.Render.Expression
/-!
Clauses as fragments.
-/

namespace RecordSql

/-- Several arguments with commas between them. -/
def argList (s : Scope) (args : List Arg) : Fragment := Slot.list (Arg.slots s args)

/-- A text followed by a space, unless it is empty. -/
def spacedText (text : String) : Fragment := if text.isEmpty then [] else [.text (text ++ " ")]

namespace Where

/-- The conditions to join: those of a conjunction that stands alone, unless one of them is an
alternative. -/
def flattened (w : Where) : List Expression :=
  match w.conditions with
  | [.and children] =>
    if children.any fun c => match c with
      | .or _ => true
      | _ => false
    then w.conditions
    else children
  | conditions => conditions

/-- Exchanges the first condition with the first that can stand in front: a lone alternative would
join nothing by its OR. -/
def reordered : List Expression → List Expression
  | [] => []
  | first :: rest =>
    if first.isLoneOr then
      match rest.span (·.isLoneOr) with
      | (_, []) => first :: rest
      | (skipped, found :: after) => found :: skipped ++ first :: after
    else first :: rest

/-- The conditions of the clause. -/
def fragment (s : Scope) (w : Where) : Fragment :=
  Child.connected " AND " (Expression.children s (reordered w.flattened))

end Where

/-- The columns to group by, and the conditions on groups with their keyword. -/
def GroupBy.fragment (s : Scope) (g : GroupBy) : Fragment :=
  columnList s g.columns ++
    if Expression.allEmpty g.having then []
    else .text (if g.columns.isEmpty then "HAVING " else " HAVING ")
      :: (Where.mk g.having).fragment s

namespace Select

/-- The columns of the table of the statement that the schema reads and the clause does not leave
out; all columns where there are none. -/
def remaining (s : Scope) (omits : List String) : Fragment :=
  let names := match s.schema with
    | none => []
    | some layout => (layout.columnsWhere (·.readable)).filter (!omits.contains ·)
  if names.isEmpty then [.text "*"]
  else columnList s (names.map Column.ofCurrentTable)

/-- What is selected. -/
def fragment (s : Scope) (c : Select) : Fragment :=
  (if c.distinct then [.text "DISTINCT "] else []) ++
    match c.expression with
    | some e => e.fragment s
    | none =>
      if !c.columns.isEmpty then columnList s c.columns
      else if !c.omits.isEmpty then remaining s c.omits
      else [.text "*"]

end Select

/-- The columns that are returned. -/
def Returning.fragment (s : Scope) (r : Returning) : Fragment :=
  if r.columns.isEmpty then [.text "*"] else columnList s r.columns

/-- The point in time with its keyword. -/
def AsOfSystemTime.fragment (a : AsOfSystemTime) : Fragment :=
  match a.raw.filter (!·.isEmpty), a.timestamp with
  | some raw, _ => [.text ("AS OF SYSTEM TIME " ++ raw)]
  | none, some t => [.text ("AS OF SYSTEM TIME '" ++ t.text 6 ++ "'")]
  | none, none => []

/-- A join: its condition, or else the columns that both sides share. -/
def Join.fragment (s : Scope) (j : Join) : Fragment :=
  match j.expression with
  | some e => e.fragment s
  | none =>
    .text (j.type.keyword ++ " JOIN ") :: j.table.fragment s ++
      if !j.on.isEmpty then .text " ON " :: j.on.fragment s
      else if !j.sharedColumns.isEmpty then
        Fragment.enclosed " USING (" (identList s j.sharedColumns) ")"
      else []

/-- The tables, the joins and the point in time. -/
def From.fragment (s : Scope) (f : From) : Fragment :=
  (if f.tables.isEmpty then Table.current.fragment s
    else Fragment.joined "," (f.tables.map (Table.fragment s)))
  ++ f.joins.flatMap (fun j => .text " " :: j.fragment s)
  ++ match f.asOf.filter (!·.isEmpty) with
    | some a => .text " " :: a.fragment
    | none => []

/-- The entries to order by. -/
def OrderBy.fragment (s : Scope) (o : OrderBy) : Fragment :=
  match o.expression with
  | some e => e.fragment s
  | none => Fragment.joined "," (o.columns.map fun c =>
      c.column.fragment s ++ if c.desc then [.text " DESC"] else [])

/-- The limit and the offset with their keywords. An offset without a limit takes the greatest limit
of the dialect, where it has one. -/
def Limit.fragment (s : Scope) (l : Limit) : Fragment :=
  let limit : Option String := match l.effective with
    | some n => some (toString n)
    | none => if 0 < l.offset then s.dialect.maxLimit.map toString else none
  (match limit with
    | some n => [.text ("LIMIT " ++ n)]
    | none => [])
  ++ if 0 < l.offset then
      [.text ((if limit.isSome then " " else "") ++ "OFFSET " ++ toString l.offset)]
    else []

/-- The table that is written to, after the word before it and the text that announces it. -/
def Target.fragment (s : Scope) (announce : String) (t : Target) : Fragment :=
  spacedText t.modifier ++ .text announce :: (t.table.getD .current).fragment s

/-- The columns and the rows. -/
def Values.fragment (s : Scope) (v : Values) : Fragment :=
  if v.columns.isEmpty then [.text "DEFAULT VALUES"]
  else Fragment.enclosed "(" (columnList s v.columns) ") VALUES " ++
    Fragment.joined "," (v.rows.map fun row => Fragment.enclosed "(" (argList s row) ")")

/-- The assignments; without any the primary key is set to itself. -/
def Assignments.fragment (s : Scope) (a : Assignments) : Fragment :=
  if a.list.isEmpty then
    Column.primaryKey.fragment s ++ .text "=" :: Column.primaryKey.fragment s
  else
    Fragment.joined "," (a.list.map fun x =>
      x.column.fragment s ++ .text "=" :: (x.value.slot s).whole)

/-- The keyword and the word after it. -/
def Delete.fragment (d : Delete) : Fragment :=
  .text "DELETE" :: if d.modifier.isEmpty then [] else [.text (" " ++ d.modifier)]

namespace OnConflict

/-- The assignments; when every column is to be updated, one for each that may be and is neither
part of the primary key nor set on insertion. -/
def assignments (s : Scope) (c : OnConflict) : Assignments :=
  if !c.updates.list.isEmpty || !c.updateAll then c.updates
  else
    let columns := match s.schema with
      | none => []
      | some layout => layout.columnsWhere fun f =>
        f.updatable && !f.primaryKey && f.autoCreateTime.isNone
    .ofExcluded columns

/-- A condition with its keyword and the space after it. -/
def conditionFragment (s : Scope) (w : Where) : Fragment :=
  if w.isEmpty then [] else Fragment.enclosed " WHERE " (w.fragment s) " "

/-- What identifies the row that is there already. -/
def targetFragment (s : Scope) (c : OnConflict) : Fragment :=
  match c.constraint with
  | some name => [.text ("ON CONSTRAINT " ++ name ++ " ")]
  | none =>
    (if c.columns.isEmpty then [] else Fragment.enclosed "(" (columnList s c.columns) ") ")
      ++ conditionFragment s c.targetCondition

/-- The row, and what is done about it. -/
def fragment (s : Scope) (c : OnConflict) : Fragment :=
  targetFragment s c
  ++ (if c.doNothing then [.text "DO NOTHING"]
    else .text "DO UPDATE SET " :: (c.assignments s).fragment s)
  ++ conditionFragment s c.condition

end OnConflict

/-- The strength of the lock, the table it is for, and what to do about other locks. -/
def Locking.fragment (s : Scope) (l : Locking) : Fragment :=
  .text l.strength.keyword
    :: (match l.table with
      | some t => .text " OF " :: t.fragment s
      | none => [])
    ++ match l.wait with
      | some w => [.text (" " ++ w.keyword)]
      | none => []

/-- A named query. -/
def Cte.fragment (s : Scope) (c : Cte) : Fragment :=
  s.quoted c.name
    :: (if c.columns.isEmpty then []
      else Fragment.enclosed " (" (identList s (c.columns.map Text.trim)) ")")
    ++ Fragment.enclosed " AS (" (c.body.fragment s) ")"

/-- The named queries that have a name. -/
def With.fragment (s : Scope) (w : With) : Fragment :=
  match w.expression with
  | some e => e.fragment s
  | none =>
    (if w.recursive then [.text "RECURSIVE "] else []) ++
      Fragment.joined "," ((w.ctes.filter (!·.name.isEmpty)).map (Cte.fragment s))

namespace Clause

/-- The body of a clause. -/
def Body.fragment (s : Scope) : Body → Fragment
  | .select b => b.fragment s
  | .fromTables b => b.fragment s
  | .conditions b => b.fragment s
  | .groupBy b => b.fragment s
  | .orderBy b => b.fragment s
  | .limit b => b.fragment s
  | .insert b => b.fragment s "INTO "
  | .values b => b.fragment s
  | .update b => b.fragment s ""
  | .set b => b.fragment s
  | .delete b => b.fragment
  | .returning b => b.fragment s
  | .onConflict b => b.fragment s
  | .locking b => b.fragment s
  | .queries b => b.fragment s
  | .asOfSystemTime b => b.fragment
  | .custom _ b => b.fragment s

/-- The parts of a clause with spaces between them; nothing without a body. -/
def Parts.fragment (s : Scope) (p : Parts) : Fragment :=
  match p.body with
  | none => []
  | some body =>
    let leading (e : Option Expression) : Fragment := match e with
      | some e => e.fragment s ++ [.text " "]
      | none => []
    let trailing : Fragment := match p.after with
      | some e => .text " " :: e.fragment s
      | none => []
    leading p.before ++ spacedText p.name ++ leading p.afterName ++ body.fragment s ++ trailing

/-- A clause as it is written, in a way of its own if it has one. -/
def fragment (s : Scope) (c : Clause) : Fragment :=
  match c.writer with
  | some write => write c.toParts
  | none => c.toParts.fragment s

end Clause

end RecordSql
