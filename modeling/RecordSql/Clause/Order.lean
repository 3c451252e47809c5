import RecordSql.Expression
/-!
The order of rows, how many of them are read, and how they are locked.
-/

namespace RecordSql

/-- A column to order by. -/
structure OrderByColumn where
  column : Column
  desc : Bool := false
  /-- Nothing before this entry counts. -/
  reorder : Bool := false

/-- The entries of an ORDER BY clause. -/
structure OrderBy where
  columns : List OrderByColumn := []
  /-- Stands in the place of the entries. -/
  expression : Option Expression := none

namespace OrderBy

/-- Whether there is no entry and no expression that writes anything. -/
def isEmpty (o : OrderBy) : Bool := o.columns.isEmpty && o.expression.all (·.isEmpty)

/-- The entries from the last that reorders on, if one does. -/
def fromReorder? : List OrderByColumn → Option (List OrderByColumn)
  | [] => none
  | c :: cs => (fromReorder? cs).orElse fun _ => if c.reorder then some (c :: cs) else none

/-- Later entries follow earlier ones, unless one of them reorders. -/
def merge (earlier later : OrderBy) : OrderBy :=
  { columns := (fromReorder? later.columns).getD (earlier.columns ++ later.columns)
    expression := later.expression.orElse fun _ => earlier.expression }

end OrderBy

/-- How many rows are read, and how many are passed over first. A negative limit is none. -/
structure Limit where
  limit : Option Int := none
  offset : Int := 0
  deriving DecidableEq, Repr

namespace Limit

/-- The limit, if it is one. -/
def effective (l : Limit) : Option Int := l.limit.filter fun n => 0 ≤ n

/-- Whether there is neither a limit nor an offset. -/
def isEmpty (l : Limit) : Bool := l.effective.isNone && l.offset ≤ 0

/-- No offset in the place of a negative one. -/
def normalized (l : Limit) : Limit := { l with offset := max l.offset 0 }

/-- A later limit replaces an earlier one unless it is zero; a later offset unless it is zero, and a
negative one takes the offset away. -/
def merge (earlier later : Limit) : Limit :=
  { limit :=
      if earlier.limit.isSome ∧ (later.limit = none ∨ later.limit = some 0) then earlier.limit
      else later.limit
    offset :=
      if later.offset = 0 ∧ 0 < earlier.offset then earlier.offset else max later.offset 0 }

end Limit

/-- How far a lock goes. -/
inductive LockStrength where
  | update
  | share
  deriving DecidableEq, Repr

/-- The word for a strength. -/
def LockStrength.keyword : LockStrength → String
  | .update => "UPDATE"
  | .share => "SHARE"

/-- What happens with rows that others have locked. -/
inductive LockWait where
  | noWait
  | skipLocked
  deriving DecidableEq, Repr

/-- The words for it. -/
def LockWait.keyword : LockWait → String
  | .noWait => "NOWAIT"
  | .skipLocked => "SKIP LOCKED"

/-- How rows are locked. -/
structure Locking where
  strength : LockStrength := .update
  table : Option Table := none
  wait : Option LockWait := none

end RecordSql
