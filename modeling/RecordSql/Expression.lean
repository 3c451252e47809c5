import RecordSql.Identifier
import RecordSql.Value
/-!
Expressions: comparisons, conditions built from them, and raw SQL with arguments. An expression that
would write nothing is empty; conditions leave out their empty parts.
-/

namespace RecordSql

/-- The ways to compare a column with a value. -/
inductive Comparison where
  | eq
  | neq
  | gt
  | gte
  | lt
  | lte
  | like
  deriving DecidableEq, Repr

mutual
/-- What is put in the place of a placeholder. -/
inductive Arg where
  /-- One value, bound as it is. -/
  | value (v : Value)
  /-- Several arguments, which may be spread over several placeholders. -/
  | list (items : List Arg)
  | column (c : Column)
  | table (t : Table)
  | expr (e : Expression)
  /-- An argument for every place where `@name` stands. -/
  | named (name : String) (arg : Arg)
  /-- Arguments by name. -/
  | map (entries : List (String × Arg))

/-- A branch of a case distinction, with the arguments of both its texts. -/
inductive Branch where
  | mk (condition result : String) (args : List Arg)

/-- An expression. -/
inductive Expression where
  | compare (op : Comparison) (column : Column) (arg : Arg)
  /-- The column has one of the values. -/
  | member (column : Column) (args : List Arg)
  /-- SQL with a question mark for each argument. With `spread` lists are always spread, without it
  only after an opening parenthesis. -/
  | raw (sql : String) (args : List Arg) (spread : Bool)
  /-- SQL with `@name` and question marks. -/
  | named (sql : String) (args : List Arg)
  /-- All of the conditions. -/
  | and (children : List Expression)
  /-- One of the conditions. -/
  | or (children : List Expression)
  /-- None of the conditions. -/
  | not (children : List Expression)
  | case (branches : List Branch) (otherwise : Option (String × List Arg))
  /-- Expressions with commas between them. -/
  | comma (children : List Expression)
end

/-- Whether the argument is the null value. -/
def Arg.isNull : Arg → Bool
  | .value v => v.isNull
  | _ => false

/-- Whether the argument is a list. -/
def Arg.isList : Arg → Bool
  | .list _ => true
  | _ => false

/-- The values of a list of arguments that are all values. -/
def Arg.values? : List Arg → Option (List Value)
  | [] => some []
  | .value v :: rest => (Arg.values? rest).map (v :: ·)
  | _ :: _ => none

namespace Expression

/-- Raw SQL whose lists are spread after an opening parenthesis. -/
def sql (text : String) (args : List Arg) : Expression := .raw text args false

/-- All of the conditions; one that is no alternative stands for itself. -/
def conjunction : List Expression → Expression
  | [.or children] => .and [.or children]
  | [e] => e
  | es => .and es

/-- Whether the expression has a negated form of its own. -/
def isNegatable : Expression → Bool
  | .compare .. => true
  | .member .. => true
  | .not _ => true
  | _ => false

/-- Whether the expression is an alternative of one condition, which joins what stands before it by
OR. -/
def isLoneOr : Expression → Bool
  | .or [_] => true
  | _ => false

mutual
/-- Whether the expression writes nothing. -/
def isEmpty : Expression → Bool
  | .compare .. => false
  | .member .. => false
  | .raw sql _ _ => sql.isEmpty
  | .named sql _ => sql.isEmpty
  | .and children => allEmpty children
  | .or children => allEmpty children
  | .not children =>
    if children.all isNegatable then allEmptyNegation children else allEmpty children
  | .case .. => false
  | .comma children => allEmpty children

/-- Whether the negated form of the expression writes nothing. -/
def isEmptyNegation : Expression → Bool
  | .compare .. => false
  | .member _ args => args.isEmpty
  | .raw sql _ _ => sql.isEmpty
  | .named sql _ => sql.isEmpty
  | .and children => allEmpty children
  | .or children => allEmpty children
  | .not children => allEmpty children
  | .case .. => false
  | .comma children => allEmpty children

/-- Whether every expression writes nothing. -/
def allEmpty : List Expression → Bool
  | [] => true
  | e :: es => isEmpty e && allEmpty es

/-- Whether the negated form of every expression writes nothing. -/
def allEmptyNegation : List Expression → Bool
  | [] => true
  | e :: es => isEmptyNegation e && allEmptyNegation es
end

end Expression

end RecordSql
