import RecordSql.Error
import RecordSql.Value
/-!
Fragments of statements before they are written: text, bound values and errors in their order. A
fragment knows neither the number of a placeholder nor the table of its statement.
-/

namespace RecordSql

/-- A piece of a statement. -/
inductive Piece where
  | text (s : String)
  /-- A value, for which a placeholder is written. -/
  | bound (v : Value)
  /-- An error, which writes nothing. -/
  | fault (e : Error)
  /-- The table of the statement. -/
  | currentTable

/-- Pieces in the order in which they are written. -/
abbrev Fragment := List Piece

namespace Fragment

/-- Fragments with a text between them. -/
def joined (separator : String) : List Fragment → Fragment
  | [] => []
  | [f] => f
  | f :: fs => f ++ Piece.text separator :: joined separator fs

/-- A fragment between two texts. -/
def enclosed (opening : String) (f : Fragment) (closing : String) : Fragment :=
  Piece.text opening :: f ++ [Piece.text closing]

/-- A fragment in parentheses, if it is to stand in parentheses. -/
def parenthesized (wrap : Bool) (f : Fragment) : Fragment :=
  if wrap then enclosed "(" f ")" else f

/-- Whether the fragment mentions the table of its statement. -/
def mentionsTable (f : Fragment) : Bool :=
  f.any fun
    | .currentTable => true
    | _ => false

/-- Puts a fragment wherever the table of the statement is mentioned. -/
def withTable (f : Fragment) (table : Fragment) : Fragment :=
  f.flatMap fun
    | .currentTable => table
    | p => [p]

end Fragment

end RecordSql
