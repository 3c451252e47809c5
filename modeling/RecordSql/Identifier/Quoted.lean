import RecordSql.Text.Split
/-!
Quoted identifiers: between quotes, a quote inside written twice. The first dot of a name
separates a qualifier from the name proper, and each of the two has quotes of its own.
-/

namespace RecordSql.Quoted

open RecordSql.Text

/-- A part of a name without the quotes it may have around it already. -/
def bare (quote : Char) (part : List Char) : List Char :=
  match part with
  | [] => []
  | c :: rest =>
    if c == quote && rest.getLast? == some quote then rest.dropLast else part

/-- Writes every quote twice. -/
def doubled (quote : Char) (part : List Char) : List Char :=
  part.flatMap fun c => if c == quote then [quote, quote] else [c]

/-- One part of a name between quotes. -/
def quotedPart (quote : Char) (part : List Char) : List Char :=
  quote :: doubled quote (bare quote part) ++ [quote]

/-- A name between quotes. -/
def quoted (quote : Char) (name : List Char) : List Char :=
  match cutChars '.' name with
  | some (qualifier, rest) => quotedPart quote qualifier ++ '.' :: quotedPart quote rest
  | none => quotedPart quote name

/-- A name between quotes, as text. -/
def text (quote : Char) (name : String) : String :=
  String.ofList (quoted quote name.toList)

end RecordSql.Quoted
