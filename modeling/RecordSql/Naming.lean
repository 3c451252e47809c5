import RecordSql.Inflection
import RecordSql.Sha1
/-!
Names of tables, columns, join tables and constraints, made from the names of record types and their
fields. Database names are lower-case words joined by underscores, in which a common initialism is
one word.
-/

namespace RecordSql

open RecordSql.Text

/-- How names are made. -/
structure Naming where
  /-- Stands before every table name. -/
  tablePrefix : String := ""
  /-- Table names stay singular. -/
  singularTables : Bool := false
  /-- Names stay as they are written. -/
  keepCase : Bool := false
  /-- The most characters of a constraint name; zero means 64. -/
  maxLength : Nat := 0
  /-- Parts of names to be replaced before anything else, the first that fits counting. -/
  replacements : List (String × String) := []
  /-- The plural of a word. -/
  plural : String → String := Inflection.plural
  /-- The singular of a word. -/
  singular : String → String := Inflection.singular
  /-- Digits that stand for a text. -/
  digest : String → String := Sha1.hexDigest

namespace Naming

/-- Initialisms that are one word in a name. -/
def initialisms : List String :=
  [
    "API", "ASCII", "CPU", "CSS", "DNS", "EOF", "GUID", "HTML", "HTTP", "HTTPS", "ID", "IP",
    "JSON", "LHS", "QPS", "RAM", "RHS", "RPC", "SLA", "SMTP", "SSH", "TLS", "TTL", "UID", "UI",
    "UUID", "URI", "URL", "UTF8", "VM", "XML", "XSRF", "XSS"
  ]

/-- Raises an ASCII letter at the start. -/
def capitalized : List Char → List Char
  | [] => []
  | c :: cs => c.toUpper :: cs

/-- An initialism written as a word: `Api`. -/
def asWord (initialism : String) : List Char :=
  capitalized (initialism.toList.map Char.toLower)

/-- Whether the character is an ASCII capital. -/
def isUpper (c : Char) : Bool := decide ('A' ≤ c) && decide (c ≤ 'Z')

/-- Whether the character is an ASCII digit. -/
def isDigit (c : Char) : Bool := decide ('0' ≤ c) && decide (c ≤ '9')

/-- Whether an underscore stands before the capital `c` that follows `previous` and precedes `next`.
A run of capitals and digits is one word; the last character of a name starts a word of its own
unless a capital stands before it. -/
def breaksBefore (previous : Option Char) (next : Option Char) : Bool :=
  match previous with
  | none => false
  | some p =>
    match next with
    | none => !isUpper p
    | some n => !(isUpper p && (isUpper n || isDigit n)) && p != '_' && n != '_'

/-- Lower-case words joined by underscores, for the rest of a name after `previous`. -/
def snakeFrom (previous : Option Char) : List Char → List Char
  | [] => []
  | c :: rest =>
    let here :=
      if isUpper c then
        if breaksBefore previous rest.head? then ['_', c.toLower] else [c.toLower]
      else [c]
    here ++ snakeFrom (some c) rest

/-- A name as lower-case words joined by underscores. -/
def snakeCase (name : List Char) : List Char :=
  snakeFrom none (replacePairs (initialisms.map fun i => (i.toList, asWord i)) 0 name)

/-- The database form of a name. A name that replacements leave empty stays as it was. -/
def dbName (ns : Naming) (name : String) : String :=
  if name.isEmpty then ""
  else
    let pairs := ns.replacements.map fun p => (p.1.toList, p.2.toList)
    let replaced := replacePairs pairs 0 name.toList
    if replaced.isEmpty then name
    else if ns.keepCase then String.ofList replaced
    else String.ofList (snakeCase replaced)

/-- Restores one initialism, written as a word, where a capital, an underscore or the end
follows. -/
def restoreInitialism (word initialism : List Char) (skip : Nat) : List Char → List Char
  | [] => []
  | c :: cs =>
    match skip with
    | skip + 1 => restoreInitialism word initialism skip cs
    | 0 =>
      match dropStart? word (c :: cs) with
      | some [] => initialism
      | some (x :: _) =>
        if isUpper x || x == '_' then
          initialism ++ x :: restoreInitialism word initialism word.length cs
        else c :: restoreInitialism word initialism 0 cs
      | none => c :: restoreInitialism word initialism 0 cs

/-- The name of a record type or field for words joined by underscores: `user_id` gives `UserID`. -/
def typeName (name : String) : String :=
  let joined := (splitChars '_' name.toList).flatMap capitalized
  String.ofList
    (initialisms.foldl (fun text i => restoreInitialism (asWord i) i.toList 0 text) joined)

/-- The table of a record type. -/
def tableName (ns : Naming) (name : String) : String :=
  let base := ns.dbName name
  ns.tablePrefix ++ if ns.singularTables then base else ns.plural base

/-- The record type that a table may belong to. -/
def schemaName (ns : Naming) (table : String) : String :=
  let bare := ((dropStart? ns.tablePrefix.toList table.toList).map String.ofList).getD table
  typeName (if ns.singularTables then bare else ns.singular bare)

/-- The column of a field. -/
def columnName (ns : Naming) (field : String) : String := ns.dbName field

/-- The table that links the two sides of a many-to-many relationship; a name without capitals is
used as it is written. -/
def joinTableName (ns : Naming) (raw : String) : String :=
  if !ns.keepCase && lower raw == raw then ns.tablePrefix ++ raw else ns.tableName raw

/-- The most characters of a constraint name. -/
def limit (ns : Naming) : Nat := if ns.maxLength = 0 then 64 else ns.maxLength

/-- Joins the parts of a constraint name by underscores. One that is too long is cut, and the digest
of the whole name ends it. -/
def constraintName (ns : Naming) (kind table name : String) : String :=
  let full := replaceChar '.' "_" (kind ++ "_" ++ table ++ "_" ++ name)
  if full.length ≤ ns.limit then full
  else
    let digits := min ns.limit 8
    String.ofList (full.toList.take (ns.limit - digits) ++ (ns.digest full).toList.take digits)

/-- The name of the foreign key behind a relationship. -/
def foreignKeyName (ns : Naming) (table relationship : String) : String :=
  ns.constraintName "fk" table (ns.dbName relationship)

/-- The name of a check. -/
def checkName (ns : Naming) (table column : String) : String :=
  ns.constraintName "chk" table column

/-- The name of an index. -/
def indexName (ns : Naming) (table column : String) : String :=
  ns.constraintName "idx" table (ns.dbName column)

/-- The name of a uniqueness constraint. -/
def uniqueName (ns : Naming) (table column : String) : String :=
  ns.constraintName "uni" table (ns.dbName column)

end Naming

end RecordSql
