import RecordSql.Schema.Cache
import RecordSql.Statement
/-!
The settings shared by the statements and schemas of a program, and how they are read from JSON
text. A record of settings is an object, in which other keys are passed over, or an array of the
settings in their order, which may be cut short. Settings that are left out have their defaults.
-/

namespace RecordSql

/-- Settings. -/
structure Config where
  /-- The name of the dialect. -/
  dialect : String := "mysql"
  /-- Statements may update or delete every row. -/
  allowGlobalUpdate : Bool := false
  naming : Naming := {}

namespace Json.Raw

/-- A text. -/
def text? : Raw → Option String
  | .string s => s
  | _ => none

/-- A flag. -/
def flag? : Raw → Option Bool
  | .bool b => some b
  | _ => none

/-- A natural number of 64 bits. -/
def natural? : Raw → Option Nat
  | .number lexeme =>
    match lexeme.number? with
    | some (.integer (.ofNat n)) => some n
    | _ => none
  | _ => none

/-- A list. -/
def list? (item? : Raw → Option α) : Raw → Option (List α)
  | .array items => items.mapM item?
  | _ => none

/-- A pair of texts. -/
def textPair? : Raw → Option (String × String)
  | .array [a, b] => do return (← a.text?, ← b.text?)
  | _ => none

/-- What is given for the settings of a record, in the order of their names. No setting may be given
twice. -/
def settings? (names : List String) : Raw → Option (List (Option Raw))
  | .array items =>
    if items.length ≤ names.length then
      some (names.zipIdx.map fun (_, i) => items[i]?)
    else none
  | .object members =>
    if members.all (·.1.isSome) then
      names.mapM fun name =>
        match members.filter (·.1 == some name) with
        | [] => some none
        | [(_, value)] => some (some value)
        | _ => none
    else none
  | _ => none

/-- The value of a setting, or its default if it is not given. -/
def setting? (default : α) (read? : Raw → Option α) : Option Raw → Option α
  | none => some default
  | some raw => read? raw

end Json.Raw

open Json (Raw)

/-- Reads settings for naming. -/
def Naming.ofRaw? (raw : Raw) : Option Naming := do
  let given ← raw.settings? ["table_prefix", "singular_table", "no_lower_case",
    "identifier_max_length", "name_replacements"]
  match given with
  | [tablePrefix, singularTables, keepCase, maxLength, replacements] =>
    return {
      tablePrefix := ← Raw.setting? "" Raw.text? tablePrefix
      singularTables := ← Raw.setting? false Raw.flag? singularTables
      keepCase := ← Raw.setting? false Raw.flag? keepCase
      maxLength := ← Raw.setting? 0 Raw.natural? maxLength
      replacements := ← Raw.setting? [] (Raw.list? Raw.textPair?) replacements }
  | _ => none

namespace Config

/-- Reads settings. -/
def ofRaw? (raw : Raw) : Option Config := do
  match ← raw.settings? ["dialect", "allow_global_update", "naming"] with
  | [dialect, allowGlobalUpdate, naming] =>
    return {
      dialect := ← Raw.setting? "mysql" Raw.text? dialect
      allowGlobalUpdate := ← Raw.setting? false Raw.flag? allowGlobalUpdate
      naming := ← Raw.setting? {} Naming.ofRaw? naming }
  | _ => none

/-- Reads settings from JSON text. -/
def ofText? (text : String) : Option Config := (Raw.ofText? text).bind ofRaw?

/-- The dialect that the settings name. -/
def dialect? (c : Config) (dialects : List Dialect) : Except Error Dialect :=
  match Dialect.lookup dialects c.dialect with
  | some d => .ok d
  | none => .error (.config ("unknown dialect: " ++ c.dialect))

/-- Settings from JSON text that name one of the given dialects. -/
def load (dialects : List Dialect) (text : String) : Except Error Config :=
  match ofText? text with
  | none => .error (.config "malformed settings")
  | some c => (c.dialect? dialects).map fun _ => c

/-- An empty statement. -/
def statement (c : Config) (dialects : List Dialect) : Except Error Statement :=
  (c.dialect? dialects).map fun dialect => { dialect, allowGlobalUpdate := c.allowGlobalUpdate }

/-- A cache that has read no schema yet. -/
def schemaCache (c : Config) (catalog : Catalog) : SchemaCache := { catalog, naming := c.naming }

end Config

end RecordSql
