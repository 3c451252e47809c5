import RecordSql.Schema.Kind
/-!
Descriptions of record types, and the catalog of those that are known.
-/

namespace RecordSql

/-- A field of a record type as it is declared. -/
structure DeclaredField where
  name : String
  kind : Kind
  tag : String := ""
  /-- The field has no name of its own; the fields of its type belong to the record. -/
  anonymous : Bool := false
  deriving DecidableEq, Repr

/-- A record type as it is declared. -/
structure Model where
  name : String
  /-- The table the type names for itself. -/
  tableName : Option String := none
  tag : String := ""
  fields : List DeclaredField := []
  deriving DecidableEq, Repr

/-- Record types by their identity. -/
structure Catalog where
  models : List (String × Model)

/-- The description of a record type. A type outside the catalog has none: it has no name and no
fields. -/
def Catalog.describe (c : Catalog) (model : ModelRef) : Model :=
  (c.models.lookup model.id).getD { name := "" }

end RecordSql
