import RecordSql.Schema.Assembly
/-!
Schemas of record types without their relationships. The fields of embedded records stand in the
place of the field that embeds them, and so on for the records embedded in those.
-/

namespace RecordSql

/-- A schema: a layout, and the layouts of the records it embeds. -/
structure Schema extends Layout where
  /-- The embedded records in the order of the fields that embed them. -/
  embedded : List Layout := []

/-- Turns an error into a failure to parse. -/
def refuse : Except Error α → Except ParseFailure α
  | .ok a => .ok a
  | .error e => .error (.refused e)

/-- The fields of a record type and the layouts of the records embedded in it, of which `count` have
gone before. -/
def flattenFields (embed : ModelRef → Except ParseFailure Layout) (model : String) (count : Nat) :
    List DeclaredField → Except ParseFailure (List Field × List Layout)
  | [] => .ok ([], [])
  | d :: ds => do
    let (field, inner) ← refuse (Field.parse model d)
    match inner with
    | none =>
      let (fields, layouts) ← flattenFields embed model count ds
      return (field :: fields, layouts)
    | some inner =>
      let layout ← embed inner
      let (fields, layouts) ← flattenFields embed model (count + 1) ds
      return (layout.fields.map (Field.adopted field count) ++ fields, layout :: layouts)

namespace Schema

/-- The schema of a record type stored in a table, with records embedded to a depth below
`depth`. -/
def ofModel (catalog : Catalog) (ns : Naming) (table : String) (depth : Nat) (model : Model) :
    Except ParseFailure Schema :=
  match depth with
  | 0 => .error .endless
  | depth + 1 =>
    if model.name.isEmpty then .error (.refused (.unsupportedModel "anonymous type"))
    else do
      let embed (inner : ModelRef) : Except ParseFailure Layout :=
        (ofModel catalog ns table depth (catalog.describe inner)).map (·.toLayout)
      let (fields, embedded) ← flattenFields embed model.name 0 model.fields
      let layout ← refuse (Layout.assemble model.name table fields ns)
      return { layout with embedded }

/-- The table of a record type: one that is asked for, or that the type names for itself, or else
the one its name gives. -/
def tableOf (ns : Naming) (model : Model) (table : Option String) : String :=
  let named := table.orElse fun _ => model.tableName.orElse fun _ =>
    (Tag.Settings.parse ';' model.tag).value? "TABLENAME"
  named.getD (ns.tableName model.name)

/-- The schema of a record type of the catalog. Records embedded deeper than there are types embed
themselves. -/
def parse (catalog : Catalog) (ns : Naming) (ref : ModelRef) (table : Option String) :
    Except ParseFailure Schema :=
  let model := catalog.describe ref
  ofModel catalog ns (tableOf ns model table) (catalog.models.length + 1) model

end Schema

end RecordSql
