import RecordSql.Schema.Side
/-!
Join tables: the schema of the table whose rows link the records of the two sides of a many-to-many
relationship. Each of its fields is a copy of a key field of one side.
-/

namespace RecordSql

open RecordSql.Text

/-- A field of a join table: its name, and the key field it is a copy of. -/
structure JoinField where
  name : String
  source : KeyField

/-- The settings of a key field that its copy does without. -/
def JoinField.droppedSettings : List String :=
  ["column", "autoincrement", "index", "unique", "uniqueindex"]

/-- Whether the copy of a column is of the same type: not if the type says that the column is
counted up or is a key. -/
def isCopied (type : DataType) : Bool :=
  let name := lower type.text
  !contains name "auto_increment" && !contains name "primary key"

/-- The copy: a part of the primary key of the join table `model`. -/
def JoinField.declared (model : String) (j : JoinField) : Except Error Field := do
  let source := j.source.field
  let tag := Tag.remove (Tag.append source.tag "primaryKey") droppedSettings
  let (copy, _) ← Field.parse model { name := j.name, kind := source.kind, tag }
  return { copy with
    dataType := if source.dataType.any isCopied then source.dataType else copy.dataType
    semanticType := source.semanticType
    size := if copy.size = 0 then source.size else copy.size }

/-- A name with its first character in upper case. -/
def upperFirst (name : String) : String :=
  match name.toList with
  | [] => ""
  | c :: cs => String.ofList (upperChar c ++ cs)

/-- A join table, and what it says about the relationship. -/
structure JoinTable where
  schema : Schema
  /-- The references of the many-to-many relationship. -/
  references : List Reference
  /-- The relationships of the join table to the two sides. -/
  links : List Relationship

namespace Pairing

/-- The key fields that a side contributes: those that are named, or its primary key. -/
def contributed (p : Pairing) (side : Side) (names : List String) : Except Error (List KeyField) :=
  if names.isEmpty then .ok side.primary
  else names.mapM fun name =>
    match side.lookup name with
    | some key => .ok key
    | none => .error (p.refusal ("invalid foreign key: " ++ name))

/-- The fields for the owner's keys. -/
def ownJoinFields (p : Pairing) (keys : List KeyField) : List JoinField :=
  let given := listedColumns (p.field.settings.get? "JOINFOREIGNKEY")
  keys.zipIdx.map fun (key, i) =>
    ⟨((given[i]?).map upperFirst).getD (upperFirst p.owner.schema.name ++ key.field.name), key⟩

/-- The fields for the related schema's keys. A name that the owner's side has taken is made from
the name of the relationship. -/
def relatedJoinFields (p : Pairing) (own : List JoinField) (keys : List KeyField) :
    List JoinField :=
  let given := listedColumns (p.field.settings.get? "JOINREFERENCES")
  let related := p.related.schema.name
  keys.zipIdx.map fun (key, i) =>
    let usual := upperFirst related ++ key.field.name
    let implied :=
      if !own.any (·.name == usual) then usual
      else if p.field.name == related then usual ++ "Reference"
      else p.related.schema.naming.singular p.field.name ++ key.field.name
    ⟨((given[i]?).map upperFirst).getD implied, key⟩

/-- All fields of the join table: a related key whose name is taken has none of its own. -/
def joinFields (own related : List JoinField) : List JoinField :=
  related.foldl
    (fun fields j => if fields.any (·.name == j.name) then fields else fields ++ [j]) own

/-- The key field that a field of the join table is a copy of, among those of one side. -/
def sourceOf (fields : List JoinField) (name : String) : Option KeyField :=
  (fields.find? (·.name == name)).map (·.source)

/-- A relationship of the join table to one of the sides. -/
def link (p : Pairing) (join : SchemaRef) (position : Nat) (name : String) (target : SchemaRef)
    (references : List Reference) : Relationship :=
  { name, kind := .belongsTo, field := p.field, owner := join, position, related := target,
    references }

/-- The join table of a many-to-many relationship, to be known by the given number. `given` is what
the tag calls it. -/
def joinTable (p : Pairing) (number : Nat) (given : String) : Except Error JoinTable := do
  let own := p.ownJoinFields (← p.contributed p.owner.side p.foreignKeys)
  let related := p.relatedJoinFields own (← p.contributed p.related.side p.primaryKeys)
  let ns := p.related.schema.naming
  let fields ← (joinFields own related).mapM (JoinField.declared given)
  let layout ← Layout.assemble given (ns.joinTableName given) fields ns
  let join : NumberedSchema := ⟨number, { layout with }⟩
  let copies := ((List.range layout.fields.length).filterMap join.side.key?).filter
    (·.field.hasPermission)
  let pairs (fields : List JoinField) (isOwn : Bool) (copy : KeyField) : List Reference :=
    (sourceOf fields copy.field.name).toList.map fun source =>
      { primaryKey := some source, foreignKey := copy, ownPrimaryKey := isOwn }
  let name := p.owner.schema.name
  let relatedName := if p.related.schema.name == name then p.field.name else p.related.schema.name
  return {
    schema := join.schema
    references := copies.flatMap fun copy => pairs own true copy ++ pairs related false copy
    links := [
      p.link join.ref 0 name p.owner.ref (copies.flatMap (pairs own false)),
      p.link join.ref 1 relatedName p.related.ref (copies.flatMap (pairs related false))] }

end Pairing

end RecordSql
