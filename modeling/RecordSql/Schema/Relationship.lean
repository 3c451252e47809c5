import RecordSql.Expression
import RecordSql.Schema.Embedding
/-!
Relationships between schemas: which fields of one hold the keys of the other, and the conditions
and constraints that follow from that.
-/

namespace RecordSql

/-- How two schemas are related. -/
inductive RelationshipKind where
  /-- The related record, at most one, holds a key of this one. -/
  | hasOne
  /-- The related records hold a key of this one. -/
  | hasMany
  /-- This record holds a key of the related one. -/
  | belongsTo
  /-- Records are linked by the rows of a join table. -/
  | manyToMany
  deriving DecidableEq, Repr

/-- The text of a kind of relationship. -/
def RelationshipKind.text : RelationshipKind → String
  | .hasOne => "has_one"
  | .hasMany => "has_many"
  | .belongsTo => "belongs_to"
  | .manyToMany => "many_to_many"

/-- Where a field lives: in a schema that has been read, known by its number, or in one of the
records embedded there. -/
structure Home where
  schema : Nat
  embedded : Option Nat := none
  deriving DecidableEq, Repr

/-- A field that takes part in a relationship, and where it lives. -/
structure KeyField where
  home : Home
  position : Nat
  field : Field

/-- Whether two are the same field of the same schema. -/
def KeyField.same (a b : KeyField) : Bool := a.home = b.home && a.position == b.position

/-- A schema that has been read, by its number, with its name and table. -/
structure SchemaRef where
  number : Nat
  name : String
  table : String
  deriving DecidableEq, Repr

/-- A pair of fields of which one holds the other's value, or a field that holds a constant. -/
structure Reference where
  /-- The field whose value is held; none where it is a constant. -/
  primaryKey : Option KeyField
  /-- The constant. -/
  primaryValue : String := ""
  /-- The field that holds it. -/
  foreignKey : KeyField
  /-- The value is one of the schema that has the relationship. -/
  ownPrimaryKey : Bool

/-- Whether two references pair the same fields. -/
def Reference.same (a b : Reference) : Bool :=
  (match a.primaryKey, b.primaryKey with
    | some p, some q => p.same q
    | none, none => true
    | _, _ => false)
  && a.foreignKey.same b.foreignKey && a.primaryValue == b.primaryValue

/-- The fields by which a related record tells what it belongs to. -/
structure Polymorphic where
  id : KeyField
  typeField : KeyField
  /-- What the type field holds. -/
  value : String

/-- A relationship. -/
structure Relationship where
  name : String
  kind : RelationshipKind
  /-- The field that declares it. -/
  field : Field
  owner : SchemaRef
  /-- The place among the relationships of the owner. -/
  position : Nat
  related : SchemaRef
  joinTable : Option SchemaRef := none
  polymorphic : Option Polymorphic := none
  references : List Reference

/-- A foreign key constraint. -/
structure ForeignKey where
  name : String
  /-- The field that declares the relationship. -/
  field : Field
  /-- The table that holds the keys. -/
  table : String
  foreignKeys : List Field
  /-- The table whose keys they are. -/
  referenceTable : String
  references : List Field
  onDelete : String
  onUpdate : String

/-- The constraint as SQL. -/
def CheckConstraint.expression (c : CheckConstraint) : Expression :=
  .sql "CONSTRAINT ? CHECK (?)" [.column (.named c.name), .expr (.sql c.condition [])]

/-- The constraint as SQL. -/
def UniqueConstraint.expression (c : UniqueConstraint) : Expression :=
  .sql "CONSTRAINT ? UNIQUE (?)" [.column (.named c.name), .column (.named c.field.dbName)]

/-- The constraint as SQL, with the actions it asks for. -/
def ForeignKey.expression (k : ForeignKey) : Expression :=
  let action (keyword text : String) := if text.isEmpty then "" else keyword ++ text
  let columns (fields : List Field) : Arg := .list (fields.map fun f => .column (.named f.dbName))
  .sql ("CONSTRAINT ? FOREIGN KEY ? REFERENCES ??" ++ action " ON DELETE " k.onDelete
      ++ action " ON UPDATE " k.onUpdate)
    [.column (.named k.name), columns k.foreignKeys, .table (.named k.referenceTable),
      columns k.references]

namespace Relationship

/-- The table that is joined first: the join table, or else that of the related schema. -/
def targetTable (r : Relationship) : String := (r.joinTable.map (·.table)).getD r.related.table

/-- A column equals another. -/
def sameColumn (table column otherTable otherColumn : String) : Expression :=
  .compare .eq (.qualified table column) (.column (.qualified otherTable otherColumn))

/-- A column equals a constant. -/
def constantColumn (table column value : String) : Expression :=
  .compare .eq (.qualified table column) (.value (.text value))

/-- The condition that a reference puts on a join. -/
def joinCondition (r : Relationship) (ref : Reference) : Expression :=
  let foreign := ref.foreignKey.field.dbName
  if !ref.primaryValue.isEmpty then constantColumn r.targetTable foreign ref.primaryValue
  else match ref.primaryKey with
    | none => .compare .eq (.qualified r.targetTable foreign) (.value .null)
    | some primary =>
      let key := primary.field.dbName
      if ref.ownPrimaryKey then sameColumn r.targetTable foreign r.owner.table key
      else if r.joinTable.isSome then sameColumn r.targetTable foreign r.related.table key
      else sameColumn r.owner.table foreign r.related.table key

/-- The conditions of a join of the related table, or of the join table, to the owner's. -/
def joinOn (r : Relationship) : List Expression := r.references.map r.joinCondition

/-- The fields whose values single out the related rows: the owner's own keys, or the foreign keys
it holds. -/
def keyFields (r : Relationship) : List KeyField :=
  r.references.filterMap fun ref =>
    if !ref.primaryValue.isEmpty then none
    else if ref.ownPrimaryKey then ref.primaryKey
    else if r.joinTable.isNone then some ref.foreignKey
    else none

/-- What a reference asks of related rows: a condition that holds for all of them, or a column whose
value is given. -/
def queryPart (r : Relationship) (ref : Reference) : Option (Expression ⊕ Column) :=
  let foreign := ref.foreignKey.field.dbName
  if ref.ownPrimaryKey then some (.inr (.qualified r.targetTable foreign))
  else if !ref.primaryValue.isEmpty then
    some (.inl (constantColumn r.targetTable foreign ref.primaryValue))
  else ref.primaryKey.map fun primary =>
    if r.joinTable.isSome then
      .inl (sameColumn r.targetTable foreign r.related.table primary.field.dbName)
    else .inr (.qualified r.related.table primary.field.dbName)

/-- The condition that columns have the values of one of several rows. -/
def rowsCondition (columns : List Column) (rows : List (List Value)) : List Expression :=
  match columns with
  | [] => []
  | [column] => [.member column ((rows.filterMap (·.head?)).map .value)]
  | _ =>
    [.or (rows.map fun row => .conjunction ((columns.zip row).map fun (column, value) =>
      .compare .eq column (.value value)))]

/-- The conditions on the rows related to owners whose key fields have the given values. -/
def queryConditions (r : Relationship) (rows : List (List Value)) : List Expression :=
  let parts := r.references.filterMap r.queryPart
  let conditions := parts.filterMap fun
    | .inl e => some e
    | .inr _ => none
  let columns := parts.filterMap fun
    | .inr c => some c
    | .inl _ => none
  conditions ++ rowsCondition columns rows

/-- Whether `other`, a relationship of the related schema, goes back to the owner by the same
references. -/
def isInverse (r other : Relationship) : Bool :=
  let itself := other.owner.number == r.owner.number && other.position == r.position
  !itself && other.related.name == r.owner.name && other.related.table == r.owner.table
    && other.references.length == r.references.length
    && (other.references.zip r.references).all fun (a, b) => a.same b

/-- The foreign key behind the relationship. None where the field forbids one, or where `inverse`,
the relationships of the related schema, declare it already. -/
def foreignKey? (r : Relationship) (ns : Naming) (inverse : List Relationship) :
    Option ForeignKey :=
  let raw := r.field.settings.text "CONSTRAINT"
  if raw == "-" || (r.kind == .belongsTo && inverse.any r.isInverse) then none
  else
    let settings := Tag.Settings.parse ',' raw
    let implied := ns.foreignKeyName r.owner.table r.name
    let name := match Text.cut ',' raw with
      | some (given, _) => if isConstraintName given then given else implied
      | none => implied
    let pairs := r.references.filterMap fun ref =>
      if r.joinTable.isSome && !ref.ownPrimaryKey then none
      else ref.primaryKey.map fun primary => (ref, primary)
    let fromRelated := (pairs.getLast?).any fun (ref, _) => ref.ownPrimaryKey
    some
      { name
        field := r.field
        table := if fromRelated then r.targetTable else r.owner.table
        foreignKeys := pairs.map fun (ref, _) => ref.foreignKey.field
        referenceTable := if fromRelated then r.owner.table else r.related.table
        references := pairs.map fun (_, primary) => primary.field
        onDelete := settings.text "ONDELETE"
        onUpdate := settings.text "ONUPDATE" }

end Relationship

end RecordSql
