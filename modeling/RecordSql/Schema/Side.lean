import RecordSql.Schema.Relationship
/-!
The two sides of a relationship while it is being resolved. A side is a schema that has been read,
or a record embedded in one, and names its own fields.
-/

namespace RecordSql

open RecordSql.Text

/-- One side: a layout, and where it lives. -/
structure Side where
  home : Home
  layout : Layout

namespace Side

/-- The field at a position. -/
def key? (s : Side) (position : Nat) : Option KeyField :=
  (s.layout.field? position).map fun field => ⟨s.home, position, field⟩

/-- The field with a column, or else with a name. -/
def lookup (s : Side) (name : String) : Option KeyField := (s.layout.lookup name).bind s.key?

/-- The field with a name. -/
def byName (s : Side) (name : String) : Option KeyField := (s.layout.byName.lookup name).bind s.key?

/-- The fields of the primary key. -/
def primary (s : Side) : List KeyField := s.layout.primary.filterMap s.key?

/-- The field that stands for the primary key. -/
def prioritized (s : Side) : Option KeyField := s.layout.prioritized.bind s.key?

end Side

/-- A schema that has been read, with its number. -/
structure NumberedSchema where
  number : Nat
  schema : Schema

namespace NumberedSchema

/-- The schema by its number, name and table. -/
def ref (s : NumberedSchema) : SchemaRef := ⟨s.number, s.schema.name, s.schema.table⟩

/-- The schema as a side. -/
def side (s : NumberedSchema) : Side := ⟨⟨s.number, none⟩, s.schema.toLayout⟩

/-- A record that the schema embeds as a side. -/
def embeddedSide? (s : NumberedSchema) (index : Nat) : Option Side :=
  (s.schema.embedded[index]?).map fun layout => ⟨⟨s.number, some index⟩, layout⟩

end NumberedSchema

/-- The columns that a setting lists between commas. -/
def listedColumns (setting : Option String) : List String :=
  match setting with
  | none => []
  | some text => ((splitOn ',' text).map trim).filter (!·.isEmpty)

/-- What there is to resolve: a field of one schema whose type leads to another, and the keys that
its tag names on either side. -/
structure Pairing where
  owner : NumberedSchema
  related : NumberedSchema
  /-- The field that declares the relationship. -/
  field : Field
  /-- The fields that hold the keys. -/
  foreignKeys : List String
  /-- The fields whose values are the keys. -/
  primaryKeys : List String

namespace Pairing

/-- The pairing that a field asks for. -/
def ofField (owner related : NumberedSchema) (field : Field) : Pairing :=
  { owner, related, field
    foreignKeys := listedColumns (field.settings.get? "FOREIGNKEY")
    primaryKeys := listedColumns (field.settings.get? "REFERENCES") }

/-- An error about the relationship. -/
def refusal (p : Pairing) (detail : String) : Error :=
  .invalidRelationship p.owner.schema.name p.field.name detail

/-- A relationship in which the related side holds the key: with several records or with one, as the
field holds a sequence or not. -/
def hasKind (p : Pairing) : RelationshipKind :=
  if p.field.kind.isSequence then .hasMany else .hasOne

/-- The side of the embedded record that the field comes from, if it comes from one. -/
def embeddedOwner? (p : Pairing) : Option Side := p.field.owner.bind p.owner.embeddedSide?

end Pairing

end RecordSql
