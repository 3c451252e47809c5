import RecordSql.Schema.Guess
import RecordSql.Schema.JoinTable
import RecordSql.Text.Escape
/-!
The relationship that a field declares, once the schema its type leads to is known: polymorphic,
by a join table, or by keys that are found by their names.
-/

namespace RecordSql

open RecordSql.Text

namespace Pairing

/-- A field of the related schema by which it tells what it belongs to. -/
def discriminator (p : Pairing) (stem ending : String) : Except Error KeyField :=
  match p.related.side.byName (stem ++ ending) with
  | some key => .ok key
  | none =>
    .error (p.refusal ("invalid polymorphic type " ++ p.related.schema.name ++ " for "
      ++ p.owner.schema.name ++ ", missing field " ++ stem ++ ending))

/-- The key of the owner that polymorphic records hold: the one that is named, or the one that
stands for its primary key. -/
def polymorphicKey (p : Pairing) : Except Error KeyField :=
  let key := match p.foreignKeys with
    | [] => p.owner.side.prioritized
    | [only] => p.owner.side.lookup only
    | _ => none
  match key with
  | some key => .ok key
  | none => .error (p.refusal ("invalid polymorphic foreign keys " ++ listing p.foreignKeys))

/-- The fields of a polymorphic relationship whose names begin with `stem`. -/
def polymorphic (p : Pairing) (stem : String) : Except Error (Polymorphic × List Reference) := do
  let typeField ← p.discriminator stem "Type"
  let id ← p.discriminator stem "ID"
  let value := ((p.field.settings.get? "POLYMORPHICVALUE").map trim).getD p.owner.schema.table
  let key ← p.polymorphicKey
  return (⟨id, typeField, value⟩, [
    { primaryKey := none, primaryValue := value, foreignKey := typeField, ownPrimaryKey := false },
    { primaryKey := some key, foreignKey := id, ownPrimaryKey := true }])

/-- The relationship, at its place among those of the owner, and the join table that comes with it,
to be known by the number `next`. -/
def relationship (p : Pairing) (position next : Nat) :
    Except Error (Relationship × Option JoinTable) := do
  let made (kind : RelationshipKind) (references : List Reference) : Relationship :=
    { name := p.field.name, kind, field := p.field, owner := p.owner.ref, position,
      related := p.related.ref, references }
  match p.field.settings.value? "POLYMORPHIC", p.field.settings.value? "MANY2MANY" with
  | some stem, _ =>
    let (polymorphic, references) ← p.polymorphic stem
    return ({ made p.hasKind references with polymorphic := some polymorphic }, none)
  | none, some given =>
    let join ← p.joinTable next given
    let ref : SchemaRef := ⟨next, join.schema.name, join.schema.table⟩
    return ({ made .manyToMany join.references with joinTable := some ref }, some join)
  | none, none =>
    let (kind, references) ← p.guess
    return (made kind references, none)

end Pairing

end RecordSql
