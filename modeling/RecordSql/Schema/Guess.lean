import RecordSql.Schema.Side
/-!
Relationships whose tag does not say how the two sides are linked. The sides are tried one way after
the other, and the first way in which foreign keys and primary keys can be paired counts.
-/

namespace RecordSql

/-- A way to link the two sides. -/
inductive Direction where
  /-- The owner holds a key of the related schema. -/
  | belongs
  /-- The embedded record that the field comes from holds a key of the related schema. -/
  | embeddedBelongs
  /-- The related schema holds a key of the owner. -/
  | has
  /-- The related schema holds a key of the embedded record that the field comes from. -/
  | embeddedHas
  deriving DecidableEq, Repr

/-- Whether the related schema holds the key. -/
def Direction.isHas : Direction → Bool
  | .has => true
  | .embeddedHas => true
  | _ => false

/-- All directions in the order they are tried. -/
def Direction.all : List Direction := [.belongs, .embeddedBelongs, .has, .embeddedHas]

namespace Pairing

/-- The side whose values are the keys and the side that holds them. -/
def sides? (p : Pairing) : Direction → Option (Side × Side)
  | .belongs => some (p.related.side, p.owner.side)
  | .embeddedBelongs => p.embeddedOwner?.map fun embedded => (p.related.side, embedded)
  | .has => some (p.owner.side, p.related.side)
  | .embeddedHas => p.embeddedOwner?.map fun embedded => (embedded, p.related.side)

/-- The names that a foreign key for `candidate` may have. The only candidate may also be called the
identity. -/
def foreignKeyNames (stem : String) (ns : Naming) (candidate : KeyField) (alone : Bool) :
    List String :=
  (stem ++ candidate.field.name) ::
    if alone then [stem ++ "ID", stem ++ "Id", ns.columnName (stem ++ "ID")] else []

/-- The primary keys that have a foreign key named after them, each with that foreign key. The names
begin with the field's name where the owner holds the key, and with the name of the schema whose key
it is otherwise. -/
def namedPairs (p : Pairing) (d : Direction) (primary foreign : Side) :
    List (KeyField × KeyField) :=
  let stem := if d = .belongs then p.field.name else primary.layout.name
  let candidates :=
    if p.primaryKeys.isEmpty then primary.primary else p.primaryKeys.filterMap primary.lookup
  candidates.filterMap fun candidate =>
    let names := foreignKeyNames stem foreign.layout.naming candidate (candidates.length == 1)
    (names.findSome? foreign.lookup).map fun key => (candidate, key)

/-- The primary keys for `count` foreign keys, of which the given ones are already known. Those
that the tag names must agree with them; without any, the field that stands for the primary key is
used for one foreign key, and the whole primary key for as many as it has fields. -/
def completed? (p : Pairing) (side : Side) (known : List KeyField) (count : Nat) :
    Option (List KeyField) :=
  if !p.primaryKeys.isEmpty then do
    let named ← p.primaryKeys.mapM side.lookup
    if (known.zip named).all fun (a, b) => a.same b then
      some (known ++ named.drop known.length)
    else none
  else if known.isEmpty then
    match side.prioritized, count with
    | some key, 1 => some [key]
    | _, _ => if side.primary.length == count then some side.primary else none
  else some known

/-- The references by which the sides can be linked in a direction. -/
def references? (p : Pairing) (d : Direction) : Option (List Reference) := do
  let (primarySide, foreignSide) ← p.sides? d
  let (known, foreign) ←
    if p.foreignKeys.isEmpty then some (p.namedPairs d primarySide foreignSide).unzip
    else (p.foreignKeys.mapM foreignSide.lookup).map ([], ·)
  if foreign.isEmpty then none
  let primary ← p.completed? primarySide known foreign.length
  if primary.length < foreign.length then none
  else some ((foreign.zip primary).map fun (f, k) =>
    { primaryKey := some k, foreignKey := f, ownPrimaryKey := d.isHas })

/-- The directions to try, in order. A field that holds one record is tried first as a key of the
related schema, unless that is the owner itself; one that holds several can only be that. -/
def directions (p : Pairing) : Except Error (List Direction) :=
  if (p.field.settings.value? "BELONGSTO").isSome then .ok Direction.all
  else match p.field.kind.indirect with
    | .record _ =>
      .ok ((if p.owner.number = p.related.number then .belongs else .has) :: Direction.all)
    | .slice _ => .ok [.has, .embeddedHas]
    | .array _ _ => .ok [.has, .embeddedHas]
    | other => .error (.unsupportedDataType p.owner.schema.name p.field.name other.text)

/-- The kind and the references of a relationship whose tag does not say them. -/
def guess (p : Pairing) : Except Error (RelationshipKind × List Reference) := do
  let found := (← p.directions).findSome? fun d => (p.references? d).map fun refs => (d, refs)
  match found with
  | some (d, references) => .ok (if d.isHas then p.hasKind else .belongsTo, references)
  | none =>
    .error (p.refusal ("invalid field found for struct " ++ p.owner.schema.name ++ "'s field "
      ++ p.field.name ++ ": define a valid foreign key for relations"))

end Pairing

end RecordSql
