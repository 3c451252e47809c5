import RecordSql.Schema.Resolution
/-!
The schemas that have been read. A schema is installed before its relationships are resolved, so
that a relationship that leads back to it finds it; if they cannot be resolved it is taken out
again. Schemas are known by their numbers, in the order they are read, and keep them when they are
taken out: relationships of others may still lead to them.
-/

namespace RecordSql

/-- How far the relationships of a schema have been resolved. -/
inductive Progress where
  /-- They are being resolved. -/
  | underWay
  | resolved (relationships : List Relationship)
  | failed (why : ParseFailure)

/-- A schema that has been read. -/
structure Entry where
  schema : Schema
  progress : Progress := .underWay

/-- The relationships of a schema; none as long as they are not resolved. -/
def Entry.relationships (e : Entry) : List Relationship :=
  match e.progress with
  | .resolved relationships => relationships
  | _ => []

/-- The relationship with a name. -/
def Entry.relationship? (e : Entry) (name : String) : Option Relationship :=
  e.relationships.find? (·.name == name)

/-- The relationships of one kind. -/
def Entry.ofKind (e : Entry) (kind : RelationshipKind) : List Relationship :=
  e.relationships.filter (·.kind == kind)

/-- What a schema is looked up by: the identity of its record type, and the table it is read for
where that is not the type's own. -/
structure SchemaKey where
  model : String
  table : Option String
  deriving DecidableEq, Repr

/-- The schemas read so far. -/
structure SchemaCache where
  catalog : Catalog
  naming : Naming := {}
  /-- All schemas by number, those that were taken out and join tables among them. -/
  entries : List Entry := []
  /-- The schemas that are found again. -/
  installed : List (SchemaKey × Nat) := []

namespace SchemaCache

/-- The schema with a number. -/
def get? (c : SchemaCache) (number : Nat) : Option Entry := c.entries[number]?

/-- The number of the schema that is found by a key. -/
def find? (c : SchemaCache) (key : SchemaKey) : Option Nat := c.installed.lookup key

/-- How many schemas are found. -/
def size (c : SchemaCache) : Nat := c.installed.length

/-- The number of the next schema. -/
def next (c : SchemaCache) : Nat := c.entries.length

/-- Adds a schema that is not looked up. -/
def add (c : SchemaCache) (e : Entry) : SchemaCache := { c with entries := c.entries ++ [e] }

/-- Adds a schema that is found by a key. -/
def install (c : SchemaCache) (key : SchemaKey) (schema : Schema) : SchemaCache :=
  { c.add { schema } with installed := (key, c.next) :: c.installed }

/-- Notes how the relationships of a schema came out. -/
def settle (c : SchemaCache) (number : Nat) (progress : Progress) : SchemaCache :=
  { c with entries := c.entries.modify number fun e => { e with progress } }

/-- Takes a schema out. -/
def remove (c : SchemaCache) (key : SchemaKey) : SchemaCache :=
  { c with installed := c.installed.filter (·.1 != key) }

/-- The pairing that a field of one schema asks for with another. -/
def pairing? (c : SchemaCache) (owner related : Nat) (field : Field) : Option Pairing := do
  let ownerEntry ← c.get? owner
  let relatedEntry ← c.get? related
  return .ofField ⟨owner, ownerEntry.schema⟩ ⟨related, relatedEntry.schema⟩ field

/-- Resolves the relationship that a field of `owner` declares with `related`. A join table is added
with it. -/
def relate (c : SchemaCache) (owner related position : Nat) (field : Field) :
    SchemaCache × Except ParseFailure Relationship :=
  match c.pairing? owner related field with
  | none => (c, .error .endless)
  | some pairing =>
    match pairing.relationship position c.next with
    | .error e => (c, .error (.refused e))
    | .ok (r, none) => (c, .ok r)
    | .ok (r, some join) => (c.add ⟨join.schema, .resolved join.links⟩, .ok r)

/-- Resolves the relationships that a list of fields declares. `read` gives the schema of a record
type. -/
def relateAll (read : SchemaCache → ModelRef → SchemaCache × Except ParseFailure Nat)
    (name : String) (owner position : Nat) (c : SchemaCache) :
    List Field → SchemaCache × Except ParseFailure (List Relationship)
  | [] => (c, .ok [])
  | field :: fields =>
    match field.kind.model? with
    | none => (c, .error (.refused (.unsupportedDataType name field.name field.kind.text)))
    | some model =>
      match read c model with
      | (c, .error e) => (c, .error e)
      | (c, .ok related) =>
        match c.relate owner related position field with
        | (c, .error e) => (c, .error e)
        | (c, .ok r) =>
          match relateAll read name owner (position + 1) c fields with
          | (c, .error e) => (c, .error e)
          | (c, .ok rs) => (c, .ok (r :: rs))

/-- The schema of a record type, found or read, with relationships followed to a depth below
`depth`. -/
def readWithin (depth : Nat) (c : SchemaCache) (model : ModelRef) (table : Option String) :
    SchemaCache × Except ParseFailure Nat :=
  match depth with
  | 0 => (c, .error .endless)
  | depth + 1 =>
    let key : SchemaKey := ⟨model.id, table⟩
    match c.find? key with
    | some number => (c, .ok number)
    | none =>
      match Schema.parse c.catalog c.naming model table with
      | .error e => (c, .error e)
      | .ok schema =>
        let number := c.next
        let read (c : SchemaCache) (model : ModelRef) := readWithin depth c model none
        match relateAll read schema.name number 0 (c.install key schema)
            (schema.fieldsAt schema.candidates) with
        | (c, .ok relationships) => (c.settle number (.resolved relationships), .ok number)
        | (c, .error e) => ((c.settle number (.failed e)).remove key, .error e)

/-- The schema of a record type, found or read. Each step deeper installs one more record type of
the catalog, apart from the first, which may be read for a table of its own. -/
def read (c : SchemaCache) (model : ModelRef) (table : Option String) :
    SchemaCache × Except ParseFailure Nat :=
  readWithin (c.catalog.models.length + 2) c model table

/-- The schema of a record type with its relationships. -/
def parse (c : SchemaCache) (model : ModelRef) (table : Option String) :
    SchemaCache × Except ParseFailure Nat :=
  match c.read model table with
  | (c, .error e) => (c, .error e)
  | (c, .ok number) =>
    match c.get? number with
    | some ⟨_, .resolved _⟩ => (c, .ok number)
    | some ⟨_, .failed e⟩ => (c, .error e)
    | _ => (c, .error .endless)

/-- The schema of the record type behind pointers, slices and arrays. -/
def parseKind (c : SchemaCache) (kind : Kind) : SchemaCache × Except ParseFailure Nat :=
  match kind.model? with
  | some model => c.parse model none
  | none => (c, .error (.refused (.unsupportedModel kind.text)))

/-- The foreign key behind a relationship, unless the related schema declares it already. -/
def foreignKey? (c : SchemaCache) (r : Relationship) : Option ForeignKey := do
  let related ← c.get? r.related.number
  r.foreignKey? related.schema.naming related.relationships

end SchemaCache

end RecordSql
