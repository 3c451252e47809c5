import RecordSql.Schema.Declaration
import RecordSql.Schema.Layout
import RecordSql.Text.Word
/-!
Layouts from fields: which field a column, a name and a path belong to, which fields make up the
primary key, and the indexes and constraints that the tags of the fields declare.
-/

namespace RecordSql

open RecordSql.Text

/-- Puts a position under a name, in place of the one that is there. -/
def setPosition (name : String) (position : Nat) : List (String × Nat) → List (String × Nat)
  | [] => [(name, position)]
  | (n, p) :: rest =>
    if n == name then (n, position) :: rest else (n, p) :: setPosition name position rest

/-! ## Indexes -/

namespace Index

/-- The kinds of tag items that declare an index, with whether they make it unique. -/
def declarationKinds : List (String × Bool) :=
  [("INDEX", false), ("UNIQUEINDEX", true), ("UNIQUE_INDEX", true)]

/-- The text before the first `sep` and the text after it, which may be missing. -/
def headAndRest (sep : Char) (s : String) : String × String := (cut sep s).getD (s, "")

/-- The name of an index that is not given one: from its field, or from the composite index it is
part of. -/
def impliedName (ns : Naming) (model table : String) (field : Field) (settings : Tag.Settings) :
    Except Error String :=
  match settings.get? "COMPOSITE" with
  | none => .ok (ns.indexName table field.name)
  | some composite =>
    if composite.isEmpty || composite == "COMPOSITE" then
      .error (.invalidTag model field.name "the composite tag cannot be empty")
    else .ok (ns.indexName table composite)

/-- The index that a tag item declares, with its field as only member; none for other items. -/
def ofItem (ns : Naming) (model table : String) (position : Nat) (field : Field) (item : String) :
    Except Error (Option Index) :=
  let (key, value) := headAndRest ':' item
  match declarationKinds.lookup (upper (trim key)) with
  | none => .ok none
  | some unique => do
    let (given, rest) := headAndRest ',' value
    let settings := Tag.Settings.parse ',' rest
    let name ← if given.isEmpty then impliedName ns model table field settings else .ok given
    let given? (key : String) : Option (List Char) :=
      (settings.value? key).map fun v => (trim v).toList
    return some
      { name
        category :=
          if unique || (settings.value? "UNIQUE").isSome then "UNIQUE" else settings.text "CLASS"
        method := settings.text "TYPE"
        condition := settings.text "WHERE"
        comment := settings.text "COMMENT"
        option := settings.text "OPTION"
        members :=
          [{ position, field
             expression := settings.text "EXPRESSION"
             sort := settings.text "SORT"
             collate := settings.text "COLLATE"
             length := ((given? "LENGTH").bind (unsigned? 64 10)).getD 0
             priority := ((given? "PRIORITY").bind (signed? 64 10)).getD 10 }] }

/-- The first text that is not empty. -/
def firstText (a b : String) : String := if a.isEmpty then b else a

/-- One index from two declarations of it: what the first leaves out the second gives, and the
members stand in ascending order of priority. -/
def combine (earlier later : Index) : Index :=
  { name := earlier.name
    category := firstText earlier.category later.category
    method := firstText earlier.method later.method
    condition := firstText earlier.condition later.condition
    comment := firstText earlier.comment later.comment
    option := firstText earlier.option later.option
    members := (earlier.members ++ later.members).mergeSort fun a b => a.priority ≤ b.priority }

/-- Adds a declaration to the indexes declared so far. -/
def insert (declared : Index) : List Index → List Index
  | [] => [declared]
  | i :: rest =>
    if i.name == declared.name then i.combine declared :: rest else i :: insert declared rest

/-- The declarations of one field. -/
def ofField (ns : Naming) (model table : String) (position : Nat) (field : Field) :
    Except Error (List Index) := do
  let declared ← (Tag.items ';' field.tag).mapM (ofItem ns model table position field)
  return declared.filterMap id

/-- The indexes of a list of fields. -/
def ofFields (ns : Naming) (model table : String) (fields : List Field) :
    Except Error (List Index) := do
  let declared ← fields.zipIdx.mapM fun (field, position) => ofField ns model table position field
  return declared.flatten.foldl (fun indexes i => insert i indexes) []

end Index

/-! ## Constraints -/

/-- Whether a text is a constraint's name: word characters and dashes, at least one. -/
def isConstraintName (s : String) : Bool :=
  !s.isEmpty && s.toList.all fun c => isWord c || c == '-'

/-- The check that a field declares: its name and its condition. A name may stand before the first
comma. -/
def CheckConstraint.ofField? (ns : Naming) (table : String) (field : Field) :
    Option CheckConstraint :=
  (field.settings.value? "CHECK").map fun check =>
    let implied := ns.checkName table field.dbName
    match cut ',' check with
    | some (first, rest) =>
      if isConstraintName first then ⟨first, rest, field⟩
      else ⟨implied, if first.isEmpty then rest else check, field⟩
    | none => ⟨implied, check, field⟩

/-- The checks of a list of fields; of those with the same name the last is kept. -/
def CheckConstraint.ofFields (ns : Naming) (table : String) (fields : List Field) :
    List CheckConstraint :=
  (fields.filterMap (ofField? ns table)).foldl
    (fun checks c => checks.filter (·.name != c.name) ++ [c]) []

/-- Whether one of the indexes allows each value of the field at a position once only. -/
def isCovered (indexes : List Index) (position : Nat) : Bool :=
  indexes.any fun i => i.isUnique && i.members.map (·.position) == [position]

/-- The columns whose values differ by a constraint; a unique index makes that needless. -/
def UniqueConstraint.ofFields (ns : Naming) (table : String) (fields : List Field)
    (indexes : List Index) : List UniqueConstraint :=
  fields.zipIdx.filterMap fun (field, position) =>
    if field.unique && !field.dbName.isEmpty && !isCovered indexes position then
      some ⟨ns.uniqueName table field.dbName, field⟩
    else none

/-! ## Columns, names and keys -/

namespace Layout

/-- What has been made of the fields so far. -/
structure Lookups where
  dbNames : List String := []
  byDbName : List (String × Nat) := []
  byName : List (String × Nat) := []
  byBindName : List (String × Nat) := []
  primary : List Nat := []

/-- Gives a field its column. The first field with a column has it, until one with a shorter path
and a permission comes. -/
def Lookups.addColumn (fields : List Field) (l : Lookups) (position : Nat) (field : Field) :
    Lookups :=
  if field.dbName.isEmpty then l
  else match l.byDbName.lookup field.dbName with
    | none =>
      { l with
        dbNames := l.dbNames ++ [field.dbName]
        byDbName := l.byDbName ++ [(field.dbName, position)]
        primary := if field.primaryKey then l.primary ++ [position] else l.primary }
    | some held =>
      let shorter := (fields[held]?).any fun f => field.bindNames.length < f.bindNames.length
      if field.hasPermission && shorter then
        let others := l.primary.filter (· != held)
        { l with
          byDbName := setPosition field.dbName position l.byDbName
          primary := if field.primaryKey then others ++ [position] else others }
      else l

/-- Whether a name is free: nobody has it, or a field that is ignored has. -/
def isFree (fields : List Field) (held : Option Nat) : Bool :=
  match held with
  | none => true
  | some held => (fields[held]?).any fun f => f.settings.get? "-" == some "-"

/-- Adds a field. -/
def Lookups.add (fields : List Field) (l : Lookups) (entry : Field × Nat) : Lookups :=
  let (field, position) := entry
  let l := l.addColumn fields position field
  { l with
    byName :=
      if isFree fields (l.byName.lookup field.name) then setPosition field.name position l.byName
      else l.byName
    byBindName :=
      if isFree fields (l.byBindName.lookup field.bindName) then
        setPosition field.bindName position l.byBindName
      else l.byBindName }

/-- The names that make a field the primary key when no other is. -/
def keyNames : List String := ["id", "ID"]

/-- The field that stands for the primary key, and the fields of the primary key. A field named
for it is the key if it says so or no other does; otherwise the only one counts, or the first that
is incremented. -/
def electPrimary (fields : List Field) (l : Lookups) : Option Nat × List Nat :=
  let named := keyNames.findSome? fun name =>
    (l.byDbName.lookup name).orElse fun _ => l.byName.lookup name
  let fallback := match l.primary with
    | [only] => some only
    | several => several.find? fun i => (fields[i]?).any (·.autoIncrement)
  match named with
  | none => (fallback, l.primary)
  | some id =>
    if (fields[id]?).any (·.primaryKey) then (some id, l.primary)
    else if l.primary.isEmpty then (some id, [id])
    else (fallback, l.primary)

/-- Marks the field that was made the primary key, and lets the database count it up if it is a
number that says nothing else. -/
def markKeys (fields : List Field) (prioritized : Option Nat) (primary : List Nat) : List Field :=
  fields.zipIdx.map fun (field, i) =>
    let field := if primary == [i] && prioritized == some i then { field with primaryKey := true }
      else field
    if prioritized == some i && field.semanticType.any (·.isInteger)
        && !field.settings.contains "AUTOINCREMENT" then
      { field with hasDefault := true, autoIncrement := true }
    else field

/-- Whether the database gives the field's value. -/
def takesDbDefault (field : Field) : Bool := field.hasDefault && field.defaultValue.isNone

/-- The layout of the given fields. -/
def assemble (name table : String) (declared : List Field) (ns : Naming) : Except Error Layout := do
  let columned := declared.map fun f =>
    if f.dbName.isEmpty && f.dataType.isSome then { f with dbName := ns.columnName f.name } else f
  let l := columned.zipIdx.foldl (Lookups.add columned) {}
  let (prioritized, primary) := electPrimary columned l
  let fields := markKeys columned prioritized primary
  let positions (p : Field → Bool) : List Nat :=
    fields.zipIdx.filterMap fun (f, i) => if p f then some i else none
  let indexes ← Index.ofFields ns name table fields
  let columnFields := l.dbNames.filterMap fun c => (l.byDbName.lookup c).bind (fields[·]?)
  return {
    name, table, fields, prioritized, primary, indexes
    naming := ns
    dbNames := l.dbNames
    dbDefaults := primary.filter (fun i => (fields[i]?).any takesDbDefault) ++
      positions fun f => !f.primaryKey && f.dataType.isSome && takesDbDefault f
        && (l.byDbName.lookup f.dbName).isSome
    candidates := positions (·.isRelationshipCandidate)
    byDbName := l.byDbName
    byName := l.byName
    byBindName := l.byBindName
    checks := CheckConstraint.ofFields ns table columnFields
    uniques := UniqueConstraint.ofFields ns table fields indexes }

end Layout

end RecordSql
