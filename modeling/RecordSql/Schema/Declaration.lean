import RecordSql.Schema.Default
import RecordSql.Schema.Serializer
/-!
Fields as their declaration makes them: the type of the field gives its column type, and the
settings of its tag are applied one after the other.
-/

namespace RecordSql

open RecordSql.Text

/-- Why a record type is not made into a schema. -/
inductive ParseFailure where
  | refused (e : Error)
  /-- A record embeds itself, directly or through others, so that reading it never ends. -/
  | endless

namespace Field

/-- Whether the settings make the field part of the primary key. -/
def isExplicitKey (settings : Tag.Settings) : Bool :=
  settings.flag "PRIMARYKEY" || settings.flag "PRIMARY_KEY"

/-- The kind that is stored, and whether the field's type says so itself. -/
def storage (kind : Kind) : Kind × Bool :=
  match kind.indirect with
  | .valuer stored => (stored.indirect, true)
  | k => (k, false)

/-- The bits of a number. -/
def bitsOf : Kind → Nat
  | .int bits => bits
  | .uint bits => bits
  | .float bits => bits
  | _ => 0

/-- The column, its type and its size, before any other setting. -/
def stored (f : Field) : Field :=
  let (kind, _) := storage f.kind
  { f with
    dbName := (f.settings.value? "COLUMN").getD ""
    dataType := DataType.ofKind? kind
    size := bitsOf kind }

/-- The serializer that the settings name; a serialized field is stored as text. -/
def serialized (model : String) (f : Field) : Except Error Field :=
  let named := (f.settings.value? "SERIALIZER").orElse fun _ =>
    if f.settings.contains "JSON" then some "json" else none
  match named with
  | none => .ok f
  | some name =>
    let name := lower (trim name)
    match Serializer.lookup name with
    | none => .error (.invalidTag model f.name ("invalid serializer type " ++ name))
    | some _ => .ok { f with serializer := some name, dataType := some .string }

/-- A number that a setting gives, or the error that it is none. -/
def numberSetting (model : String) (f : Field) (key label : String) (read : List Char → Option α)
    (default : α) : Except Error α :=
  match f.settings.value? key with
  | none => .ok default
  | some value =>
    match read (trim value).toList with
    | some n => .ok n
    | none => .error (.invalidTag model f.name ("invalid " ++ label ++ " " ++ value))

/-- Keys, increments, sizes and the other settings of the column. A size that is no number is
zero. -/
def withColumnSettings (model : String) (f : Field) : Except Error Field := do
  let s := f.settings
  let increments := s.flag "AUTOINCREMENT"
  let step ← numberSetting model f "AUTOINCREMENTINCREMENT" "autoIncrementIncrement"
    (signed? 64 10) 1
  let precision ← numberSetting model f "PRECISION" "precision" (unsigned? 32 10) 0
  let scale ← numberSetting model f "SCALE" "scale" (unsigned? 32 10) 0
  return { f with
    primaryKey := isExplicitKey s
    autoIncrement := increments
    hasDefault := increments || s.contains "DEFAULT"
    defaultText := s.text "DEFAULT"
    incrementStep := step
    size := match s.value? "SIZE" with
      | none => f.size
      | some value => (unsigned? 64 10 (trim value).toList).getD 0
    precision
    scale
    notNull := ((s.value? "NOT NULL").orElse fun _ => s.value? "NOTNULL").any Tag.isTrue
    unique := s.flag "UNIQUE"
    comment := trimBy (fun c => c == '\'' || c == '"') (s.text "COMMENT") }

/-- The default as a value of the column's type. -/
def withDefault (model : String) (f : Field) : Except Error Field :=
  match Default.value? f.dataType f.defaultText with
  | .ok v => .ok { f with defaultValue := v }
  | .error reason => .error (.invalidTag model f.name reason)

/-- The unit that a setting names; a column of times holds times whatever it says. -/
def timeUnit (type : Option DataType) (value : String) : TimeUnit :=
  if type = some .time then .time
  else match upper value with
    | "NANO" => .nano
    | "MILLI" => .milli
    | _ => .seconds

/-- Whether a column can hold a time. -/
def holdsTime (type : Option DataType) : Bool :=
  match type with
  | some .time => true
  | some .int => true
  | some .uint => true
  | _ => false

/-- How a time is set by itself: as the setting says, and without one if the field has the usual
name. -/
def automaticTime (f : Field) (key usualName : String) : Option TimeUnit :=
  match f.settings.value? key with
  | some value => if Tag.isTrue value then some (timeUnit f.dataType value) else none
  | none =>
    if f.name == usualName && holdsTime f.dataType then some (timeUnit f.dataType "") else none

/-- Times set by themselves, and the column type that the settings name. -/
def withTimesAndType (f : Field) : Field :=
  { f with
    autoCreateTime := f.automaticTime "AUTOCREATETIME" "CreatedAt"
    autoUpdateTime := f.automaticTime "AUTOUPDATETIME" "UpdatedAt"
    semanticType := f.dataType
    dataType := match f.settings.value? "TYPE" with
      | some name => some (DataType.ofName name)
      | none => f.dataType }

/-- A field that is neither read nor written. -/
def ignored (f : Field) : Field :=
  { f with creatable := false, updatable := false, readable := false, dataType := none }

/-- Whether the field is ignored, by the records or by migrations. -/
def withIgnore (f : Field) : Field :=
  match (f.settings.get? "-").map fun value => lower (trim value) with
  | some "-" => f.ignored
  | some "all" => { f.ignored with ignoreMigration := true }
  | some "migration" => { f with ignoreMigration := true }
  | _ => f

/-- Whether the field may be read. -/
def withReadPermission (f : Field) : Field :=
  match f.settings.get? "->" with
  | some value =>
    { f with creatable := false, updatable := false, readable := !sameLetters value "false" }
  | none => f

/-- Whether the field may be written. -/
def withWritePermission (f : Field) : Field :=
  match f.settings.get? "<-" with
  | some "<-" => { f with creatable := true, updatable := true }
  | some value =>
    { f with creatable := contains value "create", updatable := contains value "update" }
  | none => f

/-- Whether the fields of the field's type belong to the record. -/
def embeds (f : Field) (anonymous : Bool) : Bool :=
  f.settings.contains "EMBEDDED" ||
    (anonymous && !(storage f.kind).2 && f.semanticType != some .time
      && f.semanticType != some .bytes && f.hasPermission)

/-- The field of a declaration, and the record type whose fields stand in its place if it embeds
one. -/
def parse (model : String) (declared : DeclaredField) : Except Error (Field × Option ModelRef) := do
  let f ← serialized model (ofDeclared declared).stored
  let f ← withColumnSettings model f
  let f ← withDefault model f
  let f := f.withTimesAndType.withIgnore.withReadPermission.withWritePermission
  if f.embeds declared.anonymous then
    match (storage f.kind).1 with
    | .record inner => return (f, some inner)
    | _ =>
      if f.settings.contains "EMBEDDED" then
        .error (.invalidSchema model ("invalid embedded struct for field " ++ f.name
          ++ ", should be struct, but got " ++ f.kind.text))
      else return (f, none)
  else return (f, none)

/-- A field of an embedded record as a field of the record that embeds it by `container`. It is a
key only if it says so itself. -/
def adopted (container : Field) (owner : Nat) (inner : Field) : Field :=
  let dbName := match container.settings.get? "EMBEDDEDPREFIX" with
    | some start => if inner.dbName.isEmpty then "" else start ++ inner.dbName
    | none => inner.dbName
  let demoted := inner.primaryKey && !isExplicitKey inner.settings
  let autoIncrement := inner.autoIncrement &&
    !(demoted && !(inner.settings.get? "AUTOINCREMENT").any Tag.isTrue)
  { inner with
    owner := some owner
    bindNames := container.name :: inner.bindNames
    dbName
    primaryKey := inner.primaryKey && !demoted
    autoIncrement
    hasDefault := inner.hasDefault && !(demoted && !autoIncrement && inner.defaultText.isEmpty)
    settings := inner.settings.merge container.settings }

end Field

end RecordSql
