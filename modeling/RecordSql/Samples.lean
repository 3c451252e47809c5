import RecordSql.Naming
import RecordSql.Schema.Model
/-!
Record types that show what schemas can be made of: the people, companies and pets of a directory
with their relationships, records that embed others, and records with every kind of field.
-/

namespace RecordSql.Samples

/-- A field whose name is made from an identifier of words joined by underscores. -/
def field (ident : String) (kind : Kind) (tag : String := "") : DeclaredField :=
  { name := Naming.typeName ident, kind, tag }

/-- The record type with a name; a sample is known by its name. -/
def ref (name : String) : ModelRef := ⟨name, name⟩

/-- A record of a sample type. -/
def record (name : String) : Kind := .record (ref name)

/-- The number that a record is known by. -/
def identity : DeclaredField := field "id" (.uint 64)

/-- The times at which a record is made and changed. -/
def times : List DeclaredField := [field "created_at" .time, field "updated_at" .time]

/-- An employer. -/
def company : Model :=
  { name := "Company", fields := [field "id" (.int 64), field "name" .string] }

/-- A toy, which belongs to a record of any type. -/
def toy : Model :=
  { name := "Toy"
    fields :=
      [identity, field "name" .string, field "owner_id" .string, field "owner_type" .string] }

/-- A pet and its toy. -/
def pet : Model :=
  { name := "Pet"
    fields := [identity, field "user_id" (.ptr (.uint 64)), field "name" .string,
      field "toy" (record "Toy") "polymorphic:Owner;"] }

/-- A language, known by its code. -/
def language : Model :=
  { name := "Language", fields := [field "code" .string "primaryKey", field "name" .string] }

/-- The account of a user. -/
def account : Model :=
  { name := "Account"
    fields := [identity, field "user_id" (.ptr (.uint 64)), field "number" .string] }

/-- A user, with a relationship of every kind. -/
def user : Model :=
  { name := "User"
    fields := identity :: times ++
      [field "name" .string, field "age" (.uint 32), field "birthday" (.ptr .time),
        field "account" (record "Account"),
        field "pets" (.slice (.ptr (record "Pet"))),
        field "toys" (.slice (record "Toy")) "polymorphic:Owner",
        field "company_id" (.ptr (.int 64)), field "company" (record "Company"),
        field "manager_id" (.ptr (.uint 64)), field "manager" (.ptr (.ptr (record "User"))),
        field "team" (.slice (record "User")) "foreignKey:ManagerID",
        field "languages" (.slice (record "Language")) "many2many:UserSpeak;",
        field "friends" (.slice (.ptr (record "User"))) "many2many:user_friends",
        field "active" .bool] }

/-- What many records have in common. -/
def baseModel : Model := { name := "BaseModel", fields := identity :: times }

/-- An author. -/
def author : Model :=
  { name := "Author", fields := [field "name" .string, field "email" .string] }

/-- A blog, which embeds what it has in common with others and its author. -/
def blog : Model :=
  { name := "Blog"
    fields := [{ field "base" (record "BaseModel") with anonymous := true },
      field "author" (record "Author") "embedded;embeddedPrefix:author_",
      field "title" .string, field "draft" .string "-"] }

/-- A person, with settings of columns. -/
def person : Model :=
  { name := "Person"
    tableName := some "people"
    fields := [field "id" (.int 32),
      field "name" .string "column:full_name;size:128;not null;comment:'display name'",
      field "email" .string "uniqueIndex", field "nickname" .string "unique",
      field "age" (.uint 8) "check:age > 0", field "enabled" .bool "default:true"] }

/-- A line of a log, with an index of several columns and permissions. -/
def auditEntry : Model :=
  { name := "AuditEntry"
    tag := "tableName:audit_log"
    fields := [field "seq" (.int 64) "primaryKey;autoIncrement:false",
      field "scope" .string "index:idx_scope,priority:2",
      field "tenant" .string "index:idx_scope,priority:1,sort:desc",
      field "actor" .string "<-:create", field "computed" .string "->",
      field "logged_at" (.int 64) "autoCreateTime:milli",
      field "payload" (.valuer .string) "serializer:json", field "raw" (.slice (.uint 8))] }

/-- A setting and who made it. -/
def setting : Model :=
  { name := "Setting"
    tag := "tableName:kv;comment:settings"
    fields := [field "key" .string "primaryKey;size:64", field "type" .string,
      { name := "who", kind := record "Author", tag := "embeddedPrefix:by_", anonymous := true }] }

/-- A record with a field of every kind. -/
def allKinds : Model :=
  { name := "AllKinds"
    fields :=
      [field "flag" .bool,
        field "a_i8" (.int 8), field "a_i16" (.int 16), field "a_i32" (.int 32),
        field "a_i64" (.int 64), field "a_isize" (.int 64),
        field "a_u8" (.uint 8), field "a_u16" (.uint 16), field "a_u32" (.uint 32),
        field "a_u64" (.uint 64), field "a_usize" (.uint 64),
        field "a_f32" (.float 32), field "a_f64" (.float 64),
        field "text" .string, field "at_naive" .time, field "on_day" .time, field "at_time" .time,
        field "at_utc" .time, field "at_offset" (.ptr .time), field "json_doc" (.valuer .string),
        field "bytes" (.slice (.uint 8)), field "hash" (.array (.uint 8) 20),
        field "maybe_bytes" (.ptr (.slice (.ptr (.uint 8)))),
        field "shared" (.ptr (.ptr (.ptr (.int 16)))), field "map" .map "-",
        field "tree" .map "serializer:json"] }

/-- All samples. -/
def catalog : Catalog :=
  ⟨[company, toy, pet, language, account, user, baseModel, author, blog, person, auditEntry,
    setting, allKinds].map fun m => (m.name, m)⟩

end RecordSql.Samples
