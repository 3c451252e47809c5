/-
  RecordSql.Proofs.KeyValues

  Whose values the columns of a relationship are compared with.  The rows that
  are given for owners are read from the owner's fields, and the columns that
  have these values are found by a second pass over the references.  Each
  reference that pairs a key with the field that holds it gives both passes
  one entry or neither of them, and the entries belong together
  (`Relationship.Answers`).

  Only the type of a polymorphic relationship is no such reference.  It is left
  out of the fields for having a constant, and out of the columns for having no
  key; so the passes agree unless that constant is empty, which takes the type
  for a field of the owner (`SchemaCache.key_columns_answer_key_fields_iff`).
-/

import RecordSql.Proofs.RelatedRows
import RecordSql.Proofs.KeyColumns

namespace RecordSql

open RowText (Test)

/-- The reference pairs a key with the field that holds it. -/
def Reference.Pairs (ref : Reference) (key : KeyField) : Prop :=
  ref.primaryKey = some key ∧ ref.primaryValue = ""

namespace Relationship

/-! ## What the columns are compared with -/

/-- The column is the one that has to equal a field of the owner: that of the foreign key if the
owner has the key, and that of the key if the owner holds it. -/
inductive Answers (r : Relationship) : Column → KeyField → Prop
  | foreign {ref : Reference} {key : KeyField} (href : ref ∈ r.references) (hpair : ref.Pairs key)
      (hown : ref.ownPrimaryKey = true) :
      Answers r (.qualified r.targetTable ref.foreignKey.field.dbName) key
  | key {ref : Reference} {key : KeyField} (href : ref ∈ r.references) (hpair : ref.Pairs key)
      (hown : ref.ownPrimaryKey = false) (hjoin : r.joinTable = none) :
      Answers r (.qualified r.related.table key.field.dbName) ref.foreignKey

/-- A join of the two sides asks for the columns to be equal. -/
def Equates (r : Relationship) (a b : Column) : Prop :=
  .compare .eq a (.column b) ∈ r.joinOn ∨ .compare .eq b (.column a) ∈ r.joinOn

/-- What related records have for their type: what the tag says, or else the table of the owner. -/
def typeValue (r : Relationship) : String :=
  ((r.field.settings.get? "POLYMORPHICVALUE").map Text.trim).getD r.owner.table

/-- Related records tell what they belong to by an empty text. -/
def HasEmptyType (r : Relationship) : Prop := r.polymorphic.isSome = true ∧ r.typeValue = ""

instance (r : Relationship) : Decidable r.HasEmptyType := inferInstanceAs (Decidable (_ ∧ _))

/-- The references pair keys with the fields that hold them, except for the first of a polymorphic
relationship. -/
inductive Formed (r : Relationship) : Prop
  | plain (hplain : r.polymorphic = none) (hrefs : ∀ ref ∈ r.references, ∃ key, ref.Pairs key)
  | polymorphic {made : Polymorphic} {key : KeyField} (hmade : r.polymorphic = some made)
      (hjoin : r.joinTable = none) (hvalue : made.value = r.typeValue)
      (hrefs : r.references = made.references key)

/-- The field whose value a reference needs. -/
def keyField? (r : Relationship) (ref : Reference) : Option KeyField :=
  if !ref.primaryValue.isEmpty then none
  else if ref.ownPrimaryKey then ref.primaryKey
  else if r.joinTable.isNone then some ref.foreignKey
  else none

variable {r : Relationship} {ref : Reference} {key field : KeyField} {column : Column}

/-! ## One reference at a time -/

/-- The join compares the columns that answer each other. -/
theorem Answers.equates (h : r.Answers column field) :
    r.Equates column (.qualified r.owner.table field.field.dbName) := by
  cases h with
  | @foreign ref key href hpair hown =>
    refine .inl (List.mem_map.mpr ⟨ref, href, ?_⟩)
    rw [joinCondition, hpair.1, hpair.2, hown]
    rfl
  | @key ref key href hpair hown hjoin =>
    refine .inr (List.mem_map.mpr ⟨ref, href, ?_⟩)
    rw [joinCondition, hpair.1, hpair.2, hown, hjoin]
    rfl

/-- A pair gives a column that answers its field, or neither of the two. -/
theorem answers_of_pairs (href : ref ∈ r.references) (hpair : ref.Pairs key) :
    Option.Rel r.Answers (r.demand ref).getRight? (r.keyField? ref) := by
  unfold demand keyField?
  rw [hpair.1, hpair.2]
  cases hown : ref.ownPrimaryKey with
  | true => exact .some (.foreign href hpair hown)
  | false =>
    cases hjoin : r.joinTable with
    | some join => exact .none
    | none => exact .some (.key href hpair hown hjoin)

/-- Neither does a constant, unless it is empty. -/
theorem answers_of_constant (hkey : ref.primaryKey = none) (hown : ref.ownPrimaryKey = false)
    (hvalue : ref.primaryValue ≠ "") :
    Option.Rel r.Answers (r.demand ref).getRight? (r.keyField? ref) := by
  have hwritten : ref.primaryValue.isEmpty = false := by
    rw [Bool.eq_false_iff, ne_eq, String.isEmpty_iff]
    exact hvalue
  unfold demand keyField?
  rw [hkey, hown, hwritten]
  exact .none

/-! ## All references -/

/-- If each reference gives an answer with its field or neither, so do all of them in their order. -/
theorem forall₂_answers
    (h : ∀ ref ∈ r.references, Option.Rel r.Answers (r.demand ref).getRight? (r.keyField? ref)) :
    List.Forall₂ r.Answers r.keyColumns r.keyFields := by
  have hsame : List.Forall₂ (fun a b => a = b ∧ a ∈ r.references) r.references r.references :=
    List.forall₂_same.mpr fun ref href => ⟨rfl, href⟩
  refine List.rel_filterMap ?_ hsame
  rintro ref _ ⟨rfl, href⟩
  exact h ref href

/-- A polymorphic relationship compares one column. -/
theorem keyColumns_of_polymorphic {made : Polymorphic} (hrefs : r.references = made.references key) :
    r.keyColumns = [.qualified r.targetTable made.id.field.dbName] := by
  rw [keyColumns, hrefs]
  rfl

/-- For the empty type it asks for two fields. -/
theorem keyFields_of_emptyType {made : Polymorphic} (hjoin : r.joinTable = none)
    (hempty : made.value = "") (hrefs : r.references = made.references key) :
    r.keyFields = [made.typeField, key] := by
  rw [keyFields, hrefs, Polymorphic.references, hempty, hjoin]
  rfl

/-- The columns answer the fields exactly if there is no empty type. -/
theorem Formed.answers_iff (h : r.Formed) :
    List.Forall₂ r.Answers r.keyColumns r.keyFields ↔ ¬r.HasEmptyType := by
  cases h with
  | plain hplain hrefs =>
    refine iff_of_true (forall₂_answers fun ref href => ?_) fun hempty => ?_
    · obtain ⟨key, hpair⟩ := hrefs ref href
      exact answers_of_pairs href hpair
    · rw [HasEmptyType, hplain] at hempty
      cases hempty.1
  | @polymorphic made key hmade hjoin hvalue hrefs =>
    have hempty : r.HasEmptyType ↔ made.value = "" := by
      rw [HasEmptyType, hmade, hvalue]
      exact and_iff_right rfl
    rw [hempty]
    constructor
    · intro hanswers hvalue
      have hlength := hanswers.length_eq
      rw [keyColumns_of_polymorphic hrefs, keyFields_of_emptyType hjoin hvalue hrefs] at hlength
      cases hlength
    · refine fun hvalue => forall₂_answers fun ref href => ?_
      have href' := href
      rw [hrefs] at href'
      obtain rfl | href' := List.mem_cons.mp href'
      · exact answers_of_constant rfl rfl hvalue
      · obtain rfl := List.mem_singleton.mp href'
        exact answers_of_pairs href ⟨rfl, rfl⟩

/-- An empty type is asked of the owner before its key. -/
theorem Formed.of_emptyType (h : r.Formed) (hempty : r.HasEmptyType) :
    ∃ made key, r.polymorphic = some made ∧ r.keyFields = [made.typeField, key]
      ∧ r.keyColumns = [.qualified r.targetTable made.id.field.dbName] := by
  cases h with
  | plain hplain =>
    rw [HasEmptyType, hplain] at hempty
    cases hempty.1
  | polymorphic hmade hjoin hvalue hrefs =>
    exact ⟨_, _, hmade, keyFields_of_emptyType hjoin (hvalue.trans hempty.2) hrefs,
      keyColumns_of_polymorphic hrefs⟩

end Relationship

namespace Pairing

variable {p : Pairing} {position next : Nat} {r : Relationship} {join : Option JoinTable}
  {table : JoinTable} {given : String}

/-! ## Relationships that are resolved -/

theorem relationship_formed (h : p.relationship position next = .ok (r, join)) : r.Formed := by
  cases madeAs_of_relationship h with
  | polymorphic _ hmade =>
    obtain ⟨hvalue, key, hrefs, -⟩ := polymorphic_ok hmade
    exact .polymorphic rfl rfl hvalue hrefs
  | linked _ htable =>
    refine .plain rfl fun ref href => ?_
    obtain ⟨-, ⟨key, hkey, -⟩, hvalue⟩ := references_of_joinTable htable href
    exact ⟨key, hkey, hvalue⟩
  | guessed _ hguess =>
    obtain ⟨d, hd⟩ := guess_ok hguess
    obtain ⟨_, _, -, -, hrefs⟩ := references?_ok hd
    refine .plain rfl fun ref href => ?_
    obtain ⟨-, ⟨key, hkey, -⟩, hvalue, -⟩ := hrefs ref href
    exact ⟨key, hkey, hvalue⟩

/-- So it is with the relationships of a join table. -/
theorem links_formed (h : p.joinTable next given = .ok table) {link : Relationship}
    (hlink : link ∈ table.links) : link.Formed := by
  obtain ⟨_, _, _, _, -, hsource, rfl⟩ := exists_side_of_link h hlink
  refine .plain rfl fun ref href => ?_
  obtain ⟨copy, -, href⟩ := List.mem_flatMap.mp href
  obtain ⟨-, ⟨key, hkey, -⟩, hvalue, -⟩ := paired_has hsource href
  exact ⟨key, hkey, hvalue⟩

end Pairing

namespace SchemaCache

variable {c : SchemaCache} {n : Nat} {schema : Schema} {rs : List Relationship} {r : Relationship}

theorem Traced.formed (hc : c.Traced) (hn : c.get? n = some ⟨schema, .resolved rs⟩) (hr : r ∈ rs) :
    r.Formed := by
  cases hc n _ hn with
  | read _ hmakes =>
    obtain ⟨_, _, _, _, _, -, hrelationship, -⟩ := hmakes rs rfl r hr
    exact Pairing.relationship_formed hrelationship
  | join _ _ hjoin => exact Pairing.links_formed hjoin hr

/-- After any calls, for every relationship of a schema that was read, and of a join table: the
conditions on related rows are tests of their own and the comparison of the key columns with the
rows. There is one column for each key field, in the same order, that has to equal it, unless the
relationship is polymorphic and its type is empty. In that case the type, which is a field of the
related schema, comes before the key that the only column has to equal. A column that has to equal
a field is compared with the column of that field by a join. -/
theorem key_columns_answer_key_fields_iff (catalog : Catalog) (naming : Naming)
    (calls : List ParseCall) {n : Nat} {schema : Schema} {rs : List Relationship} {r : Relationship}
    (hn : ((empty catalog naming).parseAll calls).get? n = some ⟨schema, .resolved rs⟩)
    (hr : r ∈ rs) :
    (∀ rows, r.queryConditions rows
        = r.writtenTests.map Test.expression ++ Relationship.rowsCondition r.keyColumns rows)
      ∧ (List.Forall₂ r.Answers r.keyColumns r.keyFields ↔ ¬r.HasEmptyType)
      ∧ (r.HasEmptyType → ∃ made key, r.polymorphic = some made
        ∧ r.keyFields = [made.typeField, key]
        ∧ r.keyColumns = [.qualified r.targetTable made.id.field.dbName])
      ∧ ∀ column field, r.Answers column field →
        r.Equates column (.qualified r.owner.table field.field.dbName) := by
  have hc : ((empty catalog naming).parseAll calls).Traced :=
    (traced_empty catalog naming).parseAll calls
  have hformed := hc.formed hn hr
  exact ⟨r.queryConditions_eq, hformed.answers_iff, hformed.of_emptyType, fun _ _ => (·.equates)⟩

/-! ## Albums -/

/-- Albums have photos, which tell their type by an empty text, and notes, which tell it by the
table. -/
def albums : Catalog :=
  ⟨[ ( "Album",
      { name := "Album"
        fields :=
          [ { name := "ID", kind := .uint 64 }
          , { name := "Photos", kind := .slice (.record ⟨"Photo", "Photo"⟩)
              tag := "polymorphic:Item;polymorphicValue:" }
          , { name := "Notes", kind := .slice (.record ⟨"Note", "Note"⟩)
              tag := "polymorphic:Item" } ] } )
    , ( "Photo",
      { name := "Photo"
        fields :=
          [{ name := "ItemID", kind := .uint 64 }, { name := "ItemType", kind := .string }] } )
    , ( "Note",
      { name := "Note"
        fields :=
          [{ name := "ItemID", kind := .uint 64 }, { name := "ItemType", kind := .string }] } ) ]⟩

/-- The call for albums. -/
def albumCall : ParseCall := ⟨⟨"Album", "Album"⟩, none⟩

theorem albums_relationships :
    let c := (empty albums {}).parseAll [albumCall]
    ∃ schema photos notes, c.get? 0 = some ⟨schema, .resolved [photos, notes]⟩
      ∧ photos.HasEmptyType ∧ ¬notes.HasEmptyType
      ∧ photos.keyFields.map (·.field.name) = ["ItemType", "ID"]
      ∧ notes.keyFields.map (·.field.name) = ["ID"] := by
  intro c
  have h : (c.get? 0).bind (fun e => (e.relationships[0]?).bind fun photos =>
      (e.relationships[1]?).map fun notes => decide (e.relationships.length = 2
        ∧ photos.HasEmptyType ∧ ¬notes.HasEmptyType
        ∧ photos.keyFields.map (·.field.name) = ["ItemType", "ID"]
        ∧ notes.keyFields.map (·.field.name) = ["ID"])) = some true := by decide +kernel
  obtain ⟨e, he, h⟩ := Option.bind_eq_some_iff.mp h
  obtain ⟨photos, hphotos, h⟩ := Option.bind_eq_some_iff.mp h
  obtain ⟨notes, hnotes, h⟩ := Option.map_eq_some_iff.mp h
  obtain ⟨hlength, hrest⟩ := of_decide_eq_true h
  have hrelationships : e.relationships = [photos, notes] := by
    obtain ⟨first, second, heq⟩ := List.length_eq_two.mp hlength
    rw [heq] at hphotos hnotes ⊢
    cases hphotos
    cases hnotes
    rfl
  exact ⟨e.schema, photos, notes, he.trans (congrArg some (eq_resolved hrelationships)), hrest⟩

/-- The photos of an album are asked for its key by one column, but the album is read for two values,
of which it has no field for the first. Its notes are asked for the one value that is read. -/
theorem key_columns_answer_key_fields_iff_albums :
    let c := (empty albums {}).parseAll [albumCall]
    ∃ schema photos notes, c.get? 0 = some ⟨schema, .resolved [photos, notes]⟩
      ∧ photos.keyFields.map (·.field.name) = ["ItemType", "ID"] ∧ photos.keyColumns.length = 1
      ∧ ¬List.Forall₂ photos.Answers photos.keyColumns photos.keyFields
      ∧ notes.keyFields.map (·.field.name) = ["ID"] ∧ notes.keyColumns.length = 1
      ∧ List.Forall₂ notes.Answers notes.keyColumns notes.keyFields := by
  intro c
  obtain ⟨schema, photos, notes, he, hempty, hfilled, hphotos, hnotes⟩ := albums_relationships
  obtain ⟨-, hiff, htype, -⟩ := key_columns_answer_key_fields_iff albums {} [albumCall] he
    (r := photos) (by simp)
  obtain ⟨-, hiff', -, -⟩ := key_columns_answer_key_fields_iff albums {} [albumCall] he
    (r := notes) (by simp)
  have hanswers := hiff'.mpr hfilled
  refine ⟨schema, photos, notes, he, hphotos, ?_, fun h => hiff.mp h hempty, hnotes, ?_, hanswers⟩
  · obtain ⟨_, _, -, -, hcolumns⟩ := htype hempty
    rw [hcolumns]
    rfl
  · rw [hanswers.length_eq, ← List.length_map (·.field.name), hnotes]
    rfl

end SchemaCache

end RecordSql
