/-
  RecordSql.Proofs.GuessedSides

  Which side of a relationship has the keys where the tag does not say it.  The
  kind of the relationship, the flag of its references and the homes of their
  fields all come from the one direction that was found (`Pairing.directed`), so
  they agree: a has-relationship is held by the related schema, a belongs-to by
  the schema of the field or by the embedded record that the field comes from
  (`Relationship.Directed`).
-/

import RecordSql.Proofs.KeyFields
import RecordSql.Proofs.Cache.Pairings

namespace RecordSql

/-- The kind behind all pointers is that of a list of some length. -/
def Kind.HoldsSeveral (kind : Kind) : Prop :=
  ∃ item, kind.indirect = .slice item ∨ ∃ length, kind.indirect = .array item length

/-- The sides that a field can stand for: its schema, or the embedded record that it comes from. -/
inductive NumberedSchema.SideOf (s : NumberedSchema) (field : Field) : Side → Prop
  | whole : SideOf s field s.side
  | embedded {index : Nat} {side : Side} (howner : field.owner = some index)
      (hside : s.embeddedSide? index = some side) : SideOf s field side

/-- The relationship goes one way: either the related schema holds keys of the owner's side, or the
owner's side holds keys of the related schema. -/
structure Relationship.Directed (r : Relationship) (owner related : NumberedSchema) (isOwn : Bool) :
    Prop where
  nonempty : r.references ≠ []
  keyed : ∀ ref ∈ r.references,
    ref.primaryKey.isSome = true ∧ ref.primaryValue = "" ∧ ref.ownPrimaryKey = isOwn
  own_iff : isOwn = true ↔ r.kind = .hasOne ∨ r.kind = .hasMany
  belongs_iff : isOwn = false ↔ r.kind = .belongsTo
  several_iff : r.kind ≠ .belongsTo → (r.kind = .hasMany ↔ r.field.kind.HoldsSeveral)
  sides : ∃ side, owner.SideOf r.field side ∧ ∀ ref ∈ r.references, ∀ key, ref.primaryKey = some key →
    if isOwn then related.side.Has ref.foreignKey ∧ side.Has key
    else side.Has ref.foreignKey ∧ related.side.Has key

theorem Kind.isSequence_iff (kind : Kind) : kind.isSequence = true ↔ kind.HoldsSeveral := by
  rw [isSequence, HoldsSeveral]
  split <;> simp_all

namespace Pairing

variable {p : Pairing} {d : Direction} {primary foreign : Side} {r : Relationship}

theorem hasKind_eq_hasMany (p : Pairing) : p.hasKind = .hasMany ↔ p.field.kind.HoldsSeveral := by
  rw [← Kind.isSequence_iff, hasKind]
  split <;> simp_all

/-- In every direction one of the two sides is the related schema, and the owner's side is the other. -/
theorem exists_side_of_sides? (h : p.sides? d = some (primary, foreign)) :
    ∃ side, p.owner.SideOf p.field side
      ∧ if d.isHas then foreign = p.related.side ∧ primary = side
        else foreign = side ∧ primary = p.related.side := by
  have hembedded : ∀ side, p.embeddedOwner? = some side → p.owner.SideOf p.field side := by
    intro side hside
    obtain ⟨index, hindex, hside⟩ := Option.bind_eq_some_iff.mp hside
    exact .embedded hindex hside
  cases d with
  | belongs =>
    cases h
    exact ⟨_, .whole, rfl, rfl⟩
  | has =>
    cases h
    exact ⟨_, .whole, rfl, rfl⟩
  | embeddedBelongs =>
    obtain ⟨side, hside, heq⟩ := Option.map_eq_some_iff.mp h
    cases heq
    exact ⟨_, hembedded _ hside, rfl, rfl⟩
  | embeddedHas =>
    obtain ⟨side, hside, heq⟩ := Option.map_eq_some_iff.mp h
    cases heq
    exact ⟨_, hembedded _ hside, rfl, rfl⟩

/-- The direction that is found decides about kind, flag and sides alike. -/
theorem directed (hfield : r.field = p.field) (hguess : p.guess = .ok (r.kind, r.references)) :
    ∃ isOwn, r.Directed p.owner p.related isOwn := by
  obtain ⟨ds, d, -, hfound, hkind⟩ := found_of_guess hguess
  obtain ⟨primary, foreign, hsides, hne, hrefs⟩ := references?_ok (references_of_found? hfound)
  obtain ⟨side, hside, hhomes⟩ := exists_side_of_sides? hsides
  -- The kind says which direction it was, because a direction that has is never one that belongs.
  have hbelongs : d.isHas = false ↔ r.kind = .belongsTo := by
    rw [hkind]
    cases d.isHas with
    | true => simpa using p.hasKind_ne
    | false => simp
  refine ⟨d.isHas, hne, fun ref href => ?_, ?_, hbelongs, fun hnot => ?_, side, ?_, ?_⟩
  · obtain ⟨-, ⟨key, hkey, -⟩, hvalue, hown⟩ := hrefs ref href
    exact ⟨by rw [hkey]; rfl, hvalue, hown⟩
  · rw [hkind]
    cases d.isHas with
    | true => simpa using p.hasKind_cases
    | false => simp
  · have hhas : d.isHas = true := by simpa using fun hfalse => hnot (hbelongs.mp hfalse)
    rw [hkind, hhas, hfield]
    exact p.hasKind_eq_hasMany
  · exact hfield ▸ hside
  · intro ref href key hkey
    obtain ⟨hforeign, ⟨key', hkey', hprimary⟩, -⟩ := hrefs ref href
    obtain rfl : key' = key := Option.some.inj (hkey'.symm.trans hkey)
    cases hhas : d.isHas with
    | true =>
      rw [hhas] at hhomes
      obtain ⟨rfl, rfl⟩ := hhomes
      exact ⟨hforeign, hprimary⟩
    | false =>
      rw [hhas] at hhomes
      obtain ⟨rfl, rfl⟩ := hhomes
      exact ⟨hforeign, hprimary⟩

end Pairing

namespace SchemaCache

/-- After any calls, a relationship of a schema that is found comes from the schema and from that of
the record type that its field leads to, as the guess that links them if the tag does not say how. -/
theorem exists_guess (catalog : Catalog) (naming : Naming) (calls : List ParseCall)
    {key : SchemaKey} {n : Nat} {schema : Schema} {rs : List Relationship} {r : Relationship}
    (hn : ((empty catalog naming).parseAll calls).find? key = some n)
    (he : ((empty catalog naming).parseAll calls).get? n = some ⟨schema, .resolved rs⟩)
    (hr : r ∈ rs) (hplain : r.field.IsPlain) :
    ∃ model related, r.field.kind.model? = some model
      ∧ Schema.parse catalog naming ⟨key.model, ""⟩ key.table = .ok schema
      ∧ Schema.parse catalog naming model none = .ok related.schema ∧ related.ref = r.related
      ∧ (Pairing.ofField ⟨n, schema⟩ related r.field).guess = .ok (r.kind, r.references) := by
  have hkeyed := (keyed_empty catalog naming).parseAll calls
  obtain ⟨e, he', howner, hmakes⟩ := hkeyed.schema key n hn
  obtain rfl : e = ⟨schema, .resolved rs⟩ := Option.some.inj (he'.symm.trans he)
  obtain ⟨⟨field, position⟩, -, hentry⟩ := exists_of_forall₂ (hmakes rs rfl) hr
  have hgrows := parseAll_grows (empty catalog naming) calls
  have hcatalog : ((empty catalog naming).parseAll calls).catalog = catalog := hgrows.catalog
  have hnaming : ((empty catalog naming).parseAll calls).naming = naming := hgrows.naming
  rw [hcatalog, hnaming] at hentry howner
  obtain ⟨model, related, next, join, hmodel, hparse, -, hmade⟩ := hentry
  obtain ⟨-, hfield, -, hrelated⟩ := Pairing.relationship_declared hmade
  obtain rfl : r.field = field := hfield
  exact ⟨model, related, hmodel, howner, hparse, hrelated.symm,
    Pairing.relationship_plain hplain hmade⟩

/-- After any calls, every relationship that is found by its keys alone goes one way: kind, flags and
homes of the keys agree. -/
theorem guessed_relationships_are_directed (catalog : Catalog) (naming : Naming)
    (calls : List ParseCall) {key : SchemaKey} {n : Nat} {schema : Schema} {rs : List Relationship}
    {r : Relationship}
    (hn : ((empty catalog naming).parseAll calls).find? key = some n)
    (he : ((empty catalog naming).parseAll calls).get? n = some ⟨schema, .resolved rs⟩)
    (hr : r ∈ rs) (hplain : r.field.IsPlain) :
    ∃ model related isOwn, r.field.kind.model? = some model
      ∧ Schema.parse catalog naming model none = .ok related.schema ∧ related.ref = r.related
      ∧ r.Directed ⟨n, schema⟩ related isOwn := by
  obtain ⟨model, related, hmodel, -, hparse, hrelated, hguess⟩ :=
    exists_guess catalog naming calls hn he hr hplain
  obtain ⟨isOwn, hdirected⟩ :=
    Pairing.directed (p := .ofField ⟨n, schema⟩ related r.field) rfl hguess
  exact ⟨model, related, isOwn, hmodel, hparse, hrelated, hdirected⟩

/-! ## Hulls -/

/-- Ships embed their hull. It is the plates that hold a key of the hull, so they are found on the
side of the embedded record, after all sides without it. -/
def ships : Catalog :=
  ⟨[ ( "Ship",
      { name := "Ship"
        fields :=
          [ { name := "Name", kind := .string }
          , { name := "Hull", kind := .record ⟨"Hull", "Hull"⟩, tag := "embedded" } ] } )
    , ( "Hull",
      { name := "Hull"
        fields :=
          [ { name := "Serial", kind := .string, tag := "primaryKey" }
          , { name := "Plates", kind := .slice (.record ⟨"Plate", "Plate"⟩) } ] } )
    , ( "Plate",
      { name := "Plate"
        fields :=
          [ { name := "ID", kind := .uint 64 }, { name := "HullSerial", kind := .string } ] } ) ]⟩

/-- The call for ships. -/
def shipCall : ParseCall := ⟨⟨"Ship", "Ship"⟩, none⟩

theorem ships_relationship :
    let c := (empty ships plainNames).parseAll [shipCall]
    c.find? ⟨"Ship", none⟩ = some 0
      ∧ ∃ schema plates, c.get? 0 = some ⟨schema, .resolved [plates]⟩
        ∧ plates.field.IsPlain ∧ plates.kind = .hasMany
        ∧ plates.references.map (fun ref => ref.primaryKey.map (·.home)) = [some ⟨0, some 0⟩] := by
  intro c
  exact ⟨by decide +kernel, exists_only (by decide +kernel)⟩

/-- Plates hold the key of the hull that is embedded. -/
theorem guessed_relationships_are_directed_ships :
    let c := (empty ships plainNames).parseAll [shipCall]
    ∃ schema plates related, c.get? 0 = some ⟨schema, .resolved [plates]⟩
      ∧ plates.references.map (fun ref => ref.primaryKey.map (·.home)) = [some ⟨0, some 0⟩]
      ∧ plates.Directed ⟨0, schema⟩ related true := by
  intro c
  obtain ⟨hfound, schema, plates, he, hplain, hkind, hhomes⟩ := ships_relationship
  obtain ⟨-, related, isOwn, -, -, -, hdirected⟩ := guessed_relationships_are_directed ships
    plainNames [shipCall] hfound he (List.mem_singleton_self plates) hplain
  obtain rfl : isOwn = true := hdirected.own_iff.mpr (.inr hkind)
  exact ⟨schema, plates, related, he, hhomes, hdirected⟩

end SchemaCache

end RecordSql
