/-
  RecordSql.Proofs.ForeignKeys

  Which relationships have a foreign key constraint.  A record that belongs to
  another leaves the constraint to the other side if a relationship of that side
  goes back by the same references (`SchemaCache.inverses`).  Such a relationship
  has the owner as one or as many, or belongs to the schema itself; a join table
  cannot be the way back.  It is not asked whether it has a constraint, so there
  is one for the keys exactly if there is no way back, or one that has the owner
  and does not forbid the constraint.
-/

import Mathlib.Data.List.Nodup
import RecordSql.Proofs.GuessedSides
import RecordSql.Proofs.KeyColumns

namespace RecordSql

namespace Relationship

variable {r other : Relationship} {ref : Reference}

/-- The tag of the field says that there is to be no constraint. -/
def forbidsConstraint (r : Relationship) : Bool := r.field.settings.text "CONSTRAINT" == "-"

/-- The references pair the same fields, one after the other. -/
def SharesReferences (r other : Relationship) : Prop :=
  List.Forall₂ (fun a b => a.same b = true) other.references r.references

/-- The related schema has the owner, as one or as many. -/
def IsHas (r : Relationship) : Prop := r.kind = .hasOne ∨ r.kind = .hasMany

theorem isInverse_iff : r.isInverse other = true ↔
    ¬(other.owner.number = r.owner.number ∧ other.position = r.position)
      ∧ other.related.name = r.owner.name ∧ other.related.table = r.owner.table
      ∧ r.SharesReferences other := by
  rw [isInverse, SharesReferences, List.forall₂_iff_zip]
  simp only [Bool.and_eq_true, Bool.not_eq_true', Bool.and_eq_false_iff, beq_eq_false_iff_ne, ne_eq,
    beq_iff_eq, List.all_eq_true, Prod.forall, and_assoc, not_and_or]

/-- The constraint is left out where it is forbidden, and for a record that belongs to another where a
relationship goes back. -/
theorem foreignKey?_isSome_iff (ns : Naming) (inverse : List Relationship) :
    (r.foreignKey? ns inverse).isSome = true ↔ r.forbidsConstraint = false
      ∧ (r.kind = .belongsTo → inverse.any r.isInverse = false) := by
  rw [foreignKey?, forbidsConstraint]
  split
  · next h =>
    simp only [Bool.or_eq_true, Bool.and_eq_true, beq_iff_eq] at h
    simp only [Option.isSome_none, Bool.false_eq_true, false_iff, not_and_or]
    obtain hforbids | ⟨hkind, hany⟩ := h
    · exact .inl (by simp [hforbids])
    · exact .inr fun hnone => by simp [hnone hkind] at hany
  · next h =>
    simp only [Bool.or_eq_true, Bool.and_eq_true, beq_iff_eq, not_or, not_and] at h
    simp only [Option.isSome_some, true_iff]
    exact ⟨by simpa using h.1, fun hkind => by simpa using h.2 hkind⟩

/-! ## Who holds the keys -/

/-- The references hold the keys on the side that the kind says. -/
structure SidesAgree (r : Relationship) : Prop where
  link : r.joinTable.isSome = true ↔ r.kind = .manyToMany
  belongs : r.kind = .belongsTo → ∀ ref ∈ r.references,
    ref.primaryKey.isSome = true ∧ ref.primaryValue = "" ∧ ref.ownPrimaryKey = false
  has : r.IsHas → ∀ ref ∈ r.references, ref.primaryKey.isSome = true → ref.ownPrimaryKey = true

namespace SidesAgree

theorem holder_of_belongsTo (h : r.SidesAgree) (hkind : r.kind = .belongsTo)
    (href : ref ∈ r.references) : r.holder ref = r.owner ∧ r.keyOwner ref = r.related := by
  obtain ⟨hkey, hvalue, hown⟩ := h.belongs hkind ref href
  have hjoin : r.joinTable = none := by
    rw [← Option.not_isSome_iff_eq_none, h.link, hkind]
    decide
  obtain ⟨key, hkey⟩ := Option.isSome_iff_exists.mp hkey
  rw [holder, keyOwner, hjoin, hown, hvalue, hkey]
  exact ⟨rfl, rfl⟩

theorem holder_of_has (h : r.SidesAgree) (hkind : r.IsHas) (href : ref ∈ r.references)
    (hkey : ref.primaryKey.isSome = true) : r.holder ref = r.related := by
  have hjoin : r.joinTable = none := by
    rw [← Option.not_isSome_iff_eq_none, h.link]
    obtain hkind | hkind := hkind <;> rw [hkind] <;> decide
  rw [holder, hjoin, h.has hkind ref href hkey]
  rfl

end SidesAgree

/-! ## References that are shared -/

/-- References that are the same have the same fields, and a key if one of them has one. -/
theorem homes_of_same {a b : Reference} {key : KeyField} (h : a.same b = true)
    (hkey : b.primaryKey = some key) : ∃ key', a.primaryKey = some key' ∧ key'.home = key.home
      ∧ a.foreignKey.home = b.foreignKey.home := by
  rw [Reference.same, hkey] at h
  cases hkey' : a.primaryKey with
  | none => simp [hkey'] at h
  | some key' =>
    simp only [hkey', KeyField.same, Bool.and_eq_true, decide_eq_true_eq] at h
    exact ⟨key', rfl, h.1.1.1, h.1.2.1⟩

theorem SharesReferences.exists_same (h : r.SharesReferences other) (hne : r.references ≠ []) :
    ∃ ref ∈ r.references, ∃ ref' ∈ other.references, ref'.same ref = true := by
  obtain ⟨ref, href⟩ := List.exists_mem_of_ne_nil _ hne
  obtain ⟨ref', href', hsame⟩ := exists_of_forall₂ h href
  exact ⟨ref, href, ref', href', hsame⟩

end Relationship

namespace Pairing

variable {p : Pairing} {position next : Nat} {r : Relationship} {join : Option JoinTable}
  {table : JoinTable} {given : String}

theorem MadeAs.owner (h : p.MadeAs position next r join) : r.owner = p.owner.ref := by
  cases h <;> rfl

theorem MadeAs.sidesAgree (h : p.MadeAs position next r join) : r.SidesAgree := by
  cases h with
  | polymorphic _ hmade =>
    obtain ⟨-, key, rfl, -⟩ := polymorphic_ok hmade
    exact ⟨by simp [declare, p.hasKind_ne_manyToMany], fun hkind => absurd hkind p.hasKind_ne,
      fun _ => by simp [declare, Polymorphic.references]⟩
  | linked =>
    refine ⟨by simp [declare], fun hkind => (nomatch hkind), fun hkind => ?_⟩
    obtain hkind | hkind := hkind <;> cases hkind
  | @guessed kind refs _ hguess =>
    obtain ⟨isOwn, hdirected⟩ := directed (r := p.declare position kind refs) rfl hguess
    refine ⟨by simp [declare, ne_manyToMany_of_guess hguess], fun hkind ref href => ?_,
      fun hkind ref href _ => ?_⟩
    · obtain ⟨hkey, hvalue, hown⟩ := hdirected.keyed ref href
      exact ⟨hkey, hvalue, hown.trans (hdirected.belongs_iff.mpr hkind)⟩
    · exact (hdirected.keyed ref href).2.2.trans (hdirected.own_iff.mpr hkind)

/-- A record that belongs to another says nothing about how, and holds keys of the other. -/
theorem MadeAs.of_belongsTo (h : p.MadeAs position next r join) (hkind : r.kind = .belongsTo) :
    r.field.IsPlain ∧ r.references ≠ [] := by
  cases h with
  | polymorphic => exact absurd hkind p.hasKind_ne
  | linked => cases hkind
  | @guessed kind refs hplain hguess =>
    obtain ⟨_, hdirected⟩ := directed (r := p.declare position kind refs) rfl hguess
    exact ⟨hplain, hdirected.nonempty⟩

/-- A join table comes with a field whose tag names it, and is what links the two sides. -/
theorem MadeAs.of_manyToMany (h : p.MadeAs position next r join) (hkind : r.kind = .manyToMany) :
    r.field.settings.value? "MANY2MANY" ≠ none
      ∧ ∃ table, join = some table ∧ r.joinTable = some (NumberedSchema.mk next table.schema).ref := by
  cases h with
  | polymorphic => exact absurd hkind p.hasKind_ne_manyToMany
  | linked hgiven =>
    refine ⟨fun hnone => ?_, _, rfl, rfl⟩
    cases hgiven.symm.trans hnone
  | guessed _ hguess => exact absurd hkind (ne_manyToMany_of_guess hguess)

theorem link_of_joinTable (h : p.joinTable next given = .ok table) {link : Relationship}
    (hlink : link ∈ table.links) :
    link.kind = .belongsTo ∧ link.field = p.field
      ∧ link.owner = (NumberedSchema.mk next table.schema).ref
      ∧ (link.related = p.owner.ref ∨ link.related = p.related.ref) ∧ link.SidesAgree := by
  obtain ⟨s, fields, _, _, hs, -, rfl⟩ := exists_side_of_link h hlink
  refine ⟨rfl, rfl, rfl, hs.imp (congrArg NumberedSchema.ref) (congrArg NumberedSchema.ref),
    by simp [Pairing.link], fun _ ref href => ?_, fun hkind => ?_⟩
  · obtain ⟨copy, -, href⟩ := List.mem_flatMap.mp href
    obtain ⟨source, -, rfl⟩ := List.mem_map.mp href
    exact ⟨rfl, rfl, rfl⟩
  · obtain hkind | hkind := hkind <;> cases hkind

end Pairing

theorem NumberedSchema.Owns.home {s : NumberedSchema} {k : KeyField} (h : s.Owns k) :
    k.home.schema = s.number := by
  obtain ⟨hhome, -⟩ | ⟨index, side, hside, hhome, -⟩ := h
  · exact congrArg Home.schema hhome
  · obtain ⟨layout, -, rfl⟩ := Option.map_eq_some_iff.mp hside
    exact congrArg Home.schema hhome

namespace Relationship.Placed

variable {r : Relationship} {schemas : List NumberedSchema} {ref : Reference} {key : KeyField}

theorem foreign_home (h : r.Placed schemas) (href : ref ∈ r.references) :
    ref.foreignKey.home.schema = (r.holder ref).number := by
  obtain ⟨s, -, hs, howns⟩ := h.foreign ref href
  rw [howns.home, hs]
  rfl

theorem key_home (h : r.Placed schemas) (href : ref ∈ r.references)
    (hkey : ref.primaryKey = some key) : key.home.schema = (r.keyOwner ref).number := by
  obtain ⟨-, s, -, hs, howns⟩ := h.key ref href key hkey
  rw [howns.home, hs]
  rfl

end Relationship.Placed

/-! ## Positions -/

namespace SchemaCache

variable {c : SchemaCache} {key : SchemaKey} {n position : Nat} {schema : Schema} {e : Entry}
  {rs : List Relationship} {r other : Relationship} {owner s t : NumberedSchema} {fields : List Field}

/-- A relationship is told by its position among those of its owner. -/
theorem MakesAll.eq_of_position (h : c.MakesAll key owner position fields rs) (hr : r ∈ rs)
    (hother : other ∈ rs) (heq : r.position = other.position) : r = other := by
  have hpositions : rs.map (·.position) = (fields.zipIdx position).map Prod.snd := by
    rw [← h.entries, List.map_map]
    rfl
  -- Positions are counted up, so each stands for one relationship.
  have hnodup : (rs.map (·.position)).Nodup := by
    rw [hpositions, List.zipIdx_map_snd]
    exact List.nodup_range'
  exact List.inj_on_of_nodup_map hnodup hr hother heq

/-! ## The relationships of a schema -/

theorem HasSchema.eq_of_number (hs : c.HasSchema s) (ht : c.HasSchema t)
    (h : s.number = t.number) : s = t := by
  obtain ⟨number, own⟩ := s
  obtain ⟨number', other⟩ := t
  obtain rfl : number = number' := h
  obtain rfl : own = other := Option.some.inj (Eq.trans (Eq.symm hs) ht)
  rfl

theorem mem_relationships_iff :
    r ∈ e.relationships ↔ ∃ rs, e.progress = .resolved rs ∧ r ∈ rs := by
  rw [Entry.relationships]
  cases e.progress <;> simp

/-- What is known of a relationship of a schema, wherever the schema comes from. -/
structure Situated (c : SchemaCache) (owner : NumberedSchema) (r : Relationship) : Prop where
  owner : r.owner = owner.ref
  related : ∃ s, c.HasSchema s ∧ r.related = s.ref
  sides : r.SidesAgree
  joined : r.kind = .manyToMany → ∃ join links, r.joinTable = some (NumberedSchema.ref join)
    ∧ c.get? join.number = some ⟨join.schema, .resolved links⟩
    ∧ ∀ link ∈ links, ¬link.field.IsPlain

/-- The related schema is the one that has its number. -/
theorem Situated.related_eq (h : c.Situated owner r) (ht : c.HasSchema t)
    (hnumber : r.related.number = t.number) : r.related = t.ref := by
  obtain ⟨s, hs, href⟩ := h.related
  rw [href] at hnumber ⊢
  rw [hs.eq_of_number ht hnumber]

theorem Traced.situated (hc : c.Traced) (hn : c.get? n = some ⟨schema, .resolved rs⟩) (hr : r ∈ rs) :
    c.Situated ⟨n, schema⟩ r := by
  cases hc n _ hn with
  | read _ hmakes =>
    obtain ⟨related, field, position, next, join, hrelated, hrelationship, hjoin⟩ := hmakes rs rfl r hr
    have hmade := Pairing.madeAs_of_relationship hrelationship
    obtain ⟨-, hfield, -, href⟩ := Pairing.relationship_declared hrelationship
    refine ⟨hmade.owner, ⟨related, hrelated, href⟩, hmade.sidesAgree, fun hkind => ?_⟩
    obtain ⟨htag, table, rfl, hjoined⟩ := hmade.of_manyToMany hkind
    refine ⟨⟨next, table.schema⟩, table.links, hjoined, hjoin table rfl, fun link hlink hplain => ?_⟩
    obtain ⟨given, htable, -⟩ := Pairing.joinTable_of_relationship hrelationship
    have hlinkField := (Pairing.link_of_joinTable htable hlink).2.1
    rw [hlinkField, ← hfield] at hplain
    exact htag hplain.2
  | @join own related field given table howner hrelated hjoin =>
    obtain ⟨hkind, -, hlinkOwner, hside, hsides⟩ := Pairing.link_of_joinTable hjoin hr
    refine ⟨hlinkOwner, ?_, hsides, fun hmany => nomatch hkind.symm.trans hmany⟩
    obtain hside | hside := hside
    · exact ⟨own, howner, hside⟩
    · exact ⟨related, hrelated, hside⟩

/-! ## The way back -/

/-- The relationships of the related schema that go back by the same references. -/
def inverses (c : SchemaCache) (r : Relationship) : List Relationship :=
  ((c.get? r.related.number).map (·.relationships.filter r.isInverse)).getD []

theorem mem_inverses : other ∈ c.inverses r ↔ ∃ schema rs,
    c.get? r.related.number = some ⟨schema, .resolved rs⟩ ∧ other ∈ rs ∧ r.isInverse other = true := by
  rw [inverses]
  cases c.get? r.related.number with
  | none => simp
  | some e =>
    rw [Option.map_some, Option.getD_some, List.mem_filter, mem_relationships_iff]
    constructor
    · rintro ⟨⟨rs, hrs, hmem⟩, hinverse⟩
      exact ⟨e.schema, rs, hrs ▸ rfl, hmem, hinverse⟩
    · rintro ⟨schema, rs, heq, hmem, hinverse⟩
      cases heq
      exact ⟨⟨rs, rfl, hmem⟩, hinverse⟩

/-- The relationship leads from the related schema to the owner, by the same references. -/
structure GoesBack (r other : Relationship) : Prop where
  owner : other.owner = r.related
  related : other.related = r.owner
  references : r.SharesReferences other

/-- The way back is a relationship that has the owner, or one that belongs to the schema itself. -/
theorem Traced.goesBack (hc : c.Traced) (hn : c.get? n = some ⟨schema, .resolved rs⟩) (hr : r ∈ rs)
    (hkind : r.kind = .belongsTo) (hplain : r.field.IsPlain) (hne : r.references ≠ [])
    (hother : other ∈ c.inverses r) :
    GoesBack r other ∧ (other.IsHas ∨ other.kind = .belongsTo ∧ r.related = r.owner) := by
  obtain ⟨schema', rs', hm, hmem, hinverse⟩ := mem_inverses.mp hother
  obtain ⟨-, -, -, hshares⟩ := Relationship.isInverse_iff.mp hinverse
  have hr' := hc.situated hn hr
  have hother' := hc.situated hm hmem
  obtain ⟨schemas, hplaced, -⟩ := hc.placed hn hr
  obtain ⟨schemas', hplaced', -⟩ := hc.placed hm hmem
  have hself : c.HasSchema ⟨n, schema⟩ := by rw [HasSchema, hn]; rfl
  have hrelated : c.HasSchema ⟨r.related.number, schema'⟩ := by rw [HasSchema, hm]; rfl
  -- One reference shows where the keys live: the owner holds them, and they are of the related schema.
  obtain ⟨ref, href, ref', href', hsame⟩ := hshares.exists_same hne
  obtain ⟨key, hkey⟩ := Option.isSome_iff_exists.mp (hr'.sides.belongs hkind ref href).1
  obtain ⟨key', hkey', hkeys, hforeign⟩ := Relationship.homes_of_same hsame hkey
  obtain ⟨hholds, hkeyOwner⟩ := hr'.sides.holder_of_belongsTo hkind href
  have hholder : (other.holder ref').number = n := by
    rw [← hplaced'.foreign_home href', hforeign, hplaced.foreign_home href, hholds, hr'.owner]
    rfl
  have howner : other.owner = r.related :=
    hother'.owner.trans (hr'.related_eq hrelated rfl).symm
  have hback : other.related.number = n → other.related = r.owner := fun hnumber =>
    (hother'.related_eq hself hnumber).trans hr'.owner.symm
  have hhas : other.IsHas → GoesBack r other := fun hhas => by
    rw [hother'.sides.holder_of_has hhas href' (by rw [hkey']; rfl)] at hholder
    exact ⟨howner, hback hholder, hshares⟩
  cases hotherKind : other.kind with
  | hasOne => exact ⟨hhas (.inl hotherKind), .inl (.inl hotherKind)⟩
  | hasMany => exact ⟨hhas (.inr hotherKind), .inl (.inr hotherKind)⟩
  | belongsTo =>
    -- Both hold the same keys, so both are relationships of one schema to itself.
    obtain ⟨hholds', hkeyOwner'⟩ := hother'.sides.holder_of_belongsTo hotherKind href'
    rw [hholds', howner] at hholder
    have hloop : r.related = r.owner := (hr'.related_eq hself hholder).trans hr'.owner.symm
    have hnumber : other.related.number = n := by
      rw [← hkeyOwner', ← hplaced'.key_home href' hkey', hkeys, hplaced.key_home href hkey, hkeyOwner,
        hholder]
    exact ⟨⟨howner, hback hnumber, hshares⟩, .inr ⟨rfl, hloop⟩⟩
  | manyToMany =>
    -- The owner would be the join table, whose relationships come of the same tag.
    obtain ⟨join, links, hjoin, hget, hlinks⟩ := hother'.joined hotherKind
    rw [Relationship.holder, hjoin] at hholder
    have hnumber : join.number = n := hholder
    rw [hnumber, hn] at hget
    cases hget
    exact absurd hplain (hlinks r hr)

/-! ## Constraints -/

/-- There is a constraint for the keys of the relationship, on its own side or on the other. -/
def Constrained (c : SchemaCache) (r : Relationship) : Prop :=
  (c.foreignKey? r).isSome = true
    ∨ ∃ schema rs other, c.get? r.related.number = some ⟨schema, .resolved rs⟩ ∧ other ∈ rs
      ∧ other.IsHas ∧ GoesBack r other ∧ (c.foreignKey? other).isSome = true

theorem any_isInverse_eq_false_iff (hrelated : c.get? r.related.number = some e) :
    e.relationships.any r.isInverse = false ↔ c.inverses r = [] := by
  rw [inverses, hrelated, Option.map_some, Option.getD_some, List.filter_eq_nil_iff,
    List.any_eq_false]

theorem foreignKey?_isSome_iff (hrelated : c.HasSchema s) (href : r.related = s.ref) :
    (c.foreignKey? r).isSome = true ↔ r.forbidsConstraint = false
      ∧ (r.kind = .belongsTo → c.inverses r = []) := by
  obtain ⟨e, he, -⟩ := Option.map_eq_some_iff.mp hrelated
  have hget : c.get? r.related.number = some e := by rw [href]; exact he
  rw [foreignKey?, hget, Option.bind_eq_bind, Option.bind_some,
    Relationship.foreignKey?_isSome_iff, any_isInverse_eq_false_iff hget]

/-- A relationship that has others leaves its constraint to no other. -/
theorem foreignKey?_isSome_of_has (hrelated : c.HasSchema s) (href : other.related = s.ref)
    (hhas : other.IsHas) :
    (c.foreignKey? other).isSome = true ↔ other.forbidsConstraint = false := by
  rw [foreignKey?_isSome_iff hrelated href]
  refine and_iff_left fun hkind => ?_
  obtain hhas | hhas := hhas <;> cases hkind.symm.trans hhas

/-- A relationship that has the owner, and goes back by the same references, passes for an inverse. -/
theorem mem_inverses_of_has (he : c.get? n = some ⟨schema, .resolved rs⟩) (hr : r ∈ rs)
    (hmakes : c.MakesAll key ⟨n, schema⟩ 0 fields rs) (howner : r.owner = (NumberedSchema.mk n schema).ref)
    (hkind : r.kind = .belongsTo) {schema' : Schema} {rs' : List Relationship}
    (hm : c.get? r.related.number = some ⟨schema', .resolved rs'⟩) (hother : other ∈ rs')
    (hhas : other.IsHas) (hgoes : GoesBack r other) : other ∈ c.inverses r := by
  refine mem_inverses.mpr ⟨schema', rs', hm, hother, Relationship.isInverse_iff.mpr
    ⟨fun hplace => ?_, by rw [hgoes.related], by rw [hgoes.related], hgoes.references⟩⟩
  -- At the same place of the same schema there would be the relationship itself.
  obtain ⟨hnumber, hposition⟩ := hplace
  rw [hgoes.owner, howner] at hnumber
  rw [show r.related.number = n from hnumber, he] at hm
  cases hm
  obtain rfl := hmakes.eq_of_position hother hr hposition
  obtain hhas | hhas := hhas <;> cases hkind.symm.trans hhas

/-- After any calls, what goes back by the references of a relationship that belongs to another is a
relationship that has it, or one of the same schema that belongs to the schema itself. Unless the
relationship forbids it there is a constraint for its keys, exactly if there is no way back or one that
has the relationship and does not forbid the constraint. -/
theorem belongsTo_constrained_iff (catalog : Catalog) (naming : Naming) (calls : List ParseCall)
    {key : SchemaKey} {n : Nat} {schema : Schema} {rs : List Relationship} {r : Relationship}
    (hn : ((empty catalog naming).parseAll calls).find? key = some n)
    (he : ((empty catalog naming).parseAll calls).get? n = some ⟨schema, .resolved rs⟩)
    (hr : r ∈ rs) (hkind : r.kind = .belongsTo) (hallowed : r.forbidsConstraint = false) :
    let c := (empty catalog naming).parseAll calls
    (∀ other ∈ c.inverses r, GoesBack r other
      ∧ (other.IsHas ∨ other.kind = .belongsTo ∧ r.related = r.owner))
    ∧ (c.Constrained r ↔ c.inverses r = []
      ∨ ∃ other ∈ c.inverses r, other.IsHas ∧ other.forbidsConstraint = false) := by
  intro c
  have hc : c.Traced := (traced_empty catalog naming).parseAll calls
  obtain ⟨_, he', -, hmakes⟩ := ((keyed_empty catalog naming).parseAll calls).schema key n hn
  cases he'.symm.trans he
  have hmakes := hmakes rs rfl
  obtain ⟨_, -, _, _, _, _, -, -, -, hrelationship⟩ := exists_of_forall₂ hmakes hr
  obtain ⟨hplain, hne⟩ := (Pairing.madeAs_of_relationship hrelationship).of_belongsTo hkind
  have hback : ∀ other ∈ c.inverses r, GoesBack r other
      ∧ (other.IsHas ∨ other.kind = .belongsTo ∧ r.related = r.owner) :=
    fun other hother => hc.goesBack he hr hkind hplain hne hother
  have hr' := hc.situated he hr
  have hself : c.HasSchema ⟨n, schema⟩ := by rw [HasSchema, he]; rfl
  -- The way back leads to the owner, so whether it has a constraint follows from its own tag.
  have hhas : ∀ other, GoesBack r other → other.IsHas →
      ((c.foreignKey? other).isSome = true ↔ other.forbidsConstraint = false) :=
    fun other hgoes => foreignKey?_isSome_of_has hself (hgoes.related.trans hr'.owner)
  have hown : (c.foreignKey? r).isSome = true ↔ c.inverses r = [] := by
    obtain ⟨related, hrelated, href⟩ := hr'.related
    rw [foreignKey?_isSome_iff hrelated href]
    exact ⟨fun h => h.2 hkind, fun hnone => ⟨hallowed, fun _ => hnone⟩⟩
  refine ⟨hback, or_congr hown ⟨?_, ?_⟩⟩
  · rintro ⟨schema', rs', other, hm, hother, hotherHas, hgoes, hconstraint⟩
    exact ⟨other, mem_inverses_of_has he hr hmakes hr'.owner hkind hm hother hotherHas hgoes,
      hotherHas, (hhas other hgoes hotherHas).mp hconstraint⟩
  · rintro ⟨other, hinverse, hotherHas, hallowed⟩
    obtain ⟨schema', rs', hm, hother, -⟩ := mem_inverses.mp hinverse
    have hgoes := (hback other hinverse).1
    exact ⟨schema', rs', other, hm, hother, hotherHas, hgoes, (hhas other hgoes hotherHas).mpr hallowed⟩

/-! ## Clerks -/

/-- Clerks have a boss, whom they also call their lead: both belong to the same clerk by one key. -/
def clerks : Catalog :=
  ⟨[ ( "Clerk",
      { name := "Clerk"
        fields :=
          [ { name := "ID", kind := .uint 64 }
          , { name := "BossID", kind := .uint 64 }
          , { name := "Boss", kind := .ptr (.record ⟨"Clerk", "Clerk"⟩), tag := "foreignKey:BossID" }
          , { name := "Lead", kind := .ptr (.record ⟨"Clerk", "Clerk"⟩)
              tag := "foreignKey:BossID" } ] } )]⟩

/-- The call for clerks. -/
def clerkCall : ParseCall := ⟨⟨"Clerk", "Clerk"⟩, none⟩

theorem clerks_relationships :
    let c := (empty clerks plainNames).parseAll [clerkCall]
    c.find? ⟨"Clerk", none⟩ = some 0
      ∧ ∃ schema boss lead, c.get? 0 = some ⟨schema, .resolved [boss, lead]⟩
        ∧ ∀ r ∈ [boss, lead], r.kind = .belongsTo ∧ r.forbidsConstraint = false
          ∧ (c.inverses r).map (·.kind) = [.belongsTo] := by
  intro c
  refine ⟨by decide +kernel, ?_⟩
  have h : (c.get? 0).map (fun e => decide (e.relationships.length = 2
      ∧ ∀ r ∈ e.relationships, r.kind = .belongsTo ∧ r.forbidsConstraint = false
        ∧ (c.inverses r).map (·.kind) = [.belongsTo])) = some true := by decide +kernel
  obtain ⟨e, he, h⟩ := Option.map_eq_some_iff.mp h
  obtain ⟨hlength, hall⟩ := of_decide_eq_true h
  obtain ⟨boss, lead, hrelationships⟩ := List.length_eq_two.mp hlength
  exact ⟨e.schema, boss, lead, he.trans (congrArg some (eq_resolved hrelationships)),
    hrelationships ▸ hall⟩

/-- Each takes the other for the way back, so there is no constraint for the key of the boss. -/
theorem belongsTo_constrained_iff_clerks :
    let c := (empty clerks plainNames).parseAll [clerkCall]
    ∃ schema boss lead, c.get? 0 = some ⟨schema, .resolved [boss, lead]⟩
      ∧ ∀ r ∈ [boss, lead], r.kind = .belongsTo ∧ r.forbidsConstraint = false ∧ ¬c.Constrained r := by
  intro c
  obtain ⟨hfound, schema, boss, lead, he, hall⟩ := clerks_relationships
  refine ⟨schema, boss, lead, he, fun r hr => ?_⟩
  obtain ⟨hkind, hallowed, hkinds⟩ := hall r hr
  obtain ⟨-, hiff⟩ := belongsTo_constrained_iff clerks plainNames [clerkCall] hfound he hr hkind hallowed
  refine ⟨hkind, hallowed, fun hconstrained => ?_⟩
  obtain hnone | ⟨other, hother, hhas, -⟩ := hiff.mp hconstrained
  · rw [hnone] at hkinds
    cases hkinds
  · have hbelongs : other.kind ∈ [RelationshipKind.belongsTo] := hkinds ▸ List.mem_map_of_mem hother
    obtain hhas | hhas := hhas <;> cases (List.mem_singleton.mp hbelongs).symm.trans hhas

end SchemaCache

end RecordSql
