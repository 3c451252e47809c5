/-
  RecordSql.Proofs.Tables.Relationships

  The relationships of a record type that is stored in two tables.  They are
  resolved from the same fields, and a table has no part in how keys are found,
  so relationship by relationship the fields of both are linked alike
  (`Relationship.SameLinks`), with one exception.  A schema that was read for a
  table of its own never counts as related to itself, and that decides about the
  direction that is tried first.  So a field that leads from a record type back
  to itself and could be linked either way (`Schema.Torn`) says that a record
  belongs to another in the type's own table, and that it has another in any
  other one.
-/

import RecordSql.Proofs.Cache.Pairings
import RecordSql.Proofs.Cache.Renaming
import RecordSql.Proofs.Tables.Layouts

namespace RecordSql

/-! ## What agrees -/

/-- The same field at the same place of a layout, whatever the number of its schema. -/
structure KeyField.Matches (k k' : KeyField) : Prop where
  field : k'.field = k.field
  position : k'.position = k.position
  embedded : k'.home.embedded = k.home.embedded

/-- A constant is the same, or each time the table of the owner. -/
def SameOrTable (table table' value value' : String) : Prop :=
  value' = value ∨ value = table ∧ value' = table'

/-- Two references of schemas with the given tables pair the same fields. -/
structure Reference.Matches (table table' : String) (ref ref' : Reference) : Prop where
  foreignKey : ref.foreignKey.Matches ref'.foreignKey
  primaryKey : Option.Rel KeyField.Matches ref.primaryKey ref'.primaryKey
  ownPrimaryKey : ref'.ownPrimaryKey = ref.ownPrimaryKey
  primaryValue : SameOrTable table table' ref.primaryValue ref'.primaryValue

/-- Two related records tell in the same fields what they belong to. -/
structure Polymorphic.Matches (table table' : String) (p p' : Polymorphic) : Prop where
  id : p.id.Matches p'.id
  typeField : p.typeField.Matches p'.typeField
  value : SameOrTable table table' p.value p'.value

namespace Relationship

/-- Two relationships are declared by the same field and lead to the same record type. -/
structure SameDeclaration (r r' : Relationship) : Prop where
  name : r'.name = r.name
  field : r'.field = r.field
  position : r'.position = r.position
  related : r'.related.name = r.related.name ∧ r'.related.table = r.related.table

/-- Two relationships are of the same kind and link the same fields, over the same join table if over
one. -/
structure SameLinks (r r' : Relationship) : Prop where
  kind : r'.kind = r.kind
  references : List.Forall₂ (Reference.Matches r.owner.table r'.owner.table)
    r.references r'.references
  joinTable : r'.joinTable.map (fun join => (join.name, join.table))
    = r.joinTable.map fun join => (join.name, join.table)
  polymorphic : Option.Rel (Polymorphic.Matches r.owner.table r'.owner.table)
    r.polymorphic r'.polymorphic

end Relationship

/-- One relationship says that a record belongs to another, and the other that it has one. -/
structure Relationship.TornApart (r r' : Relationship) : Prop where
  kind : r.kind = .belongsTo
  kind' : r'.kind = .hasOne
  references : ∀ ref ∈ r.references, ref.ownPrimaryKey = false
  references' : ∀ ref ∈ r'.references, ref.ownPrimaryKey = true

/-- The field leads from a record type back to itself, to a single record, and does not say how; keys
can be found either way. -/
structure Schema.Torn (s : Schema) (model : ModelRef) (field : Field) : Prop where
  self : field.kind.model?.map (·.id) = some model.id
  single : ∃ record, field.kind.indirect = .record record
  plain : field.settings.value? "POLYMORPHIC" = none ∧ field.settings.value? "MANY2MANY" = none
  unsaid : field.settings.value? "BELONGSTO" = none
  has : ((Pairing.ofField ⟨0, s⟩ ⟨0, s⟩ field).references? .has).isSome = true
  belongs : ((Pairing.ofField ⟨0, s⟩ ⟨0, s⟩ field).references? .belongs).isSome = true
    ∨ ((Pairing.ofField ⟨0, s⟩ ⟨0, s⟩ field).references? .embeddedBelongs).isSome = true

/-- What becomes of a relationship of a record type in another table than its own. -/
structure Relationship.Kept (s : Schema) (model : ModelRef) (r r' : Relationship) : Prop where
  declaration : r.SameDeclaration r'
  links : ¬ s.Torn model r.field → r.SameLinks r'
  torn : s.Torn model r.field → r.TornApart r'

/-! ## Numbers do not count -/

section Numbers

variable {ρ : Nat → Nat} {table table' : String}

theorem KeyField.Matches.refl (k : KeyField) : k.Matches k := ⟨rfl, rfl, rfl⟩

theorem KeyField.Matches.of_renamed {k k' : KeyField} (h : (k.renamed ρ).Matches (k'.renamed ρ)) :
    k.Matches k' := ⟨h.field, h.position, h.embedded⟩

theorem Polymorphic.Matches.of_renamed {p p' : Polymorphic}
    (h : (p.renamed ρ).Matches table table' (p'.renamed ρ)) : p.Matches table table' p' :=
  ⟨h.id.of_renamed, h.typeField.of_renamed, h.value⟩

theorem Reference.Matches.refl (ref : Reference) : ref.Matches table table' ref where
  foreignKey := .refl _
  primaryKey := by
    cases ref.primaryKey with
    | none => exact .none
    | some k => exact .some (.refl k)
  ownPrimaryKey := rfl
  primaryValue := .inl rfl

theorem Reference.Matches.of_renamed {ref ref' : Reference}
    (h : (ref.renamed ρ).Matches table table' (ref'.renamed ρ)) : ref.Matches table table' ref' where
  foreignKey := h.foreignKey.of_renamed
  primaryKey := by
    have hkey : Option.Rel KeyField.Matches (ref.primaryKey.map (·.renamed ρ))
        (ref'.primaryKey.map (·.renamed ρ)) := h.primaryKey
    generalize ref.primaryKey = k at hkey ⊢
    generalize ref'.primaryKey = k' at hkey ⊢
    cases k <;> cases k' <;> cases hkey
    · exact .none
    · next hmatches => exact .some hmatches.of_renamed
  ownPrimaryKey := h.ownPrimaryKey
  primaryValue := h.primaryValue

theorem references_match {refs refs' : List Reference}
    (h : List.Forall₂ (Reference.Matches table table') (refs.map (·.renamed ρ))
      (refs'.map (·.renamed ρ))) :
    List.Forall₂ (Reference.Matches table table') refs refs' := by
  rw [List.forall₂_map_left_iff, List.forall₂_map_right_iff] at h
  exact h.imp fun _ _ => Reference.Matches.of_renamed

theorem references_match_of_eq {refs refs' : List Reference}
    (h : refs'.map (·.renamed ρ) = refs.map (·.renamed ρ)) :
    List.Forall₂ (Reference.Matches table table') refs refs' :=
  references_match (ρ := ρ) (h ▸ List.forall₂_same.mpr fun ref _ => .refl ref)

end Numbers

/-! ## Tables do not count -/

/-- Two sides with the same fields. -/
def Side.SameFields (side side' : Side) : Prop :=
  ∃ layout', side.layout.SameFields layout' ∧ side' = { side with layout := layout' }

theorem Layout.sameFields_refl (l : Layout) : l.SameFields l := rfl

theorem Layout.SameFields.exists_eq {l l' : Layout} (h : l.SameFields l') :
    ∃ table indexes checks uniques, l' = { l with table, indexes, checks, uniques } :=
  ⟨_, _, _, _, h⟩

theorem Side.sameFields_refl (side : Side) : side.SameFields side :=
  ⟨side.layout, Layout.sameFields_refl _, rfl⟩

namespace Pairing

variable {s s' : Schema} (h : s.SameButTable s') (number : Nat) (related : NumberedSchema)
  (field : Field)

include h

theorem embeddedOwner?_sameFields :
    Option.Rel Side.SameFields (ofField ⟨number, s⟩ related field).embeddedOwner?
      (ofField ⟨number, s'⟩ related field).embeddedOwner? := by
  show Option.Rel _ (field.owner.bind _) (field.owner.bind _)
  cases field.owner with
  | none => exact .none
  | some index =>
    have hlayouts := rel_getElem? h.embedded index
    show Option.Rel _ ((s.embedded[index]?).map _) ((s'.embedded[index]?).map _)
    generalize s.embedded[index]? = layout at hlayouts ⊢
    generalize s'.embedded[index]? = layout' at hlayouts ⊢
    cases hlayouts with
    | none => exact .none
    | some hsame => exact .some ⟨_, hsame.sameFields, rfl⟩

theorem sides?_sameFields (d : Direction) :
    Option.Rel (fun sides sides' : Side × Side =>
        sides.1.SameFields sides'.1 ∧ sides.2.SameFields sides'.2)
      ((ofField ⟨number, s⟩ related field).sides? d)
      ((ofField ⟨number, s'⟩ related field).sides? d) := by
  have hown : Side.SameFields (NumberedSchema.side ⟨number, s⟩) (NumberedSchema.side ⟨number, s'⟩) :=
    ⟨s'.toLayout, h.layout.sameFields, rfl⟩
  have hembedded := embeddedOwner?_sameFields h number related field
  cases d with
  | belongs => exact .some ⟨Side.sameFields_refl _, hown⟩
  | has => exact .some ⟨hown, Side.sameFields_refl _⟩
  | embeddedBelongs =>
    rw [sides?, sides?]
    generalize (ofField ⟨number, s⟩ related field).embeddedOwner? = o at hembedded ⊢
    generalize (ofField ⟨number, s'⟩ related field).embeddedOwner? = o' at hembedded ⊢
    cases hembedded with
    | none => exact .none
    | some hsame => exact .some ⟨Side.sameFields_refl _, hsame⟩
  | embeddedHas =>
    rw [sides?, sides?]
    generalize (ofField ⟨number, s⟩ related field).embeddedOwner? = o at hembedded ⊢
    generalize (ofField ⟨number, s'⟩ related field).embeddedOwner? = o' at hembedded ⊢
    cases hembedded with
    | none => exact .none
    | some hsame => exact .some ⟨hsame, Side.sameFields_refl _⟩

/-- Keys are found in fields, columns and keys. -/
theorem references?_sameFields (d : Direction) :
    (ofField ⟨number, s'⟩ related field).references? d
      = (ofField ⟨number, s⟩ related field).references? d := by
  have hsides := sides?_sameFields h number related field d
  rw [references?, references?]
  generalize (ofField ⟨number, s⟩ related field).sides? d = sides at hsides ⊢
  generalize (ofField ⟨number, s'⟩ related field).sides? d = sides' at hsides ⊢
  cases hsides with
  | none => rfl
  | @some sides sides' hsame =>
    obtain ⟨primary, foreign⟩ := sides
    obtain ⟨primary', foreign'⟩ := sides'
    obtain ⟨⟨layout, hlayout, rfl⟩, ⟨layout', hlayout', rfl⟩⟩ := hsame
    rw [Layout.SameFields] at hlayout hlayout'
    rw [hlayout, hlayout']
    rfl

/-- So are the fields that a join table copies. -/
theorem joinTable_sameFields {next : Nat} {given : String} {table table' : JoinTable}
    (hjoin : (ofField ⟨number, s⟩ related field).joinTable next given = .ok table)
    (hjoin' : (ofField ⟨number, s'⟩ related field).joinTable next given = .ok table') :
    table'.schema = table.schema ∧ table'.references = table.references := by
  obtain ⟨keys, relatedKeys, own, others, fields, _, _, hkeys, hrelated, rfl, rfl, hfields, hlayout,
    hembedded, hrefs, -⟩ := joinTable_ok hjoin
  obtain ⟨keys', relatedKeys', own', others', fields', _, _, hkeys', hrelated', rfl, rfl, hfields',
    hlayout', hembedded', hrefs', -⟩ := joinTable_ok hjoin'
  obtain ⟨layout', embedded'⟩ := s'
  obtain ⟨_, _, _, _, hs'⟩ := h.layout.sameFields.exists_eq
  obtain rfl : layout' = _ := hs'
  -- The sides contribute the same keys, under the same names.
  obtain rfl : keys = keys' := Except.ok.inj (hkeys.symm.trans hkeys')
  obtain rfl : relatedKeys = relatedKeys' := Except.ok.inj (hrelated.symm.trans hrelated')
  obtain rfl : fields = fields' := Except.ok.inj (hfields.symm.trans hfields')
  have hschema : table'.schema = table.schema := by
    have hsame : table.schema.toLayout = table'.schema.toLayout :=
      Except.ok.inj (hlayout.symm.trans hlayout')
    calc table'.schema = ⟨table'.schema.toLayout, table'.schema.embedded⟩ := rfl
      _ = ⟨table.schema.toLayout, table.schema.embedded⟩ := by rw [hsame, hembedded, hembedded']
      _ = table.schema := rfl
  refine ⟨hschema, ?_⟩
  rw [hrefs, hrefs', hschema]
  rfl

/-- A constant that is not given is the table of the owner. -/
theorem polymorphic_sameFields {stem : String} {made made' : Polymorphic}
    {refs refs' : List Reference}
    (hmade : (ofField ⟨number, s⟩ related field).polymorphic stem = .ok (made, refs))
    (hmade' : (ofField ⟨number, s'⟩ related field).polymorphic stem = .ok (made', refs')) :
    made.Matches s.table s'.table made'
      ∧ List.Forall₂ (Reference.Matches s.table s'.table) refs refs' := by
  rw [polymorphic] at hmade hmade'
  obtain ⟨typeField, htype, hmade⟩ := exists_ok_of_bind hmade
  obtain ⟨id, hid, hmade⟩ := exists_ok_of_bind hmade
  obtain ⟨key, hkey, hmade⟩ := exists_ok_of_bind hmade
  obtain ⟨typeField', htype', hmade'⟩ := exists_ok_of_bind hmade'
  obtain ⟨id', hid', hmade'⟩ := exists_ok_of_bind hmade'
  obtain ⟨key', hkey', hmade'⟩ := exists_ok_of_bind hmade'
  cases hmade
  cases hmade'
  obtain ⟨layout', embedded'⟩ := s'
  obtain ⟨table, _, _, _, hs'⟩ := h.layout.sameFields.exists_eq
  obtain rfl : layout' = _ := hs'
  obtain rfl : typeField = typeField' := Except.ok.inj (htype.symm.trans htype')
  obtain rfl : id = id' := Except.ok.inj (hid.symm.trans hid')
  obtain rfl : key = key' := Except.ok.inj (hkey.symm.trans hkey')
  have hvalue : SameOrTable s.table table
      (((field.settings.get? "POLYMORPHICVALUE").map Text.trim).getD s.table)
      (((field.settings.get? "POLYMORPHICVALUE").map Text.trim).getD table) := by
    cases field.settings.get? "POLYMORPHICVALUE" with
    | none => exact .inr ⟨rfl, rfl⟩
    | some value => exact .inl rfl
  refine ⟨⟨.refl _, .refl _, hvalue⟩, .cons ?_ (.cons ?_ .nil)⟩
  · exact ⟨.refl _, .none, rfl, hvalue⟩
  · exact ⟨.refl _, .some (.refl _), rfl, .inl rfl⟩

end Pairing

/-! ## The direction that is tried first -/

namespace Pairing

variable {p : Pairing} {refs : List Reference}

/-- Unless the sides can be linked either way, it does not matter which way is tried first. -/
theorem found?_reordered (h : p.references? .has = none
      ∨ p.references? .belongs = none ∧ p.references? .embeddedBelongs = none) :
    p.found? (.has :: Direction.all) = p.found? (.belongs :: Direction.all) := by
  simp only [found?, Direction.all, List.findSome?_cons]
  obtain hhas | ⟨hbelongs, hembedded⟩ := h
  · rw [hhas]
    cases p.references? .belongs <;> rfl
  · rw [hbelongs, hembedded]
    cases p.references? .has <;> rfl

theorem found?_has (h : (p.references? .has).isSome = true) :
    ∃ refs, p.found? (.has :: Direction.all) = some (.has, refs) := by
  obtain ⟨refs, hrefs⟩ := Option.isSome_iff_exists.mp h
  exact ⟨refs, by rw [found?, List.findSome?_cons, hrefs]; rfl⟩

theorem found?_belongs (h : (p.references? .belongs).isSome = true
      ∨ (p.references? .embeddedBelongs).isSome = true) :
    ∃ d refs, p.found? (.belongs :: Direction.all) = some (d, refs) ∧ d.isHas = false := by
  simp only [found?, Direction.all, List.findSome?_cons]
  cases hbelongs : p.references? .belongs with
  | some refs => exact ⟨.belongs, refs, rfl, rfl⟩
  | none =>
    rw [hbelongs] at h
    obtain ⟨refs, hrefs⟩ := Option.isSome_iff_exists.mp (h.resolve_left Bool.false_ne_true)
    exact ⟨.embeddedBelongs, refs, by rw [hrefs]; rfl, rfl⟩

/-- The references that are found say which side has the keys. -/
theorem own_of_found? {ds : List Direction} {d : Direction} (h : p.found? ds = some (d, refs)) :
    ∀ ref ∈ refs, ref.ownPrimaryKey = d.isHas := by
  obtain ⟨_, _, -, -, hall⟩ := references?_ok (references_of_found? h)
  exact fun ref href => (hall ref href).2.2.2

/-- A field that does not say how is tried as a key of the related schema first if that is the owner
itself. -/
theorem directions_of_self {record : ModelRef}
    (hunsaid : p.field.settings.value? "BELONGSTO" = none)
    (hsingle : p.field.kind.indirect = .record record) (hself : p.owner.number = p.related.number) :
    p.directions = .ok (.belongs :: Direction.all) := by
  rw [directions, hunsaid, hsingle]
  dsimp only [Option.isSome_none]
  rw [if_neg Bool.false_ne_true, if_pos hself]

/-- And as a key of the owner if it is not. -/
theorem directions_of_ne {record : ModelRef}
    (hunsaid : p.field.settings.value? "BELONGSTO" = none)
    (hsingle : p.field.kind.indirect = .record record) (hne : p.owner.number ≠ p.related.number) :
    p.directions = .ok (.has :: Direction.all) := by
  rw [directions, hunsaid, hsingle]
  dsimp only [Option.isSome_none]
  rw [if_neg Bool.false_ne_true, if_neg hne]

/-- Otherwise the numbers are not asked for. -/
theorem directions_eq (p p' : Pairing) {ds ds' : List Direction} (hfield : p'.field = p.field)
    (hself : ¬ (p.field.settings.value? "BELONGSTO" = none
      ∧ (∃ record, p.field.kind.indirect = .record record) ∧ p.owner.number = p.related.number))
    (hne : p'.owner.number ≠ p'.related.number) (h : p.directions = .ok ds)
    (h' : p'.directions = .ok ds') : ds' = ds := by
  by_cases hunsaid : p.field.settings.value? "BELONGSTO" = none
  · by_cases hsingle : ∃ record, p.field.kind.indirect = .record record
    · obtain ⟨record, hrecord⟩ := hsingle
      have hother : p.owner.number ≠ p.related.number :=
        fun heq => hself ⟨hunsaid, ⟨record, hrecord⟩, heq⟩
      rw [directions_of_ne hunsaid hrecord hother] at h
      rw [directions_of_ne (hfield ▸ hunsaid) (hfield ▸ hrecord) hne] at h'
      exact Except.ok.inj (h'.symm.trans h)
    · rw [directions, hunsaid] at h
      rw [directions, hfield, hunsaid] at h'
      dsimp only [Option.isSome_none] at h h'
      rw [if_neg Bool.false_ne_true] at h h'
      split at h
      · next record hrecord => exact absurd ⟨record, hrecord⟩ hsingle
      · next item hslice =>
        rw [hslice] at h'
        exact Except.ok.inj (h'.symm.trans h)
      · next item length harray =>
        rw [harray] at h'
        exact Except.ok.inj (h'.symm.trans h)
      · cases h
  · obtain ⟨value, hvalue⟩ := Option.ne_none_iff_exists'.mp hunsaid
    rw [directions, hvalue] at h
    rw [directions, hfield, hvalue] at h'
    exact Except.ok.inj (h'.symm.trans h)

end Pairing

/-! ## One field in both tables -/

namespace Pairing

section Agreement

variable {s s' : Schema} (h : s.SameButTable s') {n m : Nat} {related related' : NumberedSchema}
  (hrelated : related'.schema = related.schema) {field : Field}

include h hrelated

omit h in
theorem ofField_renamed :
    (ofField ⟨m, s'⟩ related' field).renamed (fun _ => 0)
      = ofField ⟨0, s'⟩ (related.renamed fun _ => 0) field := by
  have hsame : related'.renamed (fun _ => 0) = related.renamed fun _ => 0 := by
    rw [NumberedSchema.renamed, NumberedSchema.renamed, hrelated]
  rw [← hsame]
  rfl

/-- In a direction the same fields are linked. -/
theorem references?_agree (d : Direction) :
    ((ofField ⟨m, s'⟩ related' field).references? d).map (List.map (·.renamed fun _ => 0))
      = ((ofField ⟨n, s⟩ related field).references? d).map
          (List.map (·.renamed fun _ => 0)) := by
  rw [← references?_renamed, ← references?_renamed, ofField_renamed hrelated, ofField_renamed rfl,
    references?_sameFields h]

theorem found?_agree {ds : List Direction} {d d' : Direction} {refs refs' : List Reference}
    (hfound : (ofField ⟨n, s⟩ related field).found? ds = some (d, refs))
    (hfound' : (ofField ⟨m, s'⟩ related' field).found? ds = some (d', refs')) :
    d' = d ∧ refs'.map (·.renamed fun _ => 0) = refs.map (·.renamed fun _ => 0) := by
  have hsame : ((ofField ⟨m, s'⟩ related' field).found? ds).map
        (Prod.map id (List.map (·.renamed fun _ => 0)))
      = ((ofField ⟨n, s⟩ related field).found? ds).map
          (Prod.map id (List.map (·.renamed fun _ => 0))) := by
    rw [found?, found?, List.map_findSome?, List.map_findSome?]
    refine congrArg (List.findSome? · ds) (funext fun d => ?_)
    have hd : ((ofField ⟨m, s'⟩ related' field).references? d).map
          (List.map (·.renamed fun _ => 0))
        = ((ofField ⟨n, s⟩ related field).references? d).map (List.map (·.renamed fun _ => 0)) :=
      references?_agree h hrelated d
    have hpair := congrArg (Option.map (Prod.mk d)) hd
    rw [Option.map_map, Option.map_map] at hpair
    rw [Function.comp_apply, Function.comp_apply, Option.map_map, Option.map_map]
    exact hpair
  rw [hfound, hfound'] at hsame
  obtain ⟨hd, hrefs⟩ := Prod.mk.inj (Option.some.inj hsame)
  exact ⟨hd, hrefs⟩

/-- Unless the owner is related to itself and can be linked either way, the same is guessed. -/
theorem guess_agree (hne : m ≠ related'.number)
    (htorn : ¬ (field.settings.value? "BELONGSTO" = none
      ∧ (∃ record, field.kind.indirect = .record record) ∧ n = related.number
      ∧ ((ofField ⟨n, s⟩ related field).references? .has).isSome = true
      ∧ (((ofField ⟨n, s⟩ related field).references? .belongs).isSome = true
        ∨ ((ofField ⟨n, s⟩ related field).references? .embeddedBelongs).isSome = true)))
    {kind kind' : RelationshipKind} {refs refs' : List Reference}
    (hguess : (ofField ⟨n, s⟩ related field).guess = .ok (kind, refs))
    (hguess' : (ofField ⟨m, s'⟩ related' field).guess = .ok (kind', refs')) :
    kind' = kind ∧ refs'.map (·.renamed fun _ => 0) = refs.map (·.renamed fun _ => 0) := by
  obtain ⟨ds, d, hds, hfound, hkind⟩ := found_of_guess hguess
  obtain ⟨ds', d', hds', hfound', hkind'⟩ := found_of_guess hguess'
  have hagree : (ofField ⟨n, s⟩ related field).found? ds'
      = (ofField ⟨n, s⟩ related field).found? ds := by
    by_cases hself : field.settings.value? "BELONGSTO" = none
        ∧ (∃ record, field.kind.indirect = .record record) ∧ n = related.number
    · obtain ⟨hunsaid, ⟨record, hrecord⟩, hnumber⟩ := hself
      have hown := directions_of_self (p := ofField ⟨n, s⟩ related field) hunsaid hrecord hnumber
      have hother := directions_of_ne (p := ofField ⟨m, s'⟩ related' field) hunsaid hrecord hne
      obtain rfl := Except.ok.inj (hds.symm.trans hown)
      obtain rfl := Except.ok.inj (hds'.symm.trans hother)
      refine found?_reordered ?_
      by_contra hboth
      rw [not_or, not_and_or] at hboth
      refine htorn ⟨hunsaid, ⟨record, hrecord⟩, hnumber, Option.isSome_iff_ne_none.mpr hboth.1, ?_⟩
      rw [Option.isSome_iff_ne_none, Option.isSome_iff_ne_none]
      exact hboth.2
    · rw [directions_eq (ofField ⟨n, s⟩ related field) (ofField ⟨m, s'⟩ related' field) rfl hself hne
        hds hds']
  obtain ⟨rfl, hrefs⟩ := found?_agree h hrelated (hagree.trans hfound) hfound'
  exact ⟨hkind'.trans hkind.symm, hrefs⟩

/-- If it is and can, one relationship belongs and the other has. -/
theorem guess_torn (hne : m ≠ related'.number)
    (hunsaid : field.settings.value? "BELONGSTO" = none)
    (hsingle : ∃ record, field.kind.indirect = .record record) (hnumber : n = related.number)
    (hhas : ((ofField ⟨n, s⟩ related field).references? .has).isSome = true)
    (hbelongs : ((ofField ⟨n, s⟩ related field).references? .belongs).isSome = true
      ∨ ((ofField ⟨n, s⟩ related field).references? .embeddedBelongs).isSome = true)
    {kind kind' : RelationshipKind} {refs refs' : List Reference}
    (hguess : (ofField ⟨n, s⟩ related field).guess = .ok (kind, refs))
    (hguess' : (ofField ⟨m, s'⟩ related' field).guess = .ok (kind', refs')) :
    kind = .belongsTo ∧ kind' = .hasOne ∧ (∀ ref ∈ refs, ref.ownPrimaryKey = false)
      ∧ ∀ ref ∈ refs', ref.ownPrimaryKey = true := by
  obtain ⟨record, hrecord⟩ := hsingle
  obtain ⟨ds, d, hds, hfound, hkind⟩ := found_of_guess hguess
  obtain ⟨ds', d', hds', hfound', hkind'⟩ := found_of_guess hguess'
  have hown := directions_of_self (p := ofField ⟨n, s⟩ related field) hunsaid hrecord hnumber
  have hother := directions_of_ne (p := ofField ⟨m, s'⟩ related' field) hunsaid hrecord hne
  obtain rfl := Except.ok.inj (hds.symm.trans hown)
  obtain rfl := Except.ok.inj (hds'.symm.trans hother)
  have hhas' : ((ofField ⟨m, s'⟩ related' field).references? .has).isSome = true := by
    have hsame : ((ofField ⟨m, s'⟩ related' field).references? .has).map
          (List.map (·.renamed fun _ => 0))
        = ((ofField ⟨n, s⟩ related field).references? .has).map (List.map (·.renamed fun _ => 0)) :=
      references?_agree h hrelated .has
    have hsome := congrArg Option.isSome hsame
    rw [Option.isSome_map, Option.isSome_map] at hsome
    rw [hsome, hhas]
  obtain ⟨d₁, refs₁, hfirst, hbelong⟩ := found?_belongs hbelongs
  obtain ⟨refs₂, hsecond⟩ := found?_has hhas'
  obtain ⟨rfl, rfl⟩ := Prod.mk.inj (Option.some.inj (hfound.symm.trans hfirst))
  obtain ⟨rfl, rfl⟩ := Prod.mk.inj (Option.some.inj (hfound'.symm.trans hsecond))
  have hone : (ofField ⟨m, s'⟩ related' field).hasKind = .hasOne := by
    show (if field.kind.isSequence then RelationshipKind.hasMany else .hasOne) = .hasOne
    rw [Kind.isSequence, hrecord]
    rfl
  rw [hbelong] at hkind
  refine ⟨hkind, hkind'.trans hone, fun ref href => ?_, own_of_found? hsecond⟩
  rw [own_of_found? hfirst ref href, hbelong]

/-- Whatever the field says about how it is linked, it says the same of both tables, as long as a
guess comes out the same. -/
theorem sameLinks_of_relationship {position next next' : Nat} {r r' : Relationship}
    {join join' : Option JoinTable}
    (hr : (ofField ⟨n, s⟩ related field).relationship position next = .ok (r, join))
    (hr' : (ofField ⟨m, s'⟩ related' field).relationship position next' = .ok (r', join'))
    (hguess : ∀ kind refs kind' refs', field.settings.value? "POLYMORPHIC" = none →
      field.settings.value? "MANY2MANY" = none →
      (ofField ⟨n, s⟩ related field).guess = .ok (kind, refs) →
      (ofField ⟨m, s'⟩ related' field).guess = .ok (kind', refs') →
      kind' = kind ∧ refs'.map (·.renamed fun _ => 0) = refs.map (·.renamed fun _ => 0)) :
    r.SameLinks r' := by
  rw [relationship] at hr hr'
  have hfield : (ofField ⟨n, s⟩ related field).field = field := rfl
  have hfield' : (ofField ⟨m, s'⟩ related' field).field = field := rfl
  rw [hfield] at hr
  rw [hfield'] at hr'
  cases hpolymorphic : field.settings.value? "POLYMORPHIC" with
  | some stem =>
    rw [hpolymorphic] at hr hr'
    obtain ⟨⟨made, refs⟩, hmade, hr⟩ := exists_ok_of_bind hr
    obtain ⟨⟨made', refs'⟩, hmade', hr'⟩ := exists_ok_of_bind hr'
    cases hr
    cases hr'
    have hrenamed := polymorphic_renamed (ρ := fun _ => 0) (ofField ⟨n, s⟩ related field) stem
    have hrenamed' := polymorphic_renamed (ρ := fun _ => 0) (ofField ⟨m, s'⟩ related' field) stem
    rw [hmade, ofField_renamed rfl] at hrenamed
    rw [hmade', ofField_renamed hrelated] at hrenamed'
    obtain ⟨hmatches, hrefs⟩ := polymorphic_sameFields h 0 (related.renamed fun _ => 0) field
      hrenamed hrenamed'
    exact ⟨rfl, references_match hrefs, rfl, .some hmatches.of_renamed⟩
  | none =>
    rw [hpolymorphic] at hr hr'
    cases hgiven : field.settings.value? "MANY2MANY" with
    | some given =>
      rw [hgiven] at hr hr'
      obtain ⟨table, htable, hr⟩ := exists_ok_of_bind hr
      obtain ⟨table', htable', hr'⟩ := exists_ok_of_bind hr'
      cases hr
      cases hr'
      have hrenamed := joinTable_renamed (ρ := fun _ => 0) (ofField ⟨n, s⟩ related field) next given
      have hrenamed' := joinTable_renamed (ρ := fun _ => 0) (ofField ⟨m, s'⟩ related' field) next'
        given
      rw [htable, ofField_renamed rfl] at hrenamed
      rw [htable', ofField_renamed hrelated] at hrenamed'
      obtain ⟨hschema, hrefs⟩ := joinTable_sameFields h 0 (related.renamed fun _ => 0) field
        hrenamed hrenamed'
      have hschema : table'.schema = table.schema := hschema
      have hrefs : table'.references.map (·.renamed fun _ => 0)
          = table.references.map (·.renamed fun _ => 0) := hrefs
      refine ⟨rfl, references_match_of_eq hrefs, ?_, .none⟩
      show some (table'.schema.name, table'.schema.table) = some (table.schema.name, table.schema.table)
      rw [hschema]
    | none =>
      rw [hgiven] at hr hr'
      obtain ⟨⟨kind, refs⟩, hmade, hr⟩ := exists_ok_of_bind hr
      obtain ⟨⟨kind', refs'⟩, hmade', hr'⟩ := exists_ok_of_bind hr'
      cases hr
      cases hr'
      obtain ⟨rfl, hrefs⟩ := hguess _ _ _ _ hpolymorphic hgiven hmade hmade'
      exact ⟨rfl, references_match_of_eq hrefs, rfl, .none⟩

end Agreement

end Pairing

/-- What a field makes of a record type that is read for its own table and for another one. -/
theorem SchemaKey.makes_kept {catalog : Catalog} {ns : Naming} {model : ModelRef} {table : String}
    {s s' : Schema} {n m : Nat} {entry : Field × Nat} {r r' : Relationship}
    (hs : Schema.parse catalog ns model none = .ok s)
    (hs' : Schema.parse catalog ns model (some table) = .ok s')
    (h : SchemaKey.Makes ⟨model.id, none⟩ catalog ns ⟨n, s⟩ entry r)
    (h' : SchemaKey.Makes ⟨model.id, some table⟩ catalog ns ⟨m, s'⟩ entry r') :
    Relationship.Kept s model r r' := by
  obtain ⟨field, position⟩ := entry
  obtain ⟨leads, related, next, join, hmodel, hrelated, hnumber, hr⟩ := h
  obtain ⟨leads', related', next', join', hmodel', hrelated', hnumber', hr'⟩ := h'
  obtain rfl : leads = leads' := Option.some.inj (hmodel.symm.trans hmodel')
  have hschema : related'.schema = related.schema := Except.ok.inj (hrelated'.symm.trans hrelated)
  have hsame : s.SameButTable s' := Schema.parse_sameButTable hs hs'
  have hne : m ≠ related'.number :=
    fun heq => nomatch (SchemaKey.mk.inj (hnumber'.mp heq.symm)).2
  obtain ⟨hname, hfield, hposition, href⟩ := Pairing.relationship_declared hr
  obtain ⟨hname', hfield', hposition', href'⟩ := Pairing.relationship_declared hr'
  have hdeclared : r.SameDeclaration r' :=
    ⟨hname'.trans hname.symm, hfield'.trans hfield.symm, hposition'.trans hposition.symm, by
      rw [href, href']
      exact ⟨congrArg (·.name) hschema, congrArg (·.table) hschema⟩⟩
  -- The field leads back to its own record type if the numbers are the same.
  have hself : n = related.number ↔ field.kind.model?.map (·.id) = some model.id := by
    rw [eq_comm, hnumber, show field.kind.model? = some leads from hmodel]
    simp [eq_comm]
  have hlinked : n = related.number → ∀ d, ((Pairing.ofField ⟨n, s⟩ related field).references? d).isSome
      = ((Pairing.ofField ⟨0, s⟩ ⟨0, s⟩ field).references? d).isSome := by
    intro heq d
    have hid : leads.id = model.id := by
      have hmap := hself.mp heq
      rw [show field.kind.model? = some leads from hmodel] at hmap
      exact Option.some.inj hmap
    have hparse : Schema.parse catalog ns leads none = Schema.parse catalog ns model none := by
      rw [Schema.parse, Schema.parse, Catalog.describe, Catalog.describe, hid]
    have hs₁ : related.schema = s := Except.ok.inj (hrelated.symm.trans (hparse.trans hs))
    have hsame := congrArg Option.isSome (Pairing.references?_renamed (ρ := fun _ => 0)
      (Pairing.ofField ⟨n, s⟩ related field) d)
    rw [Pairing.ofField_renamed rfl, Option.isSome_map, NumberedSchema.renamed, hs₁] at hsame
    exact hsame.symm
  obtain rfl : r.field = field := hfield
  refine ⟨hdeclared, fun htorn => ?_, fun htorn => ?_⟩
  · refine Pairing.sameLinks_of_relationship hsame hschema hr hr'
      fun kind refs kind' refs' hpolymorphic hgiven hg hg' =>
        Pairing.guess_agree hsame hschema hne ?_ hg hg'
    rintro ⟨hunsaid, hsingle, hnumber, hhas, hbelongs⟩
    rw [hlinked hnumber] at hhas
    rw [hlinked hnumber, hlinked hnumber] at hbelongs
    exact htorn ⟨hself.mp hnumber, hsingle, ⟨hpolymorphic, hgiven⟩, hunsaid, hhas, hbelongs⟩
  · have hnumber := hself.mpr htorn.self
    have hguess := Pairing.relationship_plain htorn.plain hr
    have hguess' := Pairing.relationship_plain htorn.plain hr'
    have hhas := htorn.has
    have hbelongs := htorn.belongs
    rw [← hlinked hnumber] at hhas
    rw [← hlinked hnumber, ← hlinked hnumber] at hbelongs
    obtain ⟨hkind, hkind', hrefs, hrefs'⟩ := Pairing.guess_torn hsame hschema hne htorn.unsaid
      htorn.single hnumber hhas hbelongs hguess hguess'
    exact ⟨hkind, hkind', hrefs, hrefs'⟩

end RecordSql
