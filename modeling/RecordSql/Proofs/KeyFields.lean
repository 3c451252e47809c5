/-
  RecordSql.Proofs.KeyFields

  Where the fields of a relationship live.  A reference is written with two
  columns at most: the foreign key, in the table of whoever holds it, and the
  key, in the table of whose key it is (`Relationship.uses`).  Whichever way the
  fields were found, by their names, by the tag or by a join table, each is a
  field of the schema in whose table it is written, or of a record that the
  schema embeds (`Relationship.Placed.owns`).
-/

import RecordSql.Schema.Resolution
import RecordSql.Proofs.Columns

namespace RecordSql

/-! ## The fields of a side -/

/-- The field stands at its position in the side. -/
def Side.Has (s : Side) (k : KeyField) : Prop :=
  k.home = s.home ∧ s.layout.field? k.position = some k.field

namespace Side

variable {s : Side} {k : KeyField} {position : Nat} {name : String}

theorem has_of_key? (h : s.key? position = some k) : s.Has k := by
  obtain ⟨field, hfield, rfl⟩ := Option.map_eq_some_iff.mp h
  exact ⟨rfl, hfield⟩

theorem has_of_lookup (h : s.lookup name = some k) : s.Has k := by
  obtain ⟨position, -, hkey⟩ := Option.bind_eq_some_iff.mp h
  exact has_of_key? hkey

theorem has_of_byName (h : s.byName name = some k) : s.Has k := by
  obtain ⟨position, -, hkey⟩ := Option.bind_eq_some_iff.mp h
  exact has_of_key? hkey

theorem has_of_primary (h : k ∈ s.primary) : s.Has k := by
  obtain ⟨position, -, hkey⟩ := List.mem_filterMap.mp h
  exact has_of_key? hkey

theorem has_of_prioritized (h : s.prioritized = some k) : s.Has k := by
  obtain ⟨position, -, hkey⟩ := Option.bind_eq_some_iff.mp h
  exact has_of_key? hkey

end Side

/-- The field is one of the schema, or of a record that the schema embeds. -/
def NumberedSchema.Owns (s : NumberedSchema) (k : KeyField) : Prop :=
  s.side.Has k ∨ ∃ index side, s.embeddedSide? index = some side ∧ side.Has k

/-- The tag of the field does not say how the two sides are linked. -/
def Field.IsPlain (field : Field) : Prop :=
  field.settings.value? "POLYMORPHIC" = none ∧ field.settings.value? "MANY2MANY" = none

instance (field : Field) : Decidable field.IsPlain := inferInstanceAs (Decidable (_ ∧ _))

/-! ## Lists of fields -/

theorem exists_of_mem_mapM_option {α β : Type} {f : α → Option β} {l : List α} {bs : List β}
    (h : l.mapM f = some bs) {b : β} (hb : b ∈ bs) : ∃ a ∈ l, f a = some b := by
  induction l generalizing bs with
  | nil =>
    cases h
    exact absurd hb List.not_mem_nil
  | cons a l ih =>
    rw [List.mapM_cons] at h
    obtain ⟨b', hb', h⟩ := Option.bind_eq_some_iff.mp h
    obtain ⟨bs', hbs', h⟩ := Option.bind_eq_some_iff.mp h
    cases h
    obtain rfl | hb := List.mem_cons.mp hb
    · exact ⟨a, List.mem_cons_self .., hb'⟩
    · obtain ⟨a', ha', hfa'⟩ := ih hbs' hb
      exact ⟨a', List.mem_cons_of_mem a ha', hfa'⟩

namespace Pairing

variable {p : Pairing}

/-! ## Keys that are found by their names -/

theorem namedPairs_has {d : Direction} {primary foreign : Side} {pair : KeyField × KeyField}
    (h : pair ∈ p.namedPairs d primary foreign) : primary.Has pair.1 ∧ foreign.Has pair.2 := by
  obtain ⟨candidate, hcandidate, hpair⟩ := List.mem_filterMap.mp h
  obtain ⟨key, hkey, rfl⟩ := Option.map_eq_some_iff.mp hpair
  obtain ⟨name, -, hname⟩ := List.exists_of_findSome?_eq_some hkey
  refine ⟨?_, Side.has_of_lookup hname⟩
  split at hcandidate
  · exact Side.has_of_primary hcandidate
  · obtain ⟨named, -, hnamed⟩ := List.mem_filterMap.mp hcandidate
    exact Side.has_of_lookup hnamed

theorem completed?_has {side : Side} {known keys : List KeyField} {count : Nat}
    (h : p.completed? side known count = some keys) (hknown : ∀ k ∈ known, side.Has k) :
    ∀ k ∈ keys, side.Has k := by
  unfold completed? at h
  split at h
  · obtain ⟨named, hnamed, h⟩ := Option.bind_eq_some_iff.mp h
    split at h
    · cases h
      intro k hk
      obtain hk | hk := List.mem_append.mp hk
      · exact hknown k hk
      · obtain ⟨name, -, hname⟩ := exists_of_mem_mapM_option hnamed (List.mem_of_mem_drop hk)
        exact Side.has_of_lookup hname
    · cases h
  · split at h
    · have hwhole : (if side.primary.length == count then some side.primary else none) = some keys →
          ∀ k ∈ keys, side.Has k := by
        intro h
        split at h
        · cases h
          exact fun k hk => Side.has_of_primary hk
        · cases h
      cases hkey : side.prioritized with
      | none =>
        rw [hkey] at h
        exact hwhole h
      | some key =>
        rw [hkey] at h
        match count with
        | 0 => exact hwhole h
        | 1 =>
          cases h
          exact List.forall_mem_singleton.mpr (Side.has_of_prioritized hkey)
        | _ + 2 => exact hwhole h
    · cases h
      exact hknown

/-- Foreign keys are paired with the keys there are for them, if these are as many. -/
theorem zipped_eq {primary : Side} {isOwn : Bool} {known found : List KeyField}
    {refs : List Reference}
    (h : (if found.isEmpty then none
      else do
        let keys ← p.completed? primary known found.length
        if keys.length < found.length then none
        else some ((found.zip keys).map fun pair =>
          ({ primaryKey := some pair.2, foreignKey := pair.1, ownPrimaryKey := isOwn } : Reference)))
      = some refs) :
    ∃ keys, found ≠ [] ∧ p.completed? primary known found.length = some keys
      ∧ found.length ≤ keys.length
      ∧ refs = (found.zip keys).map fun pair =>
          { primaryKey := some pair.2, foreignKey := pair.1, ownPrimaryKey := isOwn } := by
  split at h
  · cases h
  · next hne =>
    obtain ⟨keys, hkeys, h⟩ := Option.bind_eq_some_iff.mp h
    split at h
    · cases h
    · next hlength =>
      cases h
      exact ⟨keys, fun hempty => hne (List.isEmpty_iff.mpr hempty), hkeys, Nat.not_lt.mp hlength,
        rfl⟩

/-- Foreign keys with as many keys as there are for them. -/
theorem zipped_ok {primary foreign : Side} {isOwn : Bool} {known found : List KeyField}
    {refs : List Reference} (hknown : ∀ k ∈ known, primary.Has k)
    (hfound : ∀ k ∈ found, foreign.Has k)
    (h : (if found.isEmpty then none
      else do
        let keys ← p.completed? primary known found.length
        if keys.length < found.length then none
        else some ((found.zip keys).map fun pair =>
          ({ primaryKey := some pair.2, foreignKey := pair.1, ownPrimaryKey := isOwn } : Reference)))
      = some refs) :
    refs ≠ [] ∧ ∀ ref ∈ refs, foreign.Has ref.foreignKey
      ∧ (∃ k, ref.primaryKey = some k ∧ primary.Has k)
      ∧ ref.primaryValue = "" ∧ ref.ownPrimaryKey = isOwn := by
  obtain ⟨keys, hne, hkeys, hlength, rfl⟩ := zipped_eq h
  constructor
  · -- There are some foreign keys, and as many primary keys.
    have hpos := List.length_pos_iff.mpr hne
    refine List.ne_nil_of_length_pos ?_
    rw [List.length_map, List.length_zip, Nat.min_eq_left hlength]
    exact hpos
  · refine List.forall_mem_map.mpr fun ⟨f, k⟩ hpair => ?_
    obtain ⟨hf, hk⟩ := List.of_mem_zip hpair
    exact ⟨hfound f hf, ⟨k, rfl, completed?_has hkeys hknown k hk⟩, rfl, rfl⟩

/-- References that are found by names pair a field of either side. -/
theorem references?_ok {d : Direction} {refs : List Reference} (h : p.references? d = some refs) :
    ∃ primarySide foreignSide, p.sides? d = some (primarySide, foreignSide) ∧ refs ≠ []
      ∧ ∀ ref ∈ refs, foreignSide.Has ref.foreignKey
        ∧ (∃ k, ref.primaryKey = some k ∧ primarySide.Has k)
        ∧ ref.primaryValue = "" ∧ ref.ownPrimaryKey = d.isHas := by
  rw [references?] at h
  obtain ⟨⟨primarySide, foreignSide⟩, hsides, h⟩ := Option.bind_eq_some_iff.mp h
  refine ⟨primarySide, foreignSide, hsides, ?_⟩
  dsimp only at h
  split at h
  · refine zipped_ok (fun k hk => ?_) (fun k hk => ?_) h
    · rw [List.unzip_fst] at hk
      obtain ⟨pair, hpair, rfl⟩ := List.mem_map.mp hk
      exact (namedPairs_has hpair).1
    · rw [List.unzip_snd] at hk
      obtain ⟨pair, hpair, rfl⟩ := List.mem_map.mp hk
      exact (namedPairs_has hpair).2
  · obtain ⟨⟨known, foreign⟩, hkeys, h⟩ := Option.bind_eq_some_iff.mp h
    obtain ⟨keys, hkeys, heq⟩ := Option.map_eq_some_iff.mp hkeys
    cases heq
    refine zipped_ok (List.forall_mem_nil _) (fun k hk => ?_) h
    obtain ⟨name, -, hname⟩ := exists_of_mem_mapM_option hkeys hk
    exact Side.has_of_lookup hname

/-- The first of the given directions in which the sides can be linked. -/
def found? (p : Pairing) (ds : List Direction) : Option (Direction × List Reference) :=
  ds.findSome? fun d => (p.references? d).map fun refs => (d, refs)

theorem references_of_found? {ds : List Direction} {d : Direction} {refs : List Reference}
    (h : p.found? ds = some (d, refs)) : p.references? d = some refs := by
  obtain ⟨d', -, hd⟩ := List.exists_of_findSome?_eq_some h
  obtain ⟨refs', hrefs, heq⟩ := Option.map_eq_some_iff.mp hd
  cases heq
  exact hrefs

/-- A guess takes the first direction in which the sides can be linked. -/
theorem found_of_guess {kind : RelationshipKind} {refs : List Reference}
    (h : p.guess = .ok (kind, refs)) :
    ∃ ds d, p.directions = .ok ds ∧ p.found? ds = some (d, refs)
      ∧ kind = if d.isHas then p.hasKind else .belongsTo := by
  rw [guess] at h
  obtain ⟨ds, hds, h⟩ := exists_ok_of_bind h
  dsimp only at h
  split at h
  · next d references hfound =>
    cases h
    exact ⟨ds, d, hds, hfound, rfl⟩
  · cases h

theorem guess_ok {kind : RelationshipKind} {refs : List Reference}
    (h : p.guess = .ok (kind, refs)) : ∃ d, p.references? d = some refs := by
  obtain ⟨ds, d, -, hfound, -⟩ := found_of_guess h
  exact ⟨d, references_of_found? hfound⟩

/-! ## Keys that a join table copies -/

/-- The fields of a join table by which it can be joined. -/
def copies (join : NumberedSchema) : List KeyField :=
  ((List.range join.schema.fields.length).filterMap join.side.key?).filter (·.field.hasPermission)

/-- The reference that a copy makes with the key of a side, if it is named for one. -/
def paired (fields : List JoinField) (isOwn : Bool) (copy : KeyField) : List Reference :=
  (sourceOf fields copy.field.name).toList.map fun source =>
    { primaryKey := some source, foreignKey := copy, ownPrimaryKey := isOwn }

/-- How a join table is made. -/
theorem joinTable_ok {number : Nat} {given : String} {table : JoinTable}
    (h : p.joinTable number given = .ok table) :
    ∃ ownKeys relatedKeys own related fields ownName relatedName,
      p.contributed p.owner.side p.foreignKeys = .ok ownKeys
      ∧ p.contributed p.related.side p.primaryKeys = .ok relatedKeys
      ∧ own = p.ownJoinFields ownKeys ∧ related = p.relatedJoinFields own relatedKeys
      ∧ (joinFields own related).mapM (JoinField.declared given) = .ok fields
      ∧ Layout.assemble given (p.related.schema.naming.joinTableName given) fields
          p.related.schema.naming = .ok table.schema.toLayout
      ∧ table.schema.embedded = []
      ∧ table.references = (copies ⟨number, table.schema⟩).flatMap
          (fun copy => paired own true copy ++ paired related false copy)
      ∧ table.links = [
          p.link (NumberedSchema.mk number table.schema).ref 0 ownName p.owner.ref
            ((copies ⟨number, table.schema⟩).flatMap (paired own false)),
          p.link (NumberedSchema.mk number table.schema).ref 1 relatedName p.related.ref
            ((copies ⟨number, table.schema⟩).flatMap (paired related false))] := by
  rw [joinTable] at h
  cases hown : p.contributed p.owner.side p.foreignKeys with
  | error e => rw [hown] at h; cases h
  | ok ownKeys =>
    cases hrelated : p.contributed p.related.side p.primaryKeys with
    | error e => rw [hown, hrelated] at h; cases h
    | ok relatedKeys =>
      rw [hown, hrelated] at h
      dsimp only [bind, Except.bind] at h
      split at h
      · cases h
      · next fields hfields =>
        split at h
        · cases h
        · next layout hlayout =>
          cases h
          exact ⟨ownKeys, relatedKeys, _, _, fields, _, _, rfl, rfl, rfl, rfl, hfields, hlayout, rfl,
            rfl, rfl⟩

theorem contributed_has {side : Side} {names : List String} {keys : List KeyField}
    (h : p.contributed side names = .ok keys) : ∀ k ∈ keys, side.Has k := by
  rw [contributed] at h
  split at h
  · cases h
    exact fun k hk => Side.has_of_primary hk
  · intro k hk
    obtain ⟨name, -, hname⟩ := exists_of_mem_mapM_except h hk
    split at hname
    · next hlookup =>
      cases hname
      exact Side.has_of_lookup hlookup
    · cases hname

theorem exists_of_sourceOf {fields : List JoinField} {name : String} {k : KeyField}
    (h : sourceOf fields name = some k) : ∃ j ∈ fields, j.name = name ∧ j.source = k := by
  obtain ⟨j, hj, rfl⟩ := Option.map_eq_some_iff.mp h
  exact ⟨j, List.mem_of_find?_eq_some hj, by simpa using List.find?_some hj, rfl⟩

/-- The key of a side that a copy is paired with is one that the side contributes. -/
theorem paired_has {side : Side} {fields : List JoinField} {isOwn : Bool} {copy : KeyField}
    (hfields : ∀ j ∈ fields, side.Has j.source) {ref : Reference}
    (h : ref ∈ paired fields isOwn copy) :
    ref.foreignKey = copy ∧ (∃ k, ref.primaryKey = some k ∧ side.Has k)
      ∧ ref.primaryValue = "" ∧ ref.ownPrimaryKey = isOwn := by
  obtain ⟨source, hsource, rfl⟩ := List.mem_map.mp h
  obtain ⟨j, hj, -, rfl⟩ := exists_of_sourceOf (Option.mem_toList.mp hsource)
  exact ⟨rfl, ⟨j.source, rfl, hfields j hj⟩, rfl, rfl⟩

theorem copies_has {join : NumberedSchema} {copy : KeyField} (h : copy ∈ copies join) :
    join.side.Has copy := by
  obtain ⟨position, -, hposition⟩ := List.mem_filterMap.mp (List.mem_filter.mp h).1
  exact Side.has_of_key? hposition

theorem ownJoinFields_source (keys : List KeyField) :
    (p.ownJoinFields keys).map (·.source) = keys := by
  rw [ownJoinFields, List.map_map]
  exact List.zipIdx_map_fst 0 keys

theorem relatedJoinFields_source (own : List JoinField) (keys : List KeyField) :
    (p.relatedJoinFields own keys).map (·.source) = keys := by
  rw [relatedJoinFields, List.map_map]
  exact List.zipIdx_map_fst 0 keys

theorem ownJoinFields_has {keys : List KeyField} {own : List JoinField}
    (hkeys : p.contributed p.owner.side p.foreignKeys = .ok keys)
    (hown : own = p.ownJoinFields keys) : ∀ j ∈ own, p.owner.side.Has j.source := by
  intro j hj
  refine contributed_has hkeys _ ?_
  rw [← ownJoinFields_source (p := p) keys, ← hown]
  exact List.mem_map_of_mem hj

theorem relatedJoinFields_has {keys : List KeyField} {own related : List JoinField}
    (hkeys : p.contributed p.related.side p.primaryKeys = .ok keys)
    (hrelated : related = p.relatedJoinFields own keys) :
    ∀ j ∈ related, p.related.side.Has j.source := by
  intro j hj
  refine contributed_has hkeys _ ?_
  rw [← relatedJoinFields_source (p := p) own keys, ← hrelated]
  exact List.mem_map_of_mem hj

/-- A join table has a relationship to either side, by the copies of its keys. -/
theorem exists_side_of_link {number : Nat} {given : String} {table : JoinTable}
    (h : p.joinTable number given = .ok table) {link : Relationship} (hlink : link ∈ table.links) :
    ∃ (s : NumberedSchema) (fields : List JoinField) (position : Nat) (name : String),
      (s = p.owner ∨ s = p.related) ∧ (∀ j ∈ fields, s.side.Has j.source)
      ∧ link = p.link (NumberedSchema.mk number table.schema).ref position name s.ref
          ((copies ⟨number, table.schema⟩).flatMap (paired fields false)) := by
  obtain ⟨ownKeys, relatedKeys, own, related, -, ownName, relatedName, hownKeys, hrelatedKeys, hown,
    hrelated, -, -, -, -, hlinks⟩ := joinTable_ok h
  rw [hlinks] at hlink
  obtain rfl | hlink := List.mem_cons.mp hlink
  · exact ⟨p.owner, own, 0, ownName, .inl rfl, ownJoinFields_has hownKeys hown, rfl⟩
  · obtain rfl := List.mem_singleton.mp hlink
    exact ⟨p.related, related, 1, relatedName, .inr rfl,
      relatedJoinFields_has hrelatedKeys hrelated, rfl⟩

end Pairing

/-! ## Where the fields are written -/

/-- The references by which related records tell what they belong to: the type field has the constant,
and the other one holds the key. -/
def Polymorphic.references (made : Polymorphic) (key : KeyField) : List Reference :=
  [{ primaryKey := none, primaryValue := made.value, foreignKey := made.typeField,
     ownPrimaryKey := false },
   { primaryKey := some key, foreignKey := made.id, ownPrimaryKey := true }]

namespace Relationship

/-- Whoever holds the foreign key of a reference: the join table, or one of the sides. -/
def holder (r : Relationship) (ref : Reference) : SchemaRef :=
  match r.joinTable with
  | some join => join
  | none =>
    if ref.ownPrimaryKey || ref.primaryKey.isNone || !ref.primaryValue.isEmpty then r.related
    else r.owner

/-- Whose key it is. -/
def keyOwner (r : Relationship) (ref : Reference) : SchemaRef :=
  if ref.ownPrimaryKey then r.owner else r.related

/-- The fields of the references, each with the schema in whose table it is written. -/
def uses (r : Relationship) : List (SchemaRef × KeyField) :=
  r.references.flatMap fun ref =>
    (r.holder ref, ref.foreignKey) :: ref.primaryKey.toList.map fun key => (r.keyOwner ref, key)

variable {r : Relationship} {use : SchemaRef × KeyField}

theorem mem_uses : use ∈ r.uses ↔ ∃ ref ∈ r.references, use = (r.holder ref, ref.foreignKey)
    ∨ ∃ key, ref.primaryKey = some key ∧ use = (r.keyOwner ref, key) := by
  rw [uses, List.mem_flatMap]
  refine exists_congr fun ref => and_congr_right fun _ => ?_
  rw [List.mem_cons, List.mem_map]
  refine or_congr_right (exists_congr fun key => ?_)
  rw [Option.mem_toList, eq_comm (b := use)]

/-- Every field is one of the schema in whose table it is written, and unless there is a join table,
one side has all the keys. -/
structure Placed (r : Relationship) (schemas : List NumberedSchema) : Prop where
  foreign : ∀ ref ∈ r.references, ∃ s ∈ schemas, r.holder ref = s.ref ∧ s.Owns ref.foreignKey
  key : ∀ ref ∈ r.references, ∀ k, ref.primaryKey = some k →
    ref.primaryValue = "" ∧ ∃ s ∈ schemas, r.keyOwner ref = s.ref ∧ s.Owns k
  oneSided : r.joinTable = none →
    ∃ isOwn, ∀ ref ∈ r.references, ref.primaryKey.isSome = true → ref.ownPrimaryKey = isOwn

theorem Placed.owns {schemas : List NumberedSchema} (h : r.Placed schemas) (huse : use ∈ r.uses) :
    ∃ s ∈ schemas, use.1 = s.ref ∧ s.Owns use.2 := by
  obtain ⟨ref, href, rfl | ⟨key, hkey, rfl⟩⟩ := mem_uses.mp huse
  · exact h.foreign ref href
  · exact (h.key ref href key hkey).2

/-- The references of a relationship in which one side has all keys and the other holds them. -/
theorem placed_of_sides (s t : NumberedSchema) (isOwn : Bool) {schemas : List NumberedSchema}
    (hjoin : r.joinTable = none) (hs : s ∈ schemas) (ht : t ∈ schemas)
    (hkeys : (if isOwn then r.owner else r.related) = s.ref)
    (hholder : (if isOwn then r.related else r.owner) = t.ref)
    (hrefs : ∀ ref ∈ r.references, t.Owns ref.foreignKey
      ∧ (∃ k, ref.primaryKey = some k ∧ s.Owns k) ∧ ref.primaryValue = ""
      ∧ ref.ownPrimaryKey = isOwn) : r.Placed schemas where
  foreign ref href := by
    obtain ⟨hforeign, ⟨k, hk, -⟩, hvalue, hown⟩ := hrefs ref href
    refine ⟨t, ht, ?_, hforeign⟩
    rw [holder, hjoin, hk, hvalue, hown, ← hholder]
    cases isOwn <;> rfl
  key ref href k hk := by
    obtain ⟨-, ⟨k', hk', hkey⟩, hvalue, hown⟩ := hrefs ref href
    obtain rfl : k' = k := Option.some.inj (hk'.symm.trans hk)
    refine ⟨hvalue, s, hs, ?_, hkey⟩
    rw [keyOwner, hown, ← hkeys]
  oneSided _ := ⟨isOwn, fun ref href _ => (hrefs ref href).2.2.2⟩

/-- The references of a relationship in which the other side tells what it belongs to. -/
theorem placed_of_polymorphic {s t : NumberedSchema} {schemas : List NumberedSchema}
    {made : Polymorphic} {key : KeyField} (hjoin : r.joinTable = none) (hs : s ∈ schemas)
    (ht : t ∈ schemas) (howner : r.owner = s.ref) (hrelated : r.related = t.ref)
    (hrefs : r.references = made.references key) (htype : t.Owns made.typeField)
    (hid : t.Owns made.id) (hkey : s.Owns key) : r.Placed schemas where
  foreign ref href := by
    refine ⟨t, ht, ?_⟩
    rw [hrefs] at href
    rw [holder, hjoin, ← hrelated]
    obtain rfl | href := List.mem_cons.mp href
    · exact ⟨rfl, htype⟩
    · obtain rfl := List.mem_singleton.mp href
      exact ⟨rfl, hid⟩
  key ref href k hk := by
    rw [hrefs] at href
    obtain rfl | href := List.mem_cons.mp href
    · cases hk
    · obtain rfl := List.mem_singleton.mp href
      cases hk
      exact ⟨rfl, s, hs, howner, hkey⟩
  oneSided _ := by
    refine ⟨true, fun ref href hsome => ?_⟩
    rw [hrefs] at href
    obtain rfl | href := List.mem_cons.mp href
    · cases hsome
    · obtain rfl := List.mem_singleton.mp href
      rfl

/-- The references of a relationship by a join table. -/
theorem placed_of_joinTable {s t u : NumberedSchema} {schemas : List NumberedSchema}
    (hjoin : r.joinTable = some u.ref) (hs : s ∈ schemas) (ht : t ∈ schemas) (hu : u ∈ schemas)
    (howner : r.owner = s.ref) (hrelated : r.related = t.ref)
    (hrefs : ∀ ref ∈ r.references, u.Owns ref.foreignKey
      ∧ (∃ k, ref.primaryKey = some k ∧ (if ref.ownPrimaryKey then s else t).Owns k)
      ∧ ref.primaryValue = "") : r.Placed schemas where
  foreign ref href := by
    refine ⟨u, hu, ?_, (hrefs ref href).1⟩
    rw [holder, hjoin]
  key ref href k hk := by
    obtain ⟨-, ⟨k', hk', hkey⟩, hvalue⟩ := hrefs ref href
    obtain rfl : k' = k := Option.some.inj (hk'.symm.trans hk)
    refine ⟨hvalue, if ref.ownPrimaryKey then s else t, ?_, ?_, hkey⟩
    · split <;> assumption
    · rw [keyOwner, howner, hrelated]
      split <;> rfl
  oneSided hnone := by
    rw [hjoin] at hnone
    cases hnone

end Relationship

namespace Pairing

variable {p : Pairing} {position next : Nat} {r : Relationship} {join : Option JoinTable}
  {table : JoinTable} {given : String} {use : SchemaRef × KeyField}

theorem discriminator_has {stem ending : String} {k : KeyField}
    (h : p.discriminator stem ending = .ok k) : p.related.side.Has k := by
  rw [discriminator] at h
  split at h
  · next hname =>
    cases h
    exact Side.has_of_byName hname
  · cases h

theorem polymorphicKey_has {k : KeyField} (h : p.polymorphicKey = .ok k) : p.owner.side.Has k := by
  rw [polymorphicKey] at h
  split at h
  · next hkey =>
    cases h
    split at hkey
    · exact Side.has_of_prioritized hkey
    · exact Side.has_of_lookup hkey
    · cases hkey
  · cases h

/-- What a polymorphic relationship pairs. -/
theorem polymorphic_ok {stem : String} {made : Polymorphic} {refs : List Reference}
    (h : p.polymorphic stem = .ok (made, refs)) :
    made.value
        = ((p.field.settings.get? "POLYMORPHICVALUE").map Text.trim).getD p.owner.schema.table
      ∧ ∃ key, refs = made.references key ∧ p.related.side.Has made.typeField
        ∧ p.related.side.Has made.id ∧ p.owner.side.Has key := by
  rw [polymorphic] at h
  cases htype : p.discriminator stem "Type" with
  | error e => rw [htype] at h; cases h
  | ok typeField =>
    cases hid : p.discriminator stem "ID" with
    | error e => rw [htype, hid] at h; cases h
    | ok id =>
      cases hkey : p.polymorphicKey with
      | error e => rw [htype, hid, hkey] at h; cases h
      | ok key =>
        rw [htype, hid, hkey] at h
        cases h
        exact ⟨rfl, key, rfl, discriminator_has htype, discriminator_has hid,
          polymorphicKey_has hkey⟩

/-- The sides of a direction are the two schemas, or a record that the owner embeds. -/
theorem owns_of_sides {d : Direction} {primarySide foreignSide : Side}
    (h : p.sides? d = some (primarySide, foreignSide)) :
    (∀ k, primarySide.Has k → (if d.isHas then p.owner else p.related).Owns k)
      ∧ ∀ k, foreignSide.Has k → (if d.isHas then p.related else p.owner).Owns k := by
  have hembedded : ∀ side, p.embeddedOwner? = some side → ∀ k, side.Has k → p.owner.Owns k := by
    intro side hside k hk
    obtain ⟨index, -, hindex⟩ := Option.bind_eq_some_iff.mp hside
    exact .inr ⟨index, side, hindex, hk⟩
  cases d with
  | belongs =>
    cases h
    exact ⟨fun _ => .inl, fun _ => .inl⟩
  | has =>
    cases h
    exact ⟨fun _ => .inl, fun _ => .inl⟩
  | embeddedBelongs =>
    obtain ⟨side, hside, heq⟩ := Option.map_eq_some_iff.mp h
    cases heq
    exact ⟨fun _ => .inl, hembedded _ hside⟩
  | embeddedHas =>
    obtain ⟨side, hside, heq⟩ := Option.map_eq_some_iff.mp h
    cases heq
    exact ⟨hembedded _ hside, fun _ => .inl⟩

theorem references_of_joinTable (h : p.joinTable next given = .ok table) {ref : Reference}
    (href : ref ∈ table.references) :
    (NumberedSchema.mk next table.schema).side.Has ref.foreignKey
      ∧ (∃ k, ref.primaryKey = some k
        ∧ (if ref.ownPrimaryKey then p.owner else p.related).side.Has k)
      ∧ ref.primaryValue = "" := by
  obtain ⟨ownKeys, relatedKeys, own, related, -, -, -, hownKeys, hrelatedKeys, hown, hrelated, -, -,
    -, hreferences, -⟩ := joinTable_ok h
  rw [hreferences] at href
  obtain ⟨copy, hcopy, href⟩ := List.mem_flatMap.mp href
  have hcopy := copies_has hcopy
  obtain href | href := List.mem_append.mp href
  · obtain ⟨hforeign, hkey, hvalue, hisOwn⟩ := paired_has (ownJoinFields_has hownKeys hown) href
    rw [hforeign, hisOwn]
    exact ⟨hcopy, hkey, hvalue⟩
  · obtain ⟨hforeign, hkey, hvalue, hisOwn⟩ :=
      paired_has (relatedJoinFields_has hrelatedKeys hrelated) href
    rw [hforeign, hisOwn]
    exact ⟨hcopy, hkey, hvalue⟩

/-! ## What a relationship is made of -/

/-- The relationship that a pairing declares. -/
def declare (p : Pairing) (position : Nat) (kind : RelationshipKind)
    (references : List Reference) : Relationship :=
  { name := p.field.name, kind, field := p.field, owner := p.owner.ref, position,
    related := p.related.ref, references }

/-- The ways in which a pairing comes to be a relationship. -/
inductive MadeAs (p : Pairing) (position next : Nat) : Relationship → Option JoinTable → Prop
  | polymorphic {stem : String} {made : Polymorphic} {refs : List Reference}
      (hstem : p.field.settings.value? "POLYMORPHIC" = some stem)
      (hmade : p.polymorphic stem = .ok (made, refs)) :
      MadeAs p position next { p.declare position p.hasKind refs with polymorphic := some made } none
  | linked {given : String} {table : JoinTable}
      (hgiven : p.field.settings.value? "MANY2MANY" = some given)
      (htable : p.joinTable next given = .ok table) :
      MadeAs p position next { p.declare position .manyToMany table.references with
        joinTable := some (NumberedSchema.mk next table.schema).ref } (some table)
  | guessed {kind : RelationshipKind} {refs : List Reference} (hplain : p.field.IsPlain)
      (hguess : p.guess = .ok (kind, refs)) :
      MadeAs p position next (p.declare position kind refs) none

theorem madeAs_of_relationship (h : p.relationship position next = .ok (r, join)) :
    p.MadeAs position next r join := by
  rw [relationship] at h
  split at h
  · next hstem =>
    obtain ⟨made, hmade, h⟩ := exists_ok_of_bind h
    cases h
    exact .polymorphic hstem hmade
  · next hgiven =>
    obtain ⟨table, htable, h⟩ := exists_ok_of_bind h
    cases h
    exact .linked hgiven htable
  · next hpolymorphic hgiven =>
    obtain ⟨made, hguess, h⟩ := exists_ok_of_bind h
    cases h
    exact .guessed ⟨hpolymorphic, hgiven⟩ hguess

/-- What a relationship says about its declaration. -/
theorem relationship_declared (h : p.relationship position next = .ok (r, join)) :
    r.name = p.field.name ∧ r.field = p.field ∧ r.position = position
      ∧ r.related = p.related.ref := by
  cases madeAs_of_relationship h <;> exact ⟨rfl, rfl, rfl, rfl⟩

theorem relationship_plain
    (hplain : p.field.settings.value? "POLYMORPHIC" = none
      ∧ p.field.settings.value? "MANY2MANY" = none)
    (h : p.relationship position next = .ok (r, join)) : p.guess = .ok (r.kind, r.references) := by
  cases madeAs_of_relationship h with
  | polymorphic hstem => cases hplain.1.symm.trans hstem
  | linked hgiven => cases hplain.2.symm.trans hgiven
  | guessed _ hguess => exact hguess

theorem hasKind_cases (p : Pairing) : p.hasKind = .hasOne ∨ p.hasKind = .hasMany := by
  rw [hasKind]
  split
  · exact .inr rfl
  · exact .inl rfl

theorem hasKind_ne (p : Pairing) : p.hasKind ≠ .belongsTo := by
  obtain h | h := p.hasKind_cases <;> rw [h] <;> decide

theorem hasKind_ne_manyToMany (p : Pairing) : p.hasKind ≠ .manyToMany := by
  obtain h | h := p.hasKind_cases <;> rw [h] <;> decide

/-- Only a join table links many to many. -/
theorem ne_manyToMany_of_guess {kind : RelationshipKind} {refs : List Reference}
    (h : p.guess = .ok (kind, refs)) : kind ≠ .manyToMany := by
  obtain ⟨_, d, -, -, rfl⟩ := found_of_guess h
  split
  · exact p.hasKind_ne_manyToMany
  · decide

/-- A field that belongs to a record says neither that many do nor to which kind. -/
theorem plain_of_belongsTo (h : p.relationship position next = .ok (r, join))
    (hkind : r.kind = .belongsTo) : p.field.IsPlain := by
  cases madeAs_of_relationship h with
  | polymorphic => exact absurd hkind p.hasKind_ne
  | linked => cases hkind
  | guessed hplain => exact hplain

/-! ## Where the fields of a relationship live -/

/-- Every field of a relationship is written in the table of the schema that owns it: one of the
two, or the join table. -/
theorem relationship_placed (h : p.relationship position next = .ok (r, join)) :
    r.Placed (p.owner :: p.related :: join.toList.map fun table => ⟨next, table.schema⟩) := by
  have howner : p.owner ∈ p.owner :: p.related :: join.toList.map fun table =>
      NumberedSchema.mk next table.schema := List.mem_cons_self
  have hrelated : p.related ∈ p.owner :: p.related :: join.toList.map fun table =>
      NumberedSchema.mk next table.schema := List.mem_cons_of_mem _ List.mem_cons_self
  cases madeAs_of_relationship h with
  | polymorphic _ hmade =>
    obtain ⟨-, key, hrefs, htype, hid, hkey⟩ := polymorphic_ok hmade
    exact Relationship.placed_of_polymorphic rfl howner hrelated rfl rfl hrefs (.inl htype)
      (.inl hid) (.inl hkey)
  | @linked _ table _ hjoin =>
    refine Relationship.placed_of_joinTable (u := ⟨next, table.schema⟩) rfl howner hrelated
      (List.mem_cons_of_mem _ (List.mem_cons_of_mem _ List.mem_cons_self)) rfl rfl
      fun ref href => ?_
    obtain ⟨hforeign, ⟨k, hk, hkey⟩, hvalue⟩ := references_of_joinTable hjoin href
    exact ⟨.inl hforeign, ⟨k, hk, .inl hkey⟩, hvalue⟩
  | guessed _ hguess =>
    obtain ⟨d, hd⟩ := guess_ok hguess
    obtain ⟨primarySide, foreignSide, hsides, -, hrefs⟩ := references?_ok hd
    obtain ⟨hprimary, hforeign⟩ := owns_of_sides hsides
    refine Relationship.placed_of_sides (if d.isHas then p.owner else p.related)
      (if d.isHas then p.related else p.owner) d.isHas rfl ?_ ?_ ?_ ?_ ?_
    · cases d.isHas <;> assumption
    · cases d.isHas <;> assumption
    · cases d.isHas <;> rfl
    · cases d.isHas <;> rfl
    · intro ref href
      obtain ⟨hfk, ⟨k, hk, hkey⟩, hvalue, hown⟩ := hrefs ref href
      exact ⟨hforeign _ hfk, ⟨k, hk, hprimary k hkey⟩, hvalue, hown⟩

/-- So it is with the relationships of the join table to the two sides. -/
theorem links_placed (h : p.joinTable next given = .ok table) {link : Relationship}
    (hlink : link ∈ table.links) :
    link.Placed [p.owner, p.related, ⟨next, table.schema⟩] := by
  obtain ⟨s, fields, _, _, hs, hsource, rfl⟩ := exists_side_of_link h hlink
  have hmem : s ∈ [p.owner, p.related, ⟨next, table.schema⟩] := by
    obtain rfl | rfl := hs <;> simp
  refine Relationship.placed_of_sides s ⟨next, table.schema⟩ false rfl hmem (by simp) rfl rfl
    fun ref href => ?_
  obtain ⟨copy, hcopy, href⟩ := List.mem_flatMap.mp href
  obtain ⟨hforeign, ⟨k, hk, hkey⟩, hvalue, hisOwn⟩ := paired_has hsource href
  exact ⟨hforeign ▸ .inl (copies_has hcopy), ⟨k, hk, .inl hkey⟩, hvalue, hisOwn⟩

end Pairing

end RecordSql
