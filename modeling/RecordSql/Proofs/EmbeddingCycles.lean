/-
  RecordSql.Proofs.EmbeddingCycles

  When the fields of a record type can be flattened.  An embedded record is read
  in the place of the field that embeds it, and so on for the records embedded
  in that.  Reading a record type comes to another (`Schema.ComesTo`) if the
  fields before the one that embeds it have been read.

  More depth changes no result (`Schema.ofModel_mono`): it is only there to end
  what would not end.  And it is enough to allow for as many record types below
  one another as the catalog has; where that is not enough some record type
  stands below itself, and no depth is (`Schema.parse_endless_iff`).
-/

import RecordSql.Proofs.Columns
import Mathlib.Data.List.Perm.Subperm
import Mathlib.Logic.Relation

namespace RecordSql

/-! ## Record types that embed others -/

/-- The record type that a field of `model` embeds, if it embeds one. -/
def DeclaredField.embeds? (model : String) (d : DeclaredField) : Option String :=
  (Field.parse model d).toOption.bind fun (_, inner) => inner.map (·.id)

namespace Catalog

/-- The identities of the record types. -/
def ids (catalog : Catalog) : List String := catalog.models.map (·.1)

/-- A record type has a field that embeds another one. -/
def Embeds (catalog : Catalog) (outer inner : String) : Prop :=
  ∃ d ∈ (catalog.describe ⟨outer, ""⟩).fields,
    d.embeds? (catalog.describe ⟨outer, ""⟩).name = some inner

/-- No record type embeds itself, directly or through others. -/
def EmbedsAcyclically (catalog : Catalog) : Prop :=
  ∀ id, ¬ Relation.TransGen catalog.Embeds id id

/-- If every record type stands above those it embeds, none embeds itself. -/
theorem embedsAcyclically_of_rank {catalog : Catalog} (rank : String → Nat)
    (h : ∀ p ∈ catalog.models, ∀ d ∈ p.2.fields, ∀ inner ∈ d.embeds? p.2.name,
      rank inner < rank p.1) : catalog.EmbedsAcyclically := by
  have hstep : ∀ outer inner, catalog.Embeds outer inner → rank inner < rank outer := by
    rintro outer inner ⟨d, hd, hinner⟩
    rw [describe] at hd hinner
    cases hlookup : catalog.models.lookup outer with
    | none =>
      rw [hlookup] at hd
      cases hd
    | some model =>
      rw [hlookup] at hd hinner
      obtain ⟨before, after, heq, -⟩ := List.lookup_eq_some_iff.mp hlookup
      exact h (outer, model) (by rw [heq]; simp) d hd inner hinner
  have hbelow : ∀ outer inner, Relation.TransGen catalog.Embeds outer inner →
      rank inner < rank outer := by
    intro outer inner hchain
    induction hchain with
    | single hlast => exact hstep _ _ hlast
    | tail _ hlast ih => exact Nat.lt_trans (hstep _ _ hlast) ih
  exact fun id hchain => Nat.lt_irrefl _ (hbelow id id hchain)

/-- A record type that has a name is one of the catalog. -/
theorem mem_ids_of_named {catalog : Catalog} {ref : ModelRef}
    (h : (catalog.describe ref).name.isEmpty = false) : ref.id ∈ catalog.ids := by
  rw [describe] at h
  cases hlookup : catalog.models.lookup ref.id with
  | none =>
    rw [hlookup] at h
    cases h
  | some model =>
    obtain ⟨before, after, heq, -⟩ := List.lookup_eq_some_iff.mp hlookup
    rw [ids, heq]
    simp

/-- Distinct record types of a catalog are not more than it has. -/
theorem length_le_of_nodup {catalog : Catalog} {path : List String} (hnodup : path.Nodup)
    (hknown : ∀ id ∈ path, id ∈ catalog.ids) : path.length ≤ catalog.models.length := by
  have hle : path.length ≤ catalog.ids.length := (List.subperm_of_subset hnodup hknown).length_le
  rwa [ids, List.length_map] at hle

end Catalog

/-! ## Results that do not end -/

theorem refuse_ne_endless {α : Type} (x : Except Error α) : refuse x ≠ .error .endless := by
  cases x <;> simp [refuse]

/-- The first part of two does not end, or the second. -/
theorem bind_endless_iff {α β : Type} {x : Except ParseFailure α}
    {f : α → Except ParseFailure β} :
    x.bind f = .error .endless ↔ x = .error .endless ∨ ∃ a, x = .ok a ∧ f a = .error .endless := by
  cases x with
  | error failure => simp [Except.bind]
  | ok a => simp [Except.bind]

/-- If `y` is `x` wherever `x` ends, and so with the second parts, then so with both in a row. -/
theorem bind_mono {α β : Type} {x y : Except ParseFailure α} {f g : α → Except ParseFailure β}
    (hx : x ≠ .error .endless → y = x) (hf : ∀ a, f a ≠ .error .endless → g a = f a)
    (h : x.bind f ≠ .error .endless) : y.bind g = x.bind f := by
  rw [Ne, bind_endless_iff, not_or] at h
  rw [hx h.1]
  cases x with
  | error failure => rfl
  | ok a => exact hf a fun hendless => h.2 ⟨a, rfl, hendless⟩

section Fields

variable {embed embed' : ModelRef → Except ParseFailure Layout} {model : String} {count : Nat}
  {ds before after : List DeclaredField} {d : DeclaredField} {field : Field} {inner : ModelRef}
  {flat : List Field × List Layout}

/-- One field flattened: how many records have been embedded with it, its fields, and the layout it
embeds, if it does. -/
def flattenField (embed : ModelRef → Except ParseFailure Layout) (model : String) (count : Nat)
    (d : DeclaredField) : Except ParseFailure (Nat × List Field × List Layout) :=
  (refuse (Field.parse model d)).bind fun (field, inner) =>
    match inner with
    | none => .ok (count, [field], [])
    | some inner => (embed inner).bind fun layout =>
      .ok (count + 1, layout.fields.map (Field.adopted field count), [layout])

/-- The fields of a record type are flattened one after the other. -/
theorem flattenFields_cons (embed : ModelRef → Except ParseFailure Layout) (model : String)
    (count : Nat) (d : DeclaredField) (ds : List DeclaredField) :
    flattenFields embed model count (d :: ds)
      = (flattenField embed model count d).bind fun flat =>
        (flattenFields embed model flat.1 ds).bind fun later =>
          .ok (flat.2.1 ++ later.1, flat.2.2 ++ later.2) := by
  rw [flattenFields, flattenField]
  cases refuse (Field.parse model d) with
  | error failure => rfl
  | ok parsed =>
    obtain ⟨field, inner⟩ := parsed
    cases inner with
    | none => rfl
    | some inner =>
      show (embed inner).bind _ = ((embed inner).bind _).bind _
      cases embed inner <;> rfl

theorem flattenField_endless_iff :
    flattenField embed model count d = .error .endless
      ↔ ∃ field inner, Field.parse model d = .ok (field, some inner)
        ∧ embed inner = .error .endless := by
  rw [flattenField, bind_endless_iff]
  constructor
  · rintro (hrefused | ⟨⟨field, inner⟩, hparse, h⟩)
    · exact absurd hrefused (refuse_ne_endless _)
    · cases inner with
      | none => cases h
      | some inner =>
        obtain hinner | ⟨_, -, hdone⟩ := bind_endless_iff.mp h
        · exact ⟨field, inner, refuse_ok hparse, hinner⟩
        · cases hdone
  · rintro ⟨field, inner, hparse, hinner⟩
    refine .inr ⟨(field, some inner), by rw [hparse]; rfl, ?_⟩
    exact bind_endless_iff.mpr (.inl hinner)

theorem flattenField_mono
    (hembed : ∀ inner, embed inner ≠ .error .endless → embed' inner = embed inner)
    (h : flattenField embed model count d ≠ .error .endless) :
    flattenField embed' model count d = flattenField embed model count d := by
  refine bind_mono (fun _ => rfl) (fun ⟨field, inner⟩ hrest => ?_) h
  cases inner with
  | none => rfl
  | some inner => exact bind_mono (hembed inner) (fun _ _ => rfl) hrest

/-- If the fields cannot be flattened, that is for one whose embedded record does not end. -/
theorem flattenFields_endless (h : flattenFields embed model count ds = .error .endless) :
    ∃ before d after field inner flat, ds = before ++ d :: after
      ∧ flattenFields embed model count before = .ok flat
      ∧ Field.parse model d = .ok (field, some inner) ∧ embed inner = .error .endless := by
  induction ds generalizing count with
  | nil => cases h
  | cons d ds ih =>
    rw [flattenFields_cons, bind_endless_iff] at h
    obtain hfirst | ⟨flat, hflat, hrest⟩ := h
    · obtain ⟨field, inner, hparse, hinner⟩ := flattenField_endless_iff.mp hfirst
      exact ⟨[], d, ds, field, inner, _, rfl, rfl, hparse, hinner⟩
    · obtain hlater | ⟨_, -, hdone⟩ := bind_endless_iff.mp hrest
      · obtain ⟨before, d', after, field, inner, later, rfl, hbefore, hparse, hinner⟩ := ih hlater
        have hwhole : flattenFields embed model count (d :: before)
            = .ok (flat.2.1 ++ later.1, flat.2.2 ++ later.2) := by
          rw [flattenFields_cons, hflat]
          show (flattenFields embed model flat.1 before).bind _ = _
          rw [hbefore]
          rfl
        exact ⟨d :: before, d', after, field, inner, _, rfl, hwhole, hparse, hinner⟩
      · cases hdone

/-- One embedded record that does not end is enough, if the fields before it are flattened. -/
theorem flattenFields_endless_of (hbefore : flattenFields embed model count before = .ok flat)
    (hd : Field.parse model d = .ok (field, some inner)) (hinner : embed inner = .error .endless) :
    flattenFields embed model count (before ++ d :: after) = .error .endless := by
  induction before generalizing count flat with
  | nil =>
    rw [List.nil_append, flattenFields_cons, flattenField_endless_iff.mpr ⟨field, inner, hd, hinner⟩]
    rfl
  | cons d' before ih =>
    rw [flattenFields_cons] at hbefore
    obtain ⟨first, hfirst, hrest⟩ := exists_ok_of_bind hbefore
    obtain ⟨later, hlater, -⟩ := exists_ok_of_bind hrest
    rw [List.cons_append, flattenFields_cons, hfirst]
    show (flattenFields embed model first.1 (before ++ d :: after)).bind _ = _
    rw [ih hlater]
    rfl

/-- Where embedded records end the same way, the fields do. -/
theorem flattenFields_mono
    (hembed : ∀ inner, embed inner ≠ .error .endless → embed' inner = embed inner)
    (h : flattenFields embed model count ds ≠ .error .endless) :
    flattenFields embed' model count ds = flattenFields embed model count ds := by
  induction ds generalizing count with
  | nil => rfl
  | cons d ds ih =>
    rw [flattenFields_cons] at h
    rw [flattenFields_cons, flattenFields_cons]
    exact bind_mono (flattenField_mono hembed)
      (fun _ hrest => bind_mono ih (fun _ _ => rfl) hrest) h

end Fields

namespace Schema

variable {catalog : Catalog} {ns : Naming} {table : String} {depth depth' : Nat} {model : Model}
  {outer inner : String} {ref : ModelRef}

/-! ## Depth -/

/-- The layout of an embedded record, with records embedded in it to a depth below `depth`. -/
def embedWithin (catalog : Catalog) (ns : Naming) (table : String) (depth : Nat) (inner : ModelRef) :
    Except ParseFailure Layout :=
  (ofModel catalog ns table depth (catalog.describe inner)).map (·.toLayout)

/-- Some fields of a record type, with records embedded to a depth below `depth`. -/
def flattenWithin (catalog : Catalog) (ns : Naming) (table : String) (depth : Nat) (model : String)
    (ds : List DeclaredField) : Except ParseFailure (List Field × List Layout) :=
  flattenFields (embedWithin catalog ns table depth) model 0 ds

theorem ofModel_succ (hnamed : model.name.isEmpty = false) :
    ofModel catalog ns table (depth + 1) model
      = (flattenWithin catalog ns table depth model.name model.fields).bind fun (fields, embedded) =>
        (refuse (Layout.assemble model.name table fields ns)).bind fun layout =>
          .ok { layout with embedded } := by
  rw [ofModel, if_neg (by rw [hnamed]; exact Bool.false_ne_true)]
  rfl

theorem ofModel_succ_unnamed (hunnamed : model.name.isEmpty = true) :
    ofModel catalog ns table (depth + 1) model
      = .error (.refused (.unsupportedModel "anonymous type")) := by
  rw [ofModel, if_pos hunnamed]

theorem embedWithin_endless_iff :
    embedWithin catalog ns table depth ref = .error .endless
      ↔ ofModel catalog ns table depth (catalog.describe ref) = .error .endless := by
  rw [embedWithin]
  cases ofModel catalog ns table depth (catalog.describe ref) <;> simp [Except.map]

/-- The schema of a record type does not end exactly if its fields do not. -/
theorem ofModel_succ_endless_iff (hnamed : model.name.isEmpty = false) :
    ofModel catalog ns table (depth + 1) model = .error .endless
      ↔ flattenWithin catalog ns table depth model.name model.fields = .error .endless := by
  rw [ofModel_succ hnamed, bind_endless_iff]
  refine ⟨fun h => h.resolve_right ?_, .inl⟩
  rintro ⟨flat, -, hlayout⟩
  rw [bind_endless_iff] at hlayout
  obtain hrefused | ⟨layout, -, hdone⟩ := hlayout
  · exact refuse_ne_endless _ hrefused
  · cases hdone

/-- One more level of depth changes no result. -/
theorem ofModel_mono_succ (h : ofModel catalog ns table depth model ≠ .error .endless) :
    ofModel catalog ns table (depth + 1) model = ofModel catalog ns table depth model := by
  induction depth generalizing model with
  | zero => exact absurd rfl h
  | succ depth ih =>
    cases hnamed : model.name.isEmpty with
    | true => rw [ofModel_succ_unnamed hnamed, ofModel_succ_unnamed hnamed]
    | false =>
      have hembed : ∀ inner, embedWithin catalog ns table depth inner ≠ .error .endless →
          embedWithin catalog ns table (depth + 1) inner = embedWithin catalog ns table depth inner := by
        intro inner hinner
        rw [Ne, embedWithin_endless_iff] at hinner
        rw [embedWithin, embedWithin, ih hinner]
      rw [ofModel_succ hnamed] at h
      rw [ofModel_succ hnamed, ofModel_succ hnamed]
      exact bind_mono (flattenFields_mono hembed) (fun _ _ => rfl) h

/-- More depth changes no result. -/
theorem ofModel_mono (hle : depth ≤ depth') (h : ofModel catalog ns table depth model ≠ .error .endless) :
    ofModel catalog ns table depth' model = ofModel catalog ns table depth model := by
  induction hle with
  | refl => rfl
  | step _ ih =>
    rw [← ih] at h
    rw [ofModel_mono_succ h, ih]

theorem embedWithin_mono (hle : depth ≤ depth')
    (h : embedWithin catalog ns table depth ref ≠ .error .endless) :
    embedWithin catalog ns table depth' ref = embedWithin catalog ns table depth ref := by
  rw [Ne, embedWithin_endless_iff] at h
  rw [embedWithin, embedWithin, ofModel_mono hle h]

theorem flattenWithin_mono {ds : List DeclaredField} {name : String} (hle : depth ≤ depth')
    (h : flattenWithin catalog ns table depth name ds ≠ .error .endless) :
    flattenWithin catalog ns table depth' name ds = flattenWithin catalog ns table depth name ds :=
  flattenFields_mono (fun _ => embedWithin_mono hle) h

/-! ## Cycles -/

/-- Reading a record type comes to a field that embeds the other: the fields before it can be
flattened. -/
def ComesTo (catalog : Catalog) (ns : Naming) (table : String) (outer inner : String) : Prop :=
  (catalog.describe ⟨outer, ""⟩).name.isEmpty = false ∧
    ∃ before d after field ref depth flat,
      (catalog.describe ⟨outer, ""⟩).fields = before ++ d :: after
      ∧ flattenWithin catalog ns table depth (catalog.describe ⟨outer, ""⟩).name before = .ok flat
      ∧ Field.parse (catalog.describe ⟨outer, ""⟩).name d = .ok (field, some ref) ∧ ref.id = inner

/-- Reading the record type comes to one that embeds itself, directly or through others. -/
def EmbedsForever (catalog : Catalog) (ns : Naming) (table : String) (id : String) : Prop :=
  ∃ inner, Relation.ReflTransGen (ComesTo catalog ns table) id inner
    ∧ Relation.TransGen (ComesTo catalog ns table) inner inner

theorem ComesTo.mem_ids (h : ComesTo catalog ns table outer inner) : outer ∈ catalog.ids := by
  have hnamed : (catalog.describe ⟨outer, ""⟩).name.isEmpty = false := h.1
  exact Catalog.mem_ids_of_named hnamed

theorem ComesTo.embeds (h : ComesTo catalog ns table outer inner) : catalog.Embeds outer inner := by
  obtain ⟨-, before, d, after, field, ref, _, _, hfields, -, hd, rfl⟩ := h
  refine ⟨d, ?_, ?_⟩
  · rw [hfields]
    exact List.mem_append_right before List.mem_cons_self
  · rw [DeclaredField.embeds?, hd]
    rfl

/-- If reading a record type does not end, it comes to one for which it does not end either. -/
theorem exists_comesTo_of_endless
    (h : ofModel catalog ns table (depth + 1) (catalog.describe ref) = .error .endless) :
    ∃ inner : ModelRef, ComesTo catalog ns table ref.id inner.id
      ∧ ofModel catalog ns table depth (catalog.describe inner) = .error .endless := by
  cases hnamed : (catalog.describe ref).name.isEmpty with
  | true =>
    rw [ofModel_succ_unnamed hnamed] at h
    cases h
  | false =>
    rw [ofModel_succ_endless_iff hnamed] at h
    obtain ⟨before, d, after, field, inner, flat, hfields, hbefore, hd, hinner⟩ :=
      flattenFields_endless h
    exact ⟨inner, ⟨hnamed, before, d, after, field, inner, depth, flat, hfields, hbefore, hd, rfl⟩,
      embedWithin_endless_iff.mp hinner⟩

/-- What does not end to a depth does not end one level higher. -/
theorem ComesTo.endless (h : ComesTo catalog ns table outer inner)
    (hinner : ofModel catalog ns table depth (catalog.describe ⟨inner, ""⟩) = .error .endless) :
    ofModel catalog ns table (depth + 1) (catalog.describe ⟨outer, ""⟩) = .error .endless := by
  obtain ⟨hnamed, before, d, after, field, ref, enough, flat, hfields, hbefore, hd, rfl⟩ := h
  rw [ofModel_succ_endless_iff hnamed, hfields]
  have hendless : embedWithin catalog ns table depth ref = .error .endless :=
    embedWithin_endless_iff.mpr hinner
  by_cases hends : flattenWithin catalog ns table depth (catalog.describe ⟨outer, ""⟩).name before
      = .error .endless
  · -- A field before it does not end, and ends the reading there.
    obtain ⟨before', d', after', field', inner', flat', heq, hbefore', hd', hinner'⟩ :=
      flattenFields_endless hends
    rw [heq, List.append_assoc]
    exact flattenFields_endless_of hbefore' hd' hinner'
  · -- The fields before it end, and so as they do where there is enough depth for them.
    have hleft := flattenWithin_mono (Nat.le_max_left depth enough) hends
    have hright := flattenWithin_mono (Nat.le_max_right depth enough) (by rw [hbefore]; nofun)
    have hsame := hleft.symm.trans (hright.trans hbefore)
    exact flattenFields_endless_of hsame hd hendless

/-- Below a record type that embeds itself there is always another one. -/
theorem EmbedsForever.exists_comesTo {id : String} (h : EmbedsForever catalog ns table id) :
    ∃ inner, ComesTo catalog ns table id inner ∧ EmbedsForever catalog ns table inner := by
  obtain ⟨cyclic, hreach, hcycle⟩ := h
  obtain rfl | ⟨inner, hfirst, hrest⟩ := hreach.cases_head
  · obtain ⟨inner, hfirst, hrest⟩ := Relation.TransGen.head'_iff.mp hcycle
    exact ⟨inner, hfirst, id, hrest, hcycle⟩
  · exact ⟨inner, hfirst, cyclic, hrest, hcycle⟩

/-- No depth is enough for it. -/
theorem EmbedsForever.endless {id : String} (h : EmbedsForever catalog ns table id) (depth : Nat) :
    ofModel catalog ns table depth (catalog.describe ⟨id, ""⟩) = .error .endless := by
  induction depth generalizing id with
  | zero => rfl
  | succ depth ih =>
    obtain ⟨inner, hfirst, hrest⟩ := h.exists_comesTo
    exact hfirst.endless (ih hrest)

/-- What does not end to a depth above the number of record types comes to a cycle. `path` are the
record types on the way down to `ref`. -/
theorem embedsForever_of_endless (path : List String) (hnodup : path.Nodup)
    (hknown : ∀ id ∈ path, id ∈ catalog.ids)
    (hpath : ∀ id ∈ path, Relation.TransGen (ComesTo catalog ns table) id ref.id)
    (hdepth : catalog.models.length < path.length + depth)
    (h : ofModel catalog ns table depth (catalog.describe ref) = .error .endless) :
    EmbedsForever catalog ns table ref.id := by
  induction depth generalizing ref path with
  | zero =>
    have hle := Catalog.length_le_of_nodup hnodup hknown
    omega
  | succ depth ih =>
    by_cases hmem : ref.id ∈ path
    · exact ⟨ref.id, .refl, hpath ref.id hmem⟩
    · obtain ⟨inner, hfirst, hinner⟩ := exists_comesTo_of_endless h
      have hdepth' : catalog.models.length < (ref.id :: path).length + depth := by
        rw [List.length_cons]
        omega
      obtain ⟨cyclic, hreach, hcycle⟩ := ih (ref.id :: path) (List.nodup_cons.mpr ⟨hmem, hnodup⟩)
        (List.forall_mem_cons.mpr ⟨hfirst.mem_ids, hknown⟩)
        (List.forall_mem_cons.mpr ⟨.single hfirst, fun id hid => (hpath id hid).tail hfirst⟩)
        hdepth' hinner
      exact ⟨cyclic, .head hfirst hreach, hcycle⟩

/-- The schema of a record type does not end exactly if reading it comes to one that embeds itself. -/
theorem parse_endless_iff {asked : Option String} :
    parse catalog ns ref asked = .error .endless
      ↔ EmbedsForever catalog ns (tableOf ns (catalog.describe ref) asked) ref.id := by
  constructor
  · intro h
    exact embedsForever_of_endless [] List.nodup_nil (by simp) (by simp) (by simp) h
  · intro h
    exact h.endless _

/-- Where no record type embeds itself, reading one ends. -/
theorem parse_ne_endless (hacyclic : catalog.EmbedsAcyclically) (ns : Naming) (ref : ModelRef)
    (asked : Option String) : parse catalog ns ref asked ≠ .error .endless := by
  rw [Ne, parse_endless_iff]
  rintro ⟨cyclic, -, hcycle⟩
  exact hacyclic cyclic (hcycle.lift (fun id => id) fun _ _ => ComesTo.embeds)

/-- Only record types of the catalog have schemas. -/
theorem mem_ids_of_parse_ok {asked : Option String} {schema : Schema}
    (h : parse catalog ns ref asked = .ok schema) : ref.id ∈ catalog.ids := by
  refine Catalog.mem_ids_of_named ?_
  rw [parse, ofModel] at h
  split at h
  · cases h
  · next hnamed => simpa using hnamed

end Schema

end RecordSql
