/-
  RecordSql.Proofs.EmbeddedKeys

  Which field is the key of a record that another belongs to.  A field looks for
  it by names: those its tag lists, or those it makes of its own name.  A name is
  looked up among all fields of the schema, or else among those of the record
  that the field comes from (`Layout.Gives`).  A record that is embedded twice
  has its key twice under one name, and either copy of a field that belongs to
  another record finds the first.
-/

import RecordSql.Proofs.Names
import RecordSql.Proofs.KeyFields
import RecordSql.Proofs.Cache.Pairings

namespace RecordSql

/-- A name by which a field looks for the foreign key of a reference: one that its tag lists, or, where
it lists none, one that begins with the stem and goes on as the key that is held. -/
inductive Field.AsksFor (field : Field) (stem : String) (ns : Naming) (ref : Reference)
    (name : String) : Prop where
  | given (h : name ∈ listedColumns (field.settings.get? "FOREIGNKEY"))
  | implied (candidate : KeyField) (alone : Bool)
      (hnone : listedColumns (field.settings.get? "FOREIGNKEY") = [])
      (hcandidate : ref.primaryKey = some candidate)
      (hname : name ∈ Pairing.foreignKeyNames stem ns candidate alone)

/-- A layout has the foreign key of a reference under a name that the field asks for. Where the name is
no column and there is a field with that name at the end of the path, the key is at the end of the path
exactly if such a field comes first. -/
structure Layout.Gives (l : Layout) (field : Field) (stem : String) (path : List String)
    (ref : Reference) (name : String) : Prop where
  asked : field.AsksFor stem l.naming ref name
  answer : l.Answers name ref.foreignKey.position ref.foreignKey.field
  place : name ∉ l.dbNames →
    (∃ g ∈ l.fields, g.name = name ∧ g.isIgnored = false ∧ g.EndsPath path) →
    (ref.foreignKey.field.EndsPath path ↔ FirstOf.AtPath l.fields path name)

theorem Layout.Assembled.gives {l : Layout} {field : Field} {stem : String} {ref : Reference}
    {name : String} {side : Side} (h : l.Assembled) (hside : side.layout = l)
    (hasked : field.AsksFor stem l.naming ref name)
    (hlookup : side.lookup name = some ref.foreignKey) (path : List String) :
    ref.foreignKey.home = side.home ∧ l.Gives field stem path ref name := by
  subst hside
  obtain ⟨position, hposition, hkey⟩ := Option.bind_eq_some_iff.mp hlookup
  obtain ⟨f, hanswer⟩ := h.answers hposition
  obtain ⟨g, hg, heq⟩ := Option.map_eq_some_iff.mp hkey
  obtain rfl : f = g := Option.some.inj (hanswer.field.symm.trans hg)
  rw [← heq]
  exact ⟨rfl, hasked, heq ▸ hanswer, fun hname hown => heq ▸ (hanswer.first hname).endsPath_iff hown⟩

namespace Pairing

/-! ## Names that are looked up -/

variable {p : Pairing} {refs : List Reference} {ref : Reference}

/-- Keys that are known stay the first. -/
theorem completed?_isPrefix {side : Side} {known keys : List KeyField} {count : Nat}
    (h : p.completed? side known count = some keys) : known <+: keys := by
  unfold completed? at h
  split at h
  · obtain ⟨named, -, h⟩ := Option.bind_eq_some_iff.mp h
    split at h
    · cases h
      exact List.prefix_append _ _
    · cases h
  · split at h
    · next hempty =>
      rw [List.isEmpty_iff.mp hempty]
      exact List.nil_prefix
    · cases h
      exact List.prefix_refl _

/-- Foreign keys that are found in pairs stay with the keys they are paired with. -/
theorem mem_of_mem_zip {α β : Type} {pairs : List (α × β)} {keys : List α} {a : α} {b : β}
    (hkeys : pairs.map Prod.fst <+: keys) (h : (b, a) ∈ (pairs.map Prod.snd).zip keys) :
    (a, b) ∈ pairs := by
  induction pairs generalizing keys with
  | nil => cases h
  | cons pair pairs ih =>
    obtain ⟨rest, rfl⟩ := hkeys
    rw [List.map_cons, List.map_cons, List.cons_append, List.zip_cons_cons] at h
    obtain heq | h := List.mem_cons.mp h
    · cases heq
      exact List.mem_cons_self
    · exact List.mem_cons_of_mem _ (ih (List.prefix_append _ _) h)

/-- Every foreign key is found by a name that the field asks for. -/
theorem exists_name_of_references? {owner related : NumberedSchema} {field : Field} {d : Direction}
    (h : (ofField owner related field).references? d = some refs) (href : ref ∈ refs) :
    ∃ primarySide foreignSide name,
      (ofField owner related field).sides? d = some (primarySide, foreignSide)
      ∧ field.AsksFor (if d = .belongs then field.name else primarySide.layout.name)
          foreignSide.layout.naming ref name
      ∧ foreignSide.lookup name = some ref.foreignKey := by
  rw [references?] at h
  obtain ⟨⟨primarySide, foreignSide⟩, hsides, h⟩ := Option.bind_eq_some_iff.mp h
  dsimp only at h
  split at h
  · next hempty =>
    have hnone : listedColumns (field.settings.get? "FOREIGNKEY") = [] := List.isEmpty_iff.mp hempty
    obtain ⟨keys, -, hkeys, -, rfl⟩ := zipped_eq h
    obtain ⟨⟨_, k⟩, hpair, rfl⟩ := List.mem_map.mp href
    have hprefix := completed?_isPrefix hkeys
    rw [List.unzip_fst] at hprefix
    rw [List.unzip_snd] at hpair
    obtain ⟨candidate, -, hfound⟩ := List.mem_filterMap.mp (mem_of_mem_zip hprefix hpair)
    obtain ⟨key, hkey, heq⟩ := Option.map_eq_some_iff.mp hfound
    obtain ⟨rfl, rfl⟩ := Prod.mk.inj heq
    obtain ⟨name, hname, hlookup⟩ := List.exists_of_findSome?_eq_some hkey
    exact ⟨primarySide, foreignSide, name, hsides, .implied candidate _ hnone rfl hname, hlookup⟩
  · obtain ⟨⟨known, foreign⟩, hkeys, h⟩ := Option.bind_eq_some_iff.mp h
    obtain ⟨keys, hkeys, heq⟩ := Option.map_eq_some_iff.mp hkeys
    cases heq
    obtain ⟨_, -, -, -, rfl⟩ := zipped_eq h
    obtain ⟨_, hpair, rfl⟩ := List.mem_map.mp href
    obtain ⟨name, hname, hlookup⟩ :=
      exists_of_mem_mapM_option hkeys (List.of_mem_zip hpair).1
    exact ⟨primarySide, foreignSide, name, hsides, .given hname, hlookup⟩

/-- The embedded record is asked for the key after the schema that embeds it. -/
theorem belongs_eq_none {ds : List Direction} (hds : p.directions = .ok ds)
    (hfound : p.found? ds = some (.embeddedBelongs, refs)) : p.references? .belongs = none := by
  refine Option.eq_none_iff_forall_ne_some.mpr fun own hown => ?_
  -- The schema is asked first, or second if it could also be the one whose key is held.
  have hall : p.found? Direction.all = some (.belongs, own) := by
    rw [found?, Direction.all, List.findSome?_cons, hown]
    rfl
  have hfirst : ∀ d, d ≠ .embeddedBelongs →
      p.found? (d :: Direction.all) ≠ some (.embeddedBelongs, refs) := by
    intro d hd h
    rw [found?, List.findSome?_cons] at h
    cases href : p.references? d with
    | none =>
      rw [href] at h
      cases hall.symm.trans h
    | some other =>
      rw [href] at h
      cases h
      exact hd rfl
  have hhas : p.found? [.has, .embeddedHas] ≠ some (.embeddedBelongs, refs) := by
    intro h
    obtain ⟨d, hd, href⟩ := List.exists_of_findSome?_eq_some h
    obtain ⟨other, -, heq⟩ := Option.map_eq_some_iff.mp href
    obtain rfl : d = .embeddedBelongs := (Prod.mk.inj heq).1
    revert hd
    decide
  rw [directions] at hds
  split at hds
  · cases hds
    cases hall.symm.trans hfound
  · split at hds
    · cases hds
      refine hfirst _ ?_ hfound
      split <;> decide
    · cases hds
      exact hhas hfound
    · cases hds
      exact hhas hfound
    · cases hds

end Pairing

/-- The schema has no key by which it could belong to a record of the type that the field leads to. -/
def Schema.LacksKey (s : Schema) (catalog : Catalog) (ns : Naming) (field : Field) : Prop :=
  ∃ model owner related, field.kind.model? = some model
    ∧ Schema.parse catalog ns model none = .ok related.schema
    ∧ (Pairing.ofField ⟨owner, s⟩ related field).references? .belongs = none

/-- The key of a belongs-to is looked up among the fields of the schema, or else of the embedded record
that the field comes from. -/
theorem SchemaKey.Makes.gives {key : SchemaKey} {catalog : Catalog} {ns : Naming} {n : Nat}
    {schema : Schema} {entry : Field × Nat} {r : Relationship} {ref : Reference}
    (h : key.Makes catalog ns ⟨n, schema⟩ entry r)
    (hown : schema.toLayout.Assembled)
    (hembedded : ∀ (index : Nat) (layout : Layout), schema.embedded[index]? = some layout →
      layout.Assembled)
    (hkind : r.kind = .belongsTo) (href : ref ∈ r.references) :
    (ref.foreignKey.home = ⟨n, none⟩
      ∧ ∃ name, schema.Gives r.field r.field.name r.field.bindNames ref name)
    ∨ schema.LacksKey catalog ns r.field
      ∧ ∃ index layout, r.field.owner = some index ∧ schema.embedded[index]? = some layout
        ∧ ref.foreignKey.home = ⟨n, some index⟩
        ∧ ∃ name, layout.Gives r.field r.related.name r.field.bindNames.tail ref name := by
  obtain ⟨field, position⟩ := entry
  obtain ⟨model, related, next, join, hmodel, hparse, -, hr⟩ := h
  obtain ⟨-, hfield, -, hrelated⟩ := Pairing.relationship_declared hr
  have hguess := Pairing.relationship_plain (Pairing.plain_of_belongsTo hr hkind) hr
  obtain ⟨ds, d, hds, hfound, hd⟩ := Pairing.found_of_guess hguess
  obtain ⟨primarySide, foreignSide, name, hsides, hasked, hlookup⟩ :=
    Pairing.exists_name_of_references? (Pairing.references_of_found? hfound) href
  obtain rfl : r.field = field := hfield
  rw [hkind] at hd
  cases d with
  | belongs =>
    cases hsides
    obtain ⟨hhome, hgives⟩ := hown.gives rfl hasked hlookup r.field.bindNames
    exact .inl ⟨hhome, name, hgives⟩
  | embeddedBelongs =>
    obtain ⟨side, hside, heq⟩ := Option.map_eq_some_iff.mp hsides
    cases heq
    obtain ⟨index, hindex, hside⟩ := Option.bind_eq_some_iff.mp hside
    obtain ⟨layout, hlayout, rfl⟩ := Option.map_eq_some_iff.mp hside
    obtain ⟨hhome, hgives⟩ := (hembedded index layout hlayout).gives rfl hasked hlookup
      r.field.bindNames.tail
    have hlacks : schema.LacksKey catalog ns r.field :=
      ⟨model, n, related, hmodel, hparse, Pairing.belongs_eq_none hds hfound⟩
    rw [hrelated]
    exact .inr ⟨hlacks, index, layout, hindex, hlayout, hhome, name, hgives⟩
  | has => exact absurd hd.symm (Pairing.hasKind_ne _)
  | embeddedHas => exact absurd hd.symm (Pairing.hasKind_ne _)

namespace SchemaCache

/-- After any calls, the foreign key of a belongs-to is what a name that its field asks for leads to
among all fields of the schema: where several copies of an embedded record have a field of that name,
the first of them, and so the one beside the field itself exactly if no other copy comes before it.
If the schema has no key it is a field of the embedded record as it stands there, found in the same
way. -/
theorem belongs_to_takes_first_key (catalog : Catalog) (naming : Naming) (calls : List ParseCall)
    {key : SchemaKey} {n : Nat} {schema : Schema} {rs : List Relationship} {r : Relationship}
    {ref : Reference}
    (hn : ((empty catalog naming).parseAll calls).find? key = some n)
    (he : ((empty catalog naming).parseAll calls).get? n = some ⟨schema, .resolved rs⟩)
    (hr : r ∈ rs) (hkind : r.kind = .belongsTo) (href : ref ∈ r.references) :
    (ref.foreignKey.home = ⟨n, none⟩
      ∧ ∃ name, schema.Gives r.field r.field.name r.field.bindNames ref name)
    ∨ schema.LacksKey catalog naming r.field
      ∧ ∃ index layout, r.field.owner = some index ∧ schema.embedded[index]? = some layout
        ∧ ref.foreignKey.home = ⟨n, some index⟩
        ∧ ∃ name, layout.Gives r.field r.related.name r.field.bindNames.tail ref name := by
  have hkeyed := (keyed_empty catalog naming).parseAll calls
  obtain ⟨e, he', hparse, hmakes⟩ := hkeyed.schema key n hn
  obtain rfl : e = ⟨schema, .resolved rs⟩ := Option.some.inj (he'.symm.trans he)
  obtain ⟨entry, -, hentry⟩ := exists_of_forall₂ (hmakes rs rfl) hr
  obtain ⟨hown, hembedded⟩ := Schema.assembled_of_parse hparse
  have hgrows := parseAll_grows (empty catalog naming) calls
  have hcatalog : ((empty catalog naming).parseAll calls).catalog = catalog := hgrows.catalog
  have hnaming : ((empty catalog naming).parseAll calls).naming = naming := hgrows.naming
  rw [hcatalog, hnaming] at hentry
  exact hentry.gives hown hembedded hkind href

/-- Orders embed two addresses, whose columns begin with their names. An address is in a country. -/
def orders : Catalog :=
  ⟨[ ( "Order",
      { name := "Order"
        fields :=
          [ { name := "ID", kind := .uint 64 }
          , { name := "Billing", kind := .record ⟨"Address", "Address"⟩
              tag := "embedded;embeddedPrefix:billing_" }
          , { name := "Shipping", kind := .record ⟨"Address", "Address"⟩
              tag := "embedded;embeddedPrefix:shipping_" } ] } )
    , ( "Address",
      { name := "Address"
        fields :=
          [ { name := "CountryID", kind := .uint 64 }
          , { name := "Country", kind := .record ⟨"Country", "Country"⟩ } ] } )
    , ("Country", { name := "Country", fields := [{ name := "ID", kind := .uint 64 }] }) ]⟩

/-- The call for orders. -/
def orderCall : ParseCall := ⟨⟨"Order", "Order"⟩, none⟩

theorem orders_relationship :
    let c := (empty orders plainNames).parseAll [orderCall]
    ∃ schema billing shipping ref key, c.get? 0 = some ⟨schema, .resolved [billing, shipping]⟩
      ∧ ref ∈ shipping.references ∧ ref.primaryKey = some key ∧ shipping.kind = .belongsTo
      ∧ shipping.field.bindNames = ["Shipping", "Country"]
      ∧ listedColumns (shipping.field.settings.get? "FOREIGNKEY") = []
      ∧ (∀ alone, ∀ name ∈ Pairing.foreignKeyNames shipping.field.name schema.naming key alone,
        name ∉ schema.dbNames)
      ∧ ref.foreignKey.home = ⟨0, none⟩ ∧ ref.foreignKey.field.bindNames = ["Billing", "CountryID"]
      ∧ ref.foreignKey.field.name = "CountryID"
      ∧ ∃ g ∈ schema.fields, g.name = "CountryID" ∧ g.isIgnored = false
        ∧ g.bindNames = ["Shipping", "CountryID"] := by
  intro c
  have h : ((c.get? 0).bind fun e => (e.relationships[1]?).bind fun shipping =>
      (shipping.references[0]?).bind fun ref => ref.primaryKey.map fun key =>
        decide (e.relationships.length = 2 ∧ shipping.kind = .belongsTo
          ∧ shipping.field.bindNames = ["Shipping", "Country"]
          ∧ listedColumns (shipping.field.settings.get? "FOREIGNKEY") = []
          ∧ (∀ alone, ∀ name ∈
              Pairing.foreignKeyNames shipping.field.name e.schema.naming key alone,
            name ∉ e.schema.dbNames)
          ∧ ref.foreignKey.home = ⟨0, none⟩
          ∧ ref.foreignKey.field.bindNames = ["Billing", "CountryID"]
          ∧ ref.foreignKey.field.name = "CountryID"
          ∧ ∃ g ∈ e.schema.fields, g.name = "CountryID" ∧ g.isIgnored = false
            ∧ g.bindNames = ["Shipping", "CountryID"])) = some true := by decide +kernel
  obtain ⟨e, he, h⟩ := Option.bind_eq_some_iff.mp h
  obtain ⟨shipping, hsecond, h⟩ := Option.bind_eq_some_iff.mp h
  obtain ⟨ref, href, h⟩ := Option.bind_eq_some_iff.mp h
  obtain ⟨key, hkey, h⟩ := Option.map_eq_some_iff.mp h
  obtain ⟨hlength, hrest⟩ := of_decide_eq_true h
  obtain ⟨billing, other, hrelationships⟩ := List.length_eq_two.mp hlength
  obtain rfl : other = shipping := by
    rw [hrelationships] at hsecond
    exact Option.some.inj hsecond
  exact ⟨e.schema, billing, other, ref, key, he.trans (congrArg some (eq_resolved hrelationships)),
    List.mem_of_getElem? href, hkey, hrest⟩

/-- The country that an order is shipped to is found by the key of the country that it is billed to: of
the two fields of that name, this one comes first. -/
theorem belongs_to_takes_first_key_orders :
    let c := (empty orders plainNames).parseAll [orderCall]
    ∃ schema billing shipping ref, c.get? 0 = some ⟨schema, .resolved [billing, shipping]⟩
      ∧ ref ∈ shipping.references ∧ shipping.field.bindNames = ["Shipping", "Country"]
      ∧ ref.foreignKey.field.bindNames = ["Billing", "CountryID"]
      ∧ (∃ g ∈ schema.fields, g.bindNames = ["Shipping", "CountryID"])
      ∧ ¬FirstOf.AtPath schema.fields ["Shipping", "Country"] "CountryID" := by
  intro c
  obtain ⟨schema, billing, shipping, ref, key, he, href, hkey, hkind, hpath, hlisted, hnames, hhome,
    hkeyPath, hname, g, hg, hgname, hignored, hgpath⟩ := orders_relationship
  refine ⟨schema, billing, shipping, ref, he, href, hpath, hkeyPath, ⟨g, hg, hgpath⟩, ?_⟩
  have hfound : c.find? ⟨"Order", none⟩ = some 0 := by decide +kernel
  have hshipping : shipping ∈ [billing, shipping] := List.mem_cons_of_mem _ (List.mem_singleton_self _)
  obtain ⟨-, name, hgives⟩ | ⟨-, index, -, -, -, hembedded, -⟩ :=
    belongs_to_takes_first_key orders plainNames [orderCall] hfound he hshipping hkind href
  · -- The name is no column, so it is that of the key.
    have hcolumn : name ∉ schema.dbNames := by
      cases hgives.asked with
      | given h =>
        rw [hlisted] at h
        cases h
      | implied candidate alone _ hcandidate h =>
        obtain rfl := Option.some.inj (hcandidate.symm.trans hkey)
        exact hnames alone name h
    obtain rfl : name = "CountryID" := ((hgives.answer.first hcolumn).name_eq).symm.trans hname
    have hplace := hgives.place hcolumn ⟨g, hg, hgname, hignored, by
      rw [Field.EndsPath, hgpath, hpath]
      rfl⟩
    rw [hpath] at hplace
    rw [← hplace, Field.EndsPath, hkeyPath]
    decide
  · rw [hhome] at hembedded
    cases hembedded

end SchemaCache

end RecordSql
