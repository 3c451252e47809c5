/-
  RecordSql.Proofs.Cache.Origins

  Where the schemas in a cache come from, whatever calls were made and whether
  or not they failed.  Each was read for a record type or is the join table of
  two others, and each of its relationships is what its pairing with another
  schema of the cache makes of a field (`Stems`, `Makes`).

  Unlike `Complete` this says nothing about what is found under a key, so a
  schema that was taken out again has its origin too, and the relationships
  that lead to it are no exception.
-/

import RecordSql.Proofs.Cache.Resolved

namespace RecordSql

/-- A join table comes with a many-to-many relationship, as the one that its tag asks for. -/
theorem Pairing.joinTable_of_relationship {p : Pairing} {position next : Nat} {r : Relationship}
    {table : JoinTable} (h : p.relationship position next = .ok (r, some table)) :
    ∃ given, p.joinTable next given = .ok table ∧ r.kind = .manyToMany
      ∧ r.references = table.references
      ∧ r.joinTable = some (NumberedSchema.mk next table.schema).ref := by
  cases madeAs_of_relationship h with
  | @linked given _ _ htable => exact ⟨given, htable, rfl, rfl, rfl⟩

namespace SchemaCache

/-- The number leads to the schema. -/
def HasSchema (c : SchemaCache) (s : NumberedSchema) : Prop :=
  (c.get? s.number).map (·.schema) = some s.schema

/-- The relationship is what the pairing of the owner with some schema makes of a field, and its
join table was added. -/
def Makes (c : SchemaCache) (owner : NumberedSchema) (r : Relationship) : Prop :=
  ∃ related field position next join, c.HasSchema related
    ∧ (Pairing.ofField owner related field).relationship position next = .ok (r, join)
    ∧ ∀ table, join = some table → c.get? next = some ⟨table.schema, .resolved table.links⟩

/-- How an entry came to have its number. -/
inductive Stems (c : SchemaCache) (n : Nat) : Entry → Prop
  | read {model : ModelRef} {table : Option String} {schema : Schema} {progress : Progress} :
      Schema.parse c.catalog c.naming model table = .ok schema →
      (∀ rs, progress = .resolved rs → ∀ r ∈ rs, c.Makes ⟨n, schema⟩ r) →
      Stems c n ⟨schema, progress⟩
  | join {owner related : NumberedSchema} {field : Field} {given : String} {table : JoinTable} :
      c.HasSchema owner → c.HasSchema related →
      (Pairing.ofField owner related field).joinTable n given = .ok table →
      Stems c n ⟨table.schema, .resolved table.links⟩

/-- Every entry has an origin. -/
def Traced (c : SchemaCache) : Prop := ∀ n e, c.get? n = some e → c.Stems n e

variable {c c' : SchemaCache} {n : Nat} {e : Entry}

/-! ## What keeps origins -/

/-- Schemas stay as they are but for relationships that were under way. -/
structure Retains (c c' : SchemaCache) : Prop where
  catalog : c'.catalog = c.catalog
  naming : c'.naming = c.naming
  schemas : ∀ n schema, (c.get? n).map (·.schema) = some schema →
    (c'.get? n).map (·.schema) = some schema
  resolved : ∀ n schema rs, c.get? n = some ⟨schema, .resolved rs⟩ →
    c'.get? n = some ⟨schema, .resolved rs⟩

theorem Keeps.retains (h : c.Keeps c') : c.Retains c' := { h with }

/-- What is found under a key has no part in it. -/
theorem retains_installed (c : SchemaCache) (installed : List (SchemaKey × Nat)) :
    c.Retains { c with installed } :=
  ⟨rfl, rfl, fun _ _ h => h, fun _ _ _ h => h⟩

theorem HasSchema.retains {s : NumberedSchema} (hs : c.HasSchema s) (h : c.Retains c') :
    c'.HasSchema s := h.schemas _ _ hs

theorem Makes.retains {owner : NumberedSchema} {r : Relationship} (hr : c.Makes owner r)
    (h : c.Retains c') : c'.Makes owner r := by
  obtain ⟨related, field, position, next, join, hrelated, hrelationship, hjoin⟩ := hr
  exact ⟨related, field, position, next, join, hrelated.retains h, hrelationship,
    fun table htable => h.resolved _ _ _ (hjoin table htable)⟩

theorem Stems.retains (hn : c.Stems n e) (h : c.Retains c') : c'.Stems n e := by
  cases hn with
  | read hparse hmakes =>
    refine .read (h.catalog ▸ h.naming ▸ hparse) fun rs hrs r hr => (hmakes rs hrs r hr).retains h
  | join howner hrelated hjoin => exact .join (howner.retains h) (hrelated.retains h) hjoin

theorem traced_empty (catalog : Catalog) (naming : Naming) : (empty catalog naming).Traced :=
  fun _ _ h => nomatch h

theorem Traced.installed (h : c.Traced) (installed : List (SchemaKey × Nat)) :
    { c with installed }.Traced :=
  fun n e hn => (h n e hn).retains (retains_installed c installed)

theorem Traced.add (h : c.Traced) (he : (c.add e).Stems c.next e) : (c.add e).Traced := by
  intro n e' hn
  rw [get?_add] at hn
  split at hn
  · next heq =>
    cases hn
    exact heq ▸ he
  · exact (h n e' hn).retains (Grows.add (P := fun _ => True) c e).keeps.retains

theorem Traced.install {key : SchemaKey} {schema : Schema} {model : ModelRef}
    {table : Option String} (h : c.Traced)
    (hparse : Schema.parse c.catalog c.naming model table = .ok schema) :
    (c.install key schema).Traced := by
  have hadd : (c.add { schema }).Traced := h.add (.read hparse fun _ hrs => nomatch hrs)
  exact hadd.installed _

/-- A schema whose relationships were under way is settled. -/
theorem Traced.settle {schema : Schema} {progress : Progress} {model : ModelRef}
    {table : Option String} (h : c.Traced) (hn : c.get? n = some { schema })
    (hparse : Schema.parse c.catalog c.naming model table = .ok schema)
    (hmakes : ∀ rs, progress = .resolved rs → ∀ r ∈ rs, c.Makes ⟨n, schema⟩ r) :
    (c.settle n progress).Traced := by
  have hretains := (keeps_settle hn progress).retains
  intro m e he
  by_cases heq : n = m
  · rw [← heq, get?_settle_self, hn] at he
    cases he
    exact heq ▸ .read hparse fun rs hrs r hr => (hmakes rs hrs r hr).retains hretains
  · rw [get?_settle_of_ne _ _ heq] at he
    exact (h m e he).retains hretains

/-! ## Calls -/

variable {depth : Nat} {model : ModelRef} {table : Option String}

theorem retains_readWithin (depth : Nat) (c : SchemaCache) (model : ModelRef)
    (table : Option String) : c.Retains (c.readWithin depth model table).1 :=
  (readWithin_grows depth c model table).keeps.retains

theorem retains_relate {owner related position : Nat} {field : Field} {r : Relationship}
    (h : c.relate owner related position field = (c', .ok r)) : c.Retains c' :=
  (Grows.of_relate_ok (P := fun _ => True) h).keeps.retains

/-- Resolving the fields of a schema, where the schemas that they lead to are read. -/
def relateFields (depth : Nat) (name : String) (owner position : Nat) (c : SchemaCache)
    (fields : List Field) : SchemaCache × Except ParseFailure (List Relationship) :=
  relateAll (fun c model => readWithin depth c model none) name owner position c fields

theorem retains_relateFields (depth : Nat) (name : String) (owner position : Nat) (c : SchemaCache)
    (fields : List Field) : c.Retains (relateFields depth name owner position c fields).1 := by
  have hgrows : c.Grows (fun _ => True) (relateFields depth name owner position c fields).1 :=
    relateAll_grows fun _ _ model _ c₁ _ =>
      (readWithin_grows depth c₁ model none).mono fun _ _ => trivial
  exact hgrows.keeps.retains

/-- A relationship that is made, and its join table. -/
theorem Traced.relate {owner : NumberedSchema} {related position : Nat} {field : Field}
    {r : Relationship} (h : c.Traced) (howner : c.HasSchema owner)
    (hrelate : c.relate owner.number related position field = (c', .ok r)) :
    c'.Traced ∧ c'.Makes owner r := by
  have hretains := retains_relate hrelate
  obtain ⟨pairing, join, hpairing, hrelationship, rfl⟩ := relate_ok hrelate
  obtain ⟨e, he, hschema⟩ := Option.map_eq_some_iff.mp howner
  obtain ⟨e₁, e', he₁, he', rfl⟩ := pairing?_eq_some.mp hpairing
  obtain rfl : e₁ = e := Option.some.inj (he₁.symm.trans he)
  rw [hschema] at hrelationship
  have hrelated : c.HasSchema ⟨related, e'.schema⟩ := Option.map_eq_some_iff.mpr ⟨e', he', rfl⟩
  cases join with
  | none =>
    exact ⟨h, ⟨related, e'.schema⟩, field, position, c.next, none, hrelated, hrelationship,
      fun _ htable => nomatch htable⟩
  | some table =>
    obtain ⟨given, hgiven, -⟩ := Pairing.joinTable_of_relationship hrelationship
    refine ⟨h.add (.join (howner.retains hretains) (hrelated.retains hretains) hgiven),
      ⟨related, e'.schema⟩, field, position, c.next, some table, hrelated.retains hretains,
      hrelationship, ?_⟩
    rintro _ ⟨⟩
    rw [get?_add, if_pos rfl]

/-- If reading keeps the cache traced, so does resolving fields. -/
theorem Traced.relateFields {name : String} {owner : NumberedSchema} {position : Nat}
    {fields : List Field} (hc : c.Traced) (howner : c.HasSchema owner)
    (hread : ∀ (c₁ : SchemaCache) (model : ModelRef), c₁.Traced →
      (readWithin depth c₁ model none).1.Traced) :
    (SchemaCache.relateFields depth name owner.number position c fields).1.Traced := by
  induction fields generalizing c position with
  | nil => exact hc
  | cons field fields ih =>
    -- Whatever comes first, the owner is still there when the rest is resolved.
    have hlater : ∀ (model : ModelRef) (c₁ c₂ : SchemaCache) (related : Nat) (r : Relationship),
        c.readWithin depth model none = (c₁, .ok related) →
        c₁.relate owner.number related position field = (c₂, .ok r) →
        (SchemaCache.relateFields depth name owner.number (position + 1) c₂ fields).1.Traced := by
      intro model c₁ c₂ related r hr hrelate
      have hc₁ := hread c model hc
      have hretains := retains_readWithin depth c model none
      rw [hr] at hc₁ hretains
      have howner₁ := howner.retains hretains
      exact ih (hc₁.relate howner₁ hrelate).1 (howner₁.retains (retains_relate hrelate))
    cases hresult : SchemaCache.relateFields depth name owner.number position c (field :: fields) with
    | mk c' result =>
      cases result with
      | ok rs =>
        obtain ⟨model, c₁, related, c₂, r, rest, -, hr, hrelate, hrest, rfl⟩ := relateAll_ok hresult
        have hc' := hlater model c₁ c₂ related r hr hrelate
        rwa [SchemaCache.relateFields, hrest] at hc'
      | error failure =>
        obtain ⟨rfl, -⟩ | ⟨model, -, hr | ⟨c₁, related, hr, hlast⟩⟩ := relateAll_error hresult
        · exact hc
        · have hc₁ := hread c model hc
          rwa [hr] at hc₁
        · obtain ⟨rfl, -⟩ | ⟨c₂, r, hrelate, hrest⟩ := hlast
          · have hc₁ := hread c model hc
            rwa [hr] at hc₁
          · have hc' := hlater model c₁ c₂ related r hr hrelate
            rwa [SchemaCache.relateFields, hrest] at hc'

/-- And the relationships are made. -/
theorem Traced.makes_of_relateFields {name : String} {owner : NumberedSchema} {position : Nat}
    {fields : List Field} {rs : List Relationship} (hc : c.Traced) (howner : c.HasSchema owner)
    (hread : ∀ (c₁ : SchemaCache) (model : ModelRef), c₁.Traced →
      (readWithin depth c₁ model none).1.Traced)
    (h : SchemaCache.relateFields depth name owner.number position c fields = (c', .ok rs)) :
    ∀ r ∈ rs, c'.Makes owner r := by
  induction fields generalizing c position rs with
  | nil =>
    cases h
    exact List.forall_mem_nil _
  | cons field fields ih =>
    obtain ⟨model, c₁, related, c₂, r, rest, -, hr, hrelate, hrest, rfl⟩ := relateAll_ok h
    have hc₁ := hread c model hc
    have hretains := retains_readWithin depth c model none
    rw [hr] at hc₁ hretains
    have howner₁ := howner.retains hretains
    obtain ⟨hc₂, hmakes⟩ := hc₁.relate howner₁ hrelate
    have hlater := retains_relateFields depth name owner.number (position + 1) c₂ fields
    rw [SchemaCache.relateFields, hrest] at hlater
    exact List.forall_mem_cons.mpr ⟨hmakes.retains hlater,
      ih hc₂ (howner₁.retains (retains_relate hrelate)) hrest⟩

/-- The schema that a call adds has its origin while its relationships are under way. -/
theorem Traced.relateFields_install {schema : Schema}
    {result : Except ParseFailure (List Relationship)} (hc : c.Traced)
    (hread : ∀ (c₁ : SchemaCache) (model : ModelRef), c₁.Traced →
      (SchemaCache.readWithin depth c₁ model none).1.Traced)
    (hparse : Schema.parse c.catalog c.naming model table = .ok schema)
    (h : SchemaCache.relateFields depth schema.name c.next 0 (c.install ⟨model.id, table⟩ schema)
      (schema.fieldsAt schema.candidates) = (c', result)) :
    c'.Traced ∧ c'.get? c.next = some { schema }
      ∧ Schema.parse c'.catalog c'.naming model table = .ok schema
      ∧ ∀ rs, result = .ok rs → ∀ r ∈ rs, c'.Makes ⟨c.next, schema⟩ r := by
  have hinstalled : (c.install ⟨model.id, table⟩ schema).Traced := hc.install hparse
  have hself : (c.install ⟨model.id, table⟩ schema).get? c.next = some { schema } := by
    rw [get?_install, if_pos rfl]
  have howner : (c.install ⟨model.id, table⟩ schema).HasSchema ⟨c.next, schema⟩ := by
    rw [HasSchema, hself]
    rfl
  have hc' : (SchemaCache.relateFields depth schema.name c.next 0
      (c.install ⟨model.id, table⟩ schema) (schema.fieldsAt schema.candidates)).1.Traced :=
    hinstalled.relateFields howner hread
  rw [h] at hc'
  have hgrows := install_relateAll_grows depth c ⟨model.id, table⟩ schema
    (schema.fieldsAt schema.candidates)
  rw [show relateAll _ _ _ _ _ _ = (c', result) from h] at hgrows
  have hcatalog : c'.catalog = c.catalog := hgrows.catalog
  have hnaming : c'.naming = c.naming := hgrows.naming
  refine ⟨hc', hgrows.entries _ _ hself, hcatalog ▸ hnaming ▸ hparse, ?_⟩
  rintro rs rfl
  exact hinstalled.makes_of_relateFields howner hread h

/-- A call keeps the cache traced, whether or not it fails. -/
theorem Traced.readWithin (hc : c.Traced) : (c.readWithin depth model table).1.Traced := by
  induction depth generalizing c model table with
  | zero => exact hc
  | succ depth ih =>
    have hread : ∀ (c₁ : SchemaCache) (model : ModelRef), c₁.Traced →
        (SchemaCache.readWithin depth c₁ model none).1.Traced :=
      fun c₁ model hc₁ => ih hc₁
    cases hresult : c.readWithin (depth + 1) model table with
    | mk c' result =>
      cases result with
      | ok n =>
        obtain ⟨-, rfl⟩ | ⟨schema, rs, c₁, -, hparse, hrelate, rfl, rfl⟩ := readWithin_ok hresult
        · exact hc
        · obtain ⟨hc₁, hself, hparse₁, hmakes⟩ := hc.relateFields_install hread hparse hrelate
          refine hc₁.settle hself hparse₁ ?_
          rintro _ ⟨⟩
          exact hmakes rs rfl
      | error failure =>
        obtain ⟨-, ⟨rfl, -⟩ | ⟨schema, c₁, hparse, hrelate, rfl⟩⟩ := readWithin_error hresult
        · exact hc
        · obtain ⟨hc₁, hself, hparse₁, -⟩ := hc.relateFields_install hread hparse hrelate
          have hsettled : (c₁.settle c.next (.failed failure)).Traced :=
            hc₁.settle hself hparse₁ fun _ h => nomatch h
          exact hsettled.installed _

/-- After any calls every schema has its origin. -/
theorem Traced.parseAll (hc : c.Traced) (calls : List ParseCall) : (c.parseAll calls).Traced := by
  induction calls generalizing c with
  | nil => exact hc
  | cons call calls ih =>
    have hcall : (c.parse call.model call.table).1.Traced := by
      rw [parse_fst]
      exact hc.readWithin
    exact ih hcall

end SchemaCache

end RecordSql
