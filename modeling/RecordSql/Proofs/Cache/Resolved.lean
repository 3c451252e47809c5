/-
  RecordSql.Proofs.Cache.Resolved

  What a schema looks like once its relationships are resolved, as long as no
  call fails.  Each relationship is what the pairing of two schemas makes of a
  field: the schema that has the field, and the one that is found for the type
  the field leads to (`Declares`).  So a schema is complete as soon as it is
  resolved (`Complete`), although the schemas it leads to may still be under
  way then; they are found under the same numbers later.
-/

import RecordSql.Proofs.Cache.Termination
import RecordSql.Proofs.KeyFields

namespace RecordSql

/-- What a relationship takes over from its pairing; a join table comes with the next number. -/
theorem Pairing.relationship_ok {p : Pairing} {position next : Nat} {r : Relationship}
    {join : Option JoinTable} (h : p.relationship position next = .ok (r, join)) :
    r.field = p.field ∧ r.related = p.related.ref
      ∧ r.joinTable.map (·.number) = join.map fun _ => next := by
  cases madeAs_of_relationship h <;> exact ⟨rfl, rfl, rfl⟩

namespace SchemaCache

/-- The relationship is the one that the field of `owner` declares: with the schema that is found
for the record type of the field, and with the join table that was added for it. -/
def Declares (c : SchemaCache) (owner : NumberedSchema) (position : Nat) (field : Field)
    (r : Relationship) : Prop :=
  ∃ model related next join, field.kind.model? = some model
    ∧ c.find? ⟨model.id, none⟩ = some related.number
    ∧ (c.get? related.number).map (·.schema) = some related.schema
    ∧ (Pairing.ofField owner related field).relationship position next = .ok (r, join)
    ∧ ∀ table, join = some table → c.get? next = some ⟨table.schema, .resolved table.links⟩

/-- The relationships are those that the fields declare, one after the other. -/
inductive Resolves (c : SchemaCache) (owner : NumberedSchema) :
    Nat → List Field → List Relationship → Prop where
  | nil {position : Nat} : Resolves c owner position [] []
  | cons {position : Nat} {field : Field} {fields : List Field} {r : Relationship}
      {rs : List Relationship} : Declares c owner position field r →
      Resolves c owner (position + 1) fields rs →
      Resolves c owner position (field :: fields) (r :: rs)

/-- The number leads to the schema of the key, with all relationships that its fields declare. -/
def Complete (c : SchemaCache) (key : SchemaKey) (n : Nat) : Prop :=
  ∃ schema rs, Schema.parse c.catalog c.naming ⟨key.model, ""⟩ key.table = .ok schema
    ∧ c.get? n = some ⟨schema, .resolved rs⟩
    ∧ Resolves c ⟨n, schema⟩ 0 (schema.fieldsAt schema.candidates) rs

variable {P : SchemaKey → Prop} {c c' c'' : SchemaCache} {key : SchemaKey} {n : Nat}

/-! ## What later calls keep -/

/-- What is found stays found, and schemas stay as they are but for relationships that were under
way. -/
structure Keeps (c c' : SchemaCache) : Prop where
  catalog : c'.catalog = c.catalog
  naming : c'.naming = c.naming
  found : ∀ key n, c.find? key = some n → c'.find? key = some n
  schemas : ∀ n schema, (c.get? n).map (·.schema) = some schema →
    (c'.get? n).map (·.schema) = some schema
  resolved : ∀ n schema rs, c.get? n = some ⟨schema, .resolved rs⟩ →
    c'.get? n = some ⟨schema, .resolved rs⟩

theorem Grows.keeps (h : c.Grows P c') : c.Keeps c' where
  catalog := h.catalog
  naming := h.naming
  found := h.found
  schemas n schema hn := by
    obtain ⟨e, he, hschema⟩ := Option.map_eq_some_iff.mp hn
    exact Option.map_eq_some_iff.mpr ⟨e, h.entries n e he, hschema⟩
  resolved n schema rs hn := h.entries n _ hn

/-- A schema whose relationships were under way is settled. -/
theorem keeps_settle {schema : Schema} (h : c.get? n = some { schema }) (progress : Progress) :
    c.Keeps (c.settle n progress) where
  catalog := rfl
  naming := rfl
  found _ _ h := h
  schemas m s hm := by
    by_cases hmn : n = m
    · rw [← hmn, get?_settle_self, Option.map_map]
      rw [← hmn] at hm
      exact hm
    · rwa [get?_settle_of_ne _ _ hmn]
  resolved m s rs hm := by
    have hmn : n ≠ m := fun heq => by
      rw [← heq, h] at hm
      cases hm
    rwa [get?_settle_of_ne _ _ hmn]

theorem Declares.keeps {owner : NumberedSchema} {position : Nat} {field : Field} {r : Relationship}
    (hr : c.Declares owner position field r) (h : c.Keeps c') :
    c'.Declares owner position field r := by
  obtain ⟨model, related, next, join, hmodel, hfound, hschema, hrelationship, hjoin⟩ := hr
  exact ⟨model, related, next, join, hmodel, h.found _ _ hfound, h.schemas _ _ hschema,
    hrelationship, fun table htable => h.resolved _ _ _ (hjoin table htable)⟩

theorem Resolves.keeps {owner : NumberedSchema} {position : Nat} {fields : List Field}
    {rs : List Relationship} (hrs : c.Resolves owner position fields rs) (h : c.Keeps c') :
    c'.Resolves owner position fields rs := by
  induction hrs with
  | nil => exact .nil
  | cons hr _ ih => exact .cons (hr.keeps h) ih

theorem Complete.keeps (hkey : c.Complete key n) (h : c.Keeps c') : c'.Complete key n := by
  obtain ⟨schema, rs, hparse, he, hrs⟩ := hkey
  refine ⟨schema, rs, ?_, h.resolved _ _ _ he, hrs.keeps h⟩
  rw [h.catalog, h.naming]
  exact hparse

/-! ## Calls that succeed -/

/-- From `c` to `c'` no call failed: what is found besides is complete. -/
structure Completes (c c' : SchemaCache) : Prop where
  grows : c.Grows (fun _ => True) c'
  complete : ∀ key n, c'.find? key = some n → c.find? key = none → c'.Complete key n

theorem Completes.refl (c : SchemaCache) : c.Completes c where
  grows := .refl c
  complete key n h hnone := by rw [hnone] at h; cases h

theorem Completes.trans (h : c.Completes c') (h' : c'.Completes c'') : c.Completes c'' where
  grows := h.grows.trans h'.grows
  complete key n hn hnone := by
    cases hmid : c'.find? key with
    | none => exact h'.complete key n hn hmid
    | some m =>
      have hm : m = n := Option.some.inj ((h'.grows.found key m hmid).symm.trans hn)
      exact hm ▸ (h.complete key m hmid hnone).keeps h'.grows.keeps

/-- A relationship that is made is the one its field declares. -/
theorem declares_of_relate_ok {owner : NumberedSchema} {related position : Nat} {field : Field}
    {model : ModelRef} {r : Relationship} (hmodel : field.kind.model? = some model)
    (howner : (c.get? owner.number).map (·.schema) = some owner.schema)
    (hrelated : c.find? ⟨model.id, none⟩ = some related)
    (h : c.relate owner.number related position field = (c', .ok r)) :
    c.Completes c' ∧ c'.Declares owner position field r := by
  have hgrows : c.Grows (fun _ => True) c' := .of_relate_ok h
  obtain ⟨pairing, join, hpairing, hrelationship, rfl⟩ := relate_ok h
  obtain ⟨e, he, hschema⟩ := Option.map_eq_some_iff.mp howner
  -- The pairing is of the two schemas that their numbers lead to.
  obtain ⟨e₁, e', he₁, he', rfl⟩ := pairing?_eq_some.mp hpairing
  obtain rfl : e₁ = e := Option.some.inj (he₁.symm.trans he)
  rw [hschema] at hrelationship
  have hfound : ∀ c'' : SchemaCache, c.Keeps c'' →
      c''.find? ⟨model.id, none⟩ = some related
        ∧ (c''.get? related).map (·.schema) = some e'.schema :=
    fun c'' hkeeps => ⟨hkeeps.found _ _ hrelated,
      hkeeps.schemas _ _ (Option.map_eq_some_iff.mpr ⟨e', he', rfl⟩)⟩
  obtain ⟨hfound, hsame⟩ := hfound _ hgrows.keeps
  refine ⟨⟨hgrows, fun key n hn hnone => ?_⟩,
    model, ⟨related, e'.schema⟩, c.next, join, hmodel, hfound, hsame, hrelationship, ?_⟩
  · cases join with
    | none => rw [hnone] at hn; cases hn
    | some join => rw [find?_add, hnone] at hn; cases hn
  · rintro table rfl
    rw [get?_add, if_pos rfl]

/-- If every read that the fields ask for completes what it finds, resolving them gives the
relationships they declare. -/
theorem relateAll_resolves {read : SchemaCache → ModelRef → SchemaCache × Except ParseFailure Nat}
    {name : String} (owner : NumberedSchema) {position : Nat} {fields : List Field}
    {rs : List Relationship}
    (hread : ∀ (c₁ : SchemaCache) (model : ModelRef) (c₂ : SchemaCache) (n : Nat),
      read c₁ model = (c₂, .ok n) → c₁.Completes c₂ ∧ c₂.find? ⟨model.id, none⟩ = some n)
    (howner : (c.get? owner.number).map (·.schema) = some owner.schema)
    (h : relateAll read name owner.number position c fields = (c', .ok rs)) :
    c.Completes c' ∧ c'.Resolves owner position fields rs := by
  induction fields generalizing c position rs with
  | nil =>
    cases h
    exact ⟨.refl _, .nil⟩
  | cons field fields ih =>
    obtain ⟨model, c₁, related, c₂, r, rs, hmodel, hr, hrelate, hlater, rfl⟩ := relateAll_ok h
    obtain ⟨h₁, hfound⟩ := hread c model c₁ related hr
    have howner₁ := h₁.grows.keeps.schemas _ _ howner
    obtain ⟨h₂, hdeclares⟩ := declares_of_relate_ok hmodel howner₁ hfound hrelate
    obtain ⟨h₃, hresolves⟩ := ih (h₂.grows.keeps.schemas _ _ howner₁) hlater
    exact ⟨h₁.trans (h₂.trans h₃), .cons (hdeclares.keeps h₃.grows.keeps) hresolves⟩

/-- Reading a schema completes what it finds. -/
theorem readWithin_completes {depth : Nat} {model : ModelRef} {table : Option String}
    (h : c.readWithin depth model table = (c', .ok n)) : c.Completes c' := by
  have hgrows : c.Grows (fun _ => True) c' := by
    have h₁ := readWithin_grows depth c model table
    rw [h] at h₁
    exact h₁.mono fun _ _ => trivial
  induction depth generalizing c c' n model table with
  | zero => cases h
  | succ depth ih =>
    obtain ⟨-, rfl⟩ | ⟨schema, rs, c₁, hnone, hparse, hrelate, rfl, rfl⟩ := readWithin_ok h
    · exact .refl _
    · have hself : (c.install ⟨model.id, table⟩ schema).get? c.next = some { schema } := by
        rw [get?_install, if_pos rfl]
      obtain ⟨h₁, hresolves⟩ := relateAll_resolves ⟨c.next, schema⟩
        (fun c₂ inner c₃ m hr => by
          have hinner := readWithin_grows depth c₂ inner none
          rw [hr] at hinner
          exact ⟨ih hr (hinner.mono fun _ _ => trivial), find?_of_readWithin_ok hr⟩)
        (by rw [hself]; rfl) hrelate
      have hkeeps := keeps_settle (h₁.grows.entries _ _ hself) (.resolved rs)
      refine ⟨hgrows, fun key n hn hkey => ?_⟩
      rw [find?_settle] at hn
      by_cases heq : key = ⟨model.id, table⟩
      · -- The schema itself, settled last.
        have hinstalled : (c.install ⟨model.id, table⟩ schema).find? key = some c.next := by
          rw [find?_install, if_pos heq]
        obtain rfl : c.next = n :=
          Option.some.inj ((h₁.grows.found key c.next hinstalled).symm.trans hn)
        refine ⟨schema, rs, ?_, ?_, hresolves.keeps hkeeps⟩
        · have hcatalog : (c₁.settle c.next (.resolved rs)).catalog = c.catalog := hgrows.catalog
          have hnaming : (c₁.settle c.next (.resolved rs)).naming = c.naming := hgrows.naming
          rw [hcatalog, hnaming, heq]
          exact hparse
        · rw [get?_settle_self, h₁.grows.entries _ _ hself]
          rfl
      · exact (h₁.complete key n hn (by rw [find?_install, if_neg heq, hkey])).keeps hkeeps

/-! ## Calls none of which fails -/

/-- Every one of the calls, made one after the other, gives a schema. -/
def Succeeds (c : SchemaCache) : List ParseCall → Prop
  | [] => True
  | call :: calls =>
    (∃ n, (c.parse call.model call.table).2 = .ok n)
      ∧ (c.parse call.model call.table).1.Succeeds calls

instance decidableIsOk {ε α : Type} : (x : Except ε α) → Decidable (∃ a, x = .ok a)
  | .ok a => isTrue ⟨a, rfl⟩
  | .error _ => isFalse (by rintro ⟨_, h⟩; cases h)

instance decidableSucceeds : (c : SchemaCache) → (calls : List ParseCall) →
    Decidable (c.Succeeds calls)
  | _, [] => isTrue trivial
  | c, call :: calls =>
    have := decidableSucceeds (c.parse call.model call.table).1 calls
    inferInstanceAs (Decidable ((∃ n, (c.parse call.model call.table).2 = .ok n)
      ∧ (c.parse call.model call.table).1.Succeeds calls))

theorem AtRest.completes_of_succeeds (hc : c.AtRest) {calls : List ParseCall}
    (h : c.Succeeds calls) : c.Completes (c.parseAll calls) := by
  induction calls generalizing c with
  | nil => exact .refl c
  | cons call calls ih =>
    obtain ⟨⟨n, hn⟩, hlater⟩ := h
    have hcall : c.read call.model call.table = ((c.parse call.model call.table).1, .ok n) := by
      rw [← hc.parse_eq_read, ← hn]
    have hrest := (parse_grows c call.model call.table).atRest hc
    exact (readWithin_completes hcall).trans (ih hrest hlater)

/-- What is found after calls none of which failed is complete. -/
theorem complete_of_succeeds {catalog : Catalog} {naming : Naming} {calls : List ParseCall}
    (h : (empty catalog naming).Succeeds calls)
    (hn : ((empty catalog naming).parseAll calls).find? key = some n) :
    ((empty catalog naming).parseAll calls).Complete key n :=
  ((atRest_empty catalog naming).completes_of_succeeds h).complete key n hn (find?_empty ..)

end SchemaCache

end RecordSql
