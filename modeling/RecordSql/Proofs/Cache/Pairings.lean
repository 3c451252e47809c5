/-
  RecordSql.Proofs.Cache.Pairings

  Which pairing each relationship comes from.  A schema that is found under a
  key is the one its record type has for its table, and its relationships are
  what its fields make of it and of the schemas their types have for their own
  tables, one field after the other.  Nothing but the key decides about that,
  and nothing but the key decides whether a schema counts as related to itself:
  a schema that was read for a table of its own never does.

  The invariant (`Keyed`) holds after any calls.  Calls that fail take schemas
  out again, but what they leave behind was made in the same way.
-/

import Mathlib.Data.List.Forall2
import RecordSql.Proofs.Cache.Calls
import RecordSql.Proofs.KeyFields

namespace RecordSql

/-- What is related to a list one by one is related to something in it. -/
theorem exists_of_forall₂ {α β : Type} {R : α → β → Prop} {l : List α} {l' : List β}
    (h : List.Forall₂ R l l') {b : β} (hb : b ∈ l') : ∃ a ∈ l, R a b := by
  induction h with
  | nil => cases hb
  | @cons a _ _ _ ha _ ih =>
    obtain rfl | hb := List.mem_cons.mp hb
    · exact ⟨a, List.mem_cons_self, ha⟩
    · obtain ⟨a', ha', hR⟩ := ih hb
      exact ⟨a', List.mem_cons_of_mem _ ha', hR⟩

/-- What is related one by one has equal images if related entries have. -/
theorem map_eq_of_forall₂ {α β γ : Type} {R : α → β → Prop} {f : α → γ} {g : β → γ} {l : List α}
    {l' : List β} (h : List.Forall₂ R l l') (heq : ∀ a b, R a b → g b = f a) :
    l'.map g = l.map f := by
  induction h with
  | nil => rfl
  | cons hhead _ ih => rw [List.map_cons, List.map_cons, heq _ _ hhead, ih]

/-- The relationship that a field makes, at its position, of the schema with a key and of the schema
of the record type its type leads to. -/
def SchemaKey.Makes (key : SchemaKey) (catalog : Catalog) (ns : Naming) (owner : NumberedSchema)
    (entry : Field × Nat) (r : Relationship) : Prop :=
  ∃ model related next join, entry.1.kind.model? = some model
    ∧ Schema.parse catalog ns model none = .ok related.schema
    ∧ (related.number = owner.number ↔ key = ⟨model.id, none⟩)
    ∧ (Pairing.ofField owner related entry.1).relationship entry.2 next = .ok (r, join)

namespace SchemaCache

/-- The relationships are those that the fields of the schema with a key make. -/
def MakesAll (c : SchemaCache) (key : SchemaKey) (owner : NumberedSchema) (position : Nat)
    (fields : List Field) (rs : List Relationship) : Prop :=
  List.Forall₂ (key.Makes c.catalog c.naming owner) (fields.zipIdx position) rs

/-- Each relationship is that of its field, at the position of the field. -/
theorem MakesAll.entries {c : SchemaCache} {key : SchemaKey} {owner : NumberedSchema}
    {position : Nat} {fields : List Field} {rs : List Relationship}
    (h : c.MakesAll key owner position fields rs) :
    rs.map (fun r => (r.field, r.position)) = fields.zipIdx position := by
  rw [map_eq_of_forall₂ h (f := id) fun entry r hmade => ?_, List.map_id]
  obtain ⟨_, _, _, _, -, -, -, hmade⟩ := hmade
  obtain ⟨-, hfield, hposition, -⟩ := Pairing.relationship_declared hmade
  exact Prod.ext hfield hposition

/-- What is found under a key is the schema of the key, with the relationships that its fields make
once they are resolved; and it is found under no other key. -/
structure Keyed (c : SchemaCache) : Prop where
  schema : ∀ key n, c.find? key = some n → ∃ e, c.get? n = some e
    ∧ Schema.parse c.catalog c.naming ⟨key.model, ""⟩ key.table = .ok e.schema
    ∧ ∀ rs, e.progress = .resolved rs →
        c.MakesAll key ⟨n, e.schema⟩ 0 (e.schema.fieldsAt e.schema.candidates) rs
  injective : ∀ key other n, c.find? key = some n → c.find? other = some n → key = other

variable {c c' : SchemaCache} {key : SchemaKey} {n depth : Nat} {model : ModelRef}
  {table : Option String}

theorem keyed_empty (catalog : Catalog) (naming : Naming) : (empty catalog naming).Keyed where
  schema key n h := by rw [find?_empty] at h; cases h
  injective key other n h := by rw [find?_empty] at h; cases h

namespace Keyed

theorem lt_next (h : c.Keyed) (hn : c.find? key = some n) : n < c.next := by
  obtain ⟨e, he, -⟩ := h.schema key n hn
  exact lt_next_of_get? he

/-! ## What keeps the cache keyed -/

theorem add (h : c.Keyed) (e : Entry) : (c.add e).Keyed where
  schema key n hn := by
    obtain ⟨e', he', hrest⟩ := h.schema key n hn
    refine ⟨e', ?_, hrest⟩
    rw [get?_add, if_neg (Nat.ne_of_lt (h.lt_next hn)), he']
  injective := h.injective

theorem relate {owner related position : Nat} {field : Field} {r : Relationship} (h : c.Keyed)
    (hrelate : c.relate owner related position field = (c', .ok r)) : c'.Keyed := by
  obtain ⟨-, join, -, -, rfl⟩ := relate_ok hrelate
  cases join with
  | none => exact h
  | some join => exact h.add _

/-- A schema that is installed under a key has a number that no other key leads to. -/
theorem install {schema : Schema} (h : c.Keyed)
    (hparse : Schema.parse c.catalog c.naming ⟨key.model, ""⟩ key.table = .ok schema) :
    (c.install key schema).Keyed where
  schema other n hn := by
    rw [find?_install] at hn
    rw [get?_install]
    split at hn
    · next heq =>
      cases hn
      rw [if_pos rfl, heq]
      exact ⟨{ schema }, rfl, hparse, fun rs hrs => nomatch hrs⟩
    · rw [if_neg (Nat.ne_of_lt (h.lt_next hn))]
      exact h.schema other n hn
  injective other other' n hn hn' := by
    rw [find?_install] at hn hn'
    split at hn <;> split at hn'
    · next heq heq' => rw [heq, heq']
    · cases hn
      exact absurd (h.lt_next hn') (Nat.lt_irrefl _)
    · cases hn'
      exact absurd (h.lt_next hn) (Nat.lt_irrefl _)
    · exact h.injective other other' n hn hn'

/-- A schema that is settled with relationships has those that its fields make. -/
theorem settle {schema : Schema} {progress : Progress} (h : c.Keyed)
    (hn : c.find? key = some n) (hschema : c.get? n = some { schema })
    (hmakes : ∀ rs, progress = .resolved rs →
      c.MakesAll key ⟨n, schema⟩ 0 (schema.fieldsAt schema.candidates) rs) :
    (c.settle n progress).Keyed where
  schema other m hm := by
    rw [find?_settle] at hm
    by_cases heq : n = m
    · subst heq
      obtain rfl := h.injective key other n hn hm
      obtain ⟨e, he, hparse, -⟩ := h.schema key n hn
      obtain rfl : e = { schema } := Option.some.inj (he.symm.trans hschema)
      exact ⟨⟨schema, progress⟩, by rw [get?_settle_self, hschema]; rfl, hparse, hmakes⟩
    · rw [get?_settle_of_ne _ _ heq]
      exact h.schema other m hm
  injective := h.injective

theorem remove (h : c.Keyed) (key : SchemaKey) : (c.remove key).Keyed where
  schema other n hn := by
    rw [find?_remove] at hn
    split at hn
    · cases hn
    · exact h.schema other n hn
  injective other other' n hn hn' := by
    rw [find?_remove] at hn hn'
    split at hn
    · cases hn
    · split at hn'
      · cases hn'
      · exact h.injective other other' n hn hn'

/-! ## Calls -/

/-- The relationship that is made of the schema with a key and of one that has been read. -/
theorem makes {schema : Schema} {related position : Nat} {field : Field} {r : Relationship}
    (h : c.Keyed) (hn : c.find? key = some n) (hschema : c.get? n = some { schema })
    (hmodel : field.kind.model? = some model) (hrelated : c.find? ⟨model.id, none⟩ = some related)
    (hrelate : c.relate n related position field = (c', .ok r)) :
    key.Makes c.catalog c.naming ⟨n, schema⟩ (field, position) r := by
  obtain ⟨pairing, join, hpairing, hr, -⟩ := relate_ok hrelate
  obtain ⟨e, e', he, he', rfl⟩ := pairing?_eq_some.mp hpairing
  obtain rfl : e = { schema } := Option.some.inj (he.symm.trans hschema)
  obtain ⟨e'', he'', hparse, -⟩ := h.schema _ _ hrelated
  obtain rfl : e' = e'' := Option.some.inj (he'.symm.trans he'')
  refine ⟨model, ⟨related, e'.schema⟩, c.next, join, hmodel, hparse, ⟨fun heq => ?_, fun heq => ?_⟩,
    hr⟩
  · obtain rfl : related = n := heq
    exact h.injective key _ related hn hrelated
  · rw [← heq, hn] at hrelated
    exact (Option.some.inj hrelated).symm

/-- Resolving the fields of a schema that stands installed keeps the cache keyed if reading does, and
the relationships are those that the fields make. -/
theorem relateAll {schema : Schema} {position : Nat} {fields : List Field} {name : String}
    {result : Except ParseFailure (List Relationship)}
    (hread : ∀ (c₁ : SchemaCache) (model : ModelRef), c₁.Keyed →
      (c₁.readWithin depth model none).1.Keyed)
    (h : c.Keyed) (hn : c.find? key = some n) (hschema : c.get? n = some { schema })
    (hrelate : SchemaCache.relateAll (fun c model => readWithin depth c model none) name n position
      c fields = (c', result)) :
    c'.Keyed ∧ ∀ rs, result = .ok rs → c.MakesAll key ⟨n, schema⟩ position fields rs := by
  induction fields generalizing c position result with
  | nil =>
    cases hrelate
    refine ⟨h, ?_⟩
    rintro _ ⟨⟩
    exact .nil
  | cons field fields ih =>
    -- The schema that a field leads to is read, and the schema itself stays installed meanwhile.
    have hstep : ∀ (model : ModelRef) (c₁ : SchemaCache)
        (read : Except ParseFailure Nat), c.readWithin depth model none = (c₁, read) →
        c₁.Keyed ∧ c.Grows (fun _ => True) c₁ := fun model c₁ read hr => by
      have h₁ := hread c model h
      have hgrows := (readWithin_grows depth c model none).mono (Q := fun _ => True) fun _ _ => trivial
      rw [hr] at h₁ hgrows
      exact ⟨h₁, hgrows⟩
    cases result with
    | ok rs =>
      obtain ⟨model, c₁, related, c₂, r, rest, hmodel, hr, hmade, hlater, rfl⟩ :=
        relateAll_ok hrelate
      obtain ⟨h₁, hgrows⟩ := hstep model c₁ _ hr
      have hgrows' : c₁.Grows (fun _ => True) c₂ := .of_relate_ok hmade
      have hall := hgrows.trans hgrows'
      obtain ⟨hc', hrest⟩ := ih (h₁.relate hmade) (hall.found key n hn) (hall.entries n _ hschema)
        hlater
      refine ⟨hc', ?_⟩
      rintro _ ⟨⟩
      have hfirst := h₁.makes (hgrows.found key n hn) (hgrows.entries n _ hschema) hmodel
        (find?_of_readWithin_ok hr) hmade
      have hothers := hrest rest rfl
      rw [MakesAll, hall.catalog, hall.naming] at hothers
      rw [hgrows.catalog, hgrows.naming] at hfirst
      exact .cons hfirst hothers
    | error failure =>
      refine ⟨?_, fun _ hrs => nomatch hrs⟩
      obtain ⟨rfl, -⟩ | ⟨model, -, hr | ⟨c₁, related, hr, hlast⟩⟩ := relateAll_error hrelate
      · exact h
      · exact (hstep model c' _ hr).1
      · obtain ⟨h₁, hgrows⟩ := hstep model c₁ _ hr
        obtain ⟨rfl, -⟩ | ⟨c₂, r, hmade, hlater⟩ := hlast
        · exact h₁
        · have hall := hgrows.trans (Grows.of_relate_ok (P := fun _ => True) hmade)
          exact (ih (h₁.relate hmade) (hall.found key n hn) (hall.entries n _ hschema) hlater).1

/-- The schema that a call installs stands there when its relationships come out. -/
theorem relateAll_install {schema : Schema} {result : Except ParseFailure (List Relationship)}
    (hread : ∀ (c₁ : SchemaCache) (model : ModelRef), c₁.Keyed →
      (c₁.readWithin depth model none).1.Keyed)
    (h : c.Keyed) (hparse : Schema.parse c.catalog c.naming model table = .ok schema)
    (hrelate : SchemaCache.relateAll (fun c model => readWithin depth c model none) schema.name
      c.next 0 (c.install ⟨model.id, table⟩ schema) (schema.fieldsAt schema.candidates)
        = (c', result)) :
    c'.Keyed ∧ c'.find? ⟨model.id, table⟩ = some c.next ∧ c'.get? c.next = some { schema }
      ∧ ∀ rs, result = .ok rs → c'.MakesAll ⟨model.id, table⟩ ⟨c.next, schema⟩ 0
          (schema.fieldsAt schema.candidates) rs := by
  have hfound : (c.install ⟨model.id, table⟩ schema).find? ⟨model.id, table⟩ = some c.next := by
    rw [find?_install, if_pos rfl]
  have hself : (c.install ⟨model.id, table⟩ schema).get? c.next = some { schema } := by
    rw [get?_install, if_pos rfl]
  have hinstalled : (c.install ⟨model.id, table⟩ schema).Keyed := h.install hparse
  obtain ⟨hc', hmakes⟩ := hinstalled.relateAll hread hfound hself hrelate
  have hgrows := install_relateAll_grows depth c ⟨model.id, table⟩ schema
    (schema.fieldsAt schema.candidates)
  rw [hrelate] at hgrows
  refine ⟨hc', hgrows.found _ _ hfound, hgrows.entries _ _ hself, fun rs hrs => ?_⟩
  rw [MakesAll, hgrows.catalog, hgrows.naming]
  exact hmakes rs hrs

/-- A call keeps the cache keyed, whether or not it fails. -/
theorem readWithin (h : c.Keyed) : (c.readWithin depth model table).1.Keyed := by
  induction depth generalizing c model table with
  | zero => exact h
  | succ depth ih =>
    have hread : ∀ (c₁ : SchemaCache) (model : ModelRef), c₁.Keyed →
        (c₁.readWithin depth model none).1.Keyed := fun c₁ model hc₁ => ih hc₁
    cases hresult : c.readWithin (depth + 1) model table with
    | mk c' result =>
      cases result with
      | ok n =>
        obtain ⟨-, rfl⟩ | ⟨schema, rs, c₁, -, hparse, hrelate, rfl, rfl⟩ := readWithin_ok hresult
        · exact h
        · obtain ⟨h₁, hfound, hself, hmakes⟩ := h.relateAll_install hread hparse hrelate
          refine h₁.settle hfound hself ?_
          rintro _ ⟨⟩
          exact hmakes rs rfl
      | error failure =>
        obtain ⟨-, ⟨rfl, -⟩ | ⟨schema, c₁, hparse, hrelate, rfl⟩⟩ := readWithin_error hresult
        · exact h
        · obtain ⟨h₁, hfound, hself, -⟩ := h.relateAll_install hread hparse hrelate
          exact (h₁.settle hfound hself (by rintro _ ⟨⟩)).remove _

theorem parse (h : c.Keyed) (model : ModelRef) (table : Option String) :
    (c.parse model table).1.Keyed := by
  rw [parse_fst]
  exact h.readWithin

theorem parseAll (h : c.Keyed) (calls : List ParseCall) : (c.parseAll calls).Keyed := by
  induction calls generalizing c with
  | nil => exact h
  | cons call calls ih => exact ih (h.parse call.model call.table)

end Keyed

/-- At rest, what is found is the schema of the key with all relationships that its fields make. -/
theorem Keyed.resolved (h : c.Keyed) (hc : c.AtRest) (hn : c.find? key = some n) :
    ∃ schema rs, c.get? n = some ⟨schema, .resolved rs⟩
      ∧ Schema.parse c.catalog c.naming ⟨key.model, ""⟩ key.table = .ok schema
      ∧ c.MakesAll key ⟨n, schema⟩ 0 (schema.fieldsAt schema.candidates) rs := by
  obtain ⟨schema, rs, he⟩ := hc key n hn
  obtain ⟨e, he', hparse, hmakes⟩ := h.schema key n hn
  obtain rfl : e = ⟨schema, .resolved rs⟩ := Option.some.inj (he'.symm.trans he)
  exact ⟨schema, rs, he, hparse, hmakes rs rfl⟩

end SchemaCache

end RecordSql
