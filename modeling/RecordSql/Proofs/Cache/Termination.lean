/-
  RecordSql.Proofs.Cache.Termination

  When a call ends.  Reading a schema asks for others while its relationships
  are resolved, and so on (`Pending.Asks`).  A schema that has been read is
  found, so no cycle of relationships goes on for ever; a record type that
  embeds itself is not looked up and does (`Pending.IsStuck`).

  The depth that a call allows for is no limit.  On the way down stand distinct
  record types, those whose schemas are installed and not yet resolved: they
  would be found if they came up again.  There are not more of them than the
  catalog has.
-/

import RecordSql.Proofs.Cache.Calls
import RecordSql.Proofs.EmbeddingCycles

namespace RecordSql

namespace SchemaCache

variable {P : SchemaKey → Prop} {c c' : SchemaCache}

/-- Every key that is found leads to a schema. -/
def Numbered (c : SchemaCache) : Prop := ∀ key n, c.find? key = some n → n < c.next

theorem AtRest.numbered (hc : c.AtRest) : c.Numbered := by
  intro key n h
  obtain ⟨schema, rs, he⟩ := hc key n h
  exact lt_next_of_get? he

theorem Grows.numbered (h : c.Grows P c') (hc : c.Numbered) : c'.Numbered := by
  intro key n hn
  cases hold : c.find? key with
  | none =>
    obtain ⟨-, -, schema, rs, he⟩ := h.fresh key n hn hold
    exact lt_next_of_get? he
  | some m =>
    have hm : m = n := Option.some.inj ((h.found key m hold).symm.trans hn)
    exact hm ▸ Nat.lt_of_lt_of_le (hc key m hold) h.next_le

theorem Numbered.install (hc : c.Numbered) (key : SchemaKey) (schema : Schema) :
    (c.install key schema).Numbered := by
  intro other n hn
  rw [find?_install] at hn
  rw [next_install]
  split at hn
  · cases hn
    omega
  · have hlt := hc other n hn
    omega

/-- Two schemas that have been read can be paired, so that their relationship is made or refused. -/
theorem relate_ne_endless {owner related : Nat} (position : Nat) (field : Field)
    (howner : owner < c.next) (hrelated : related < c.next) :
    (c.relate owner related position field).2 ≠ .error .endless := by
  obtain ⟨e, he⟩ := exists_get? howner
  obtain ⟨e', he'⟩ := exists_get? hrelated
  have hpairing : c.pairing? owner related field
      = some (.ofField ⟨owner, e.schema⟩ ⟨related, e'.schema⟩ field) := by
    rw [pairing?, he, he']
    rfl
  rw [relate, hpairing]
  dsimp only
  split <;> simp

/-! ## Relationships that are resolved one after the other -/

section Fields

variable {read read' : SchemaCache → ModelRef → SchemaCache × Except ParseFailure Nat} {name : String}
  {owner position : Nat} {fields before after : List Field} {field : Field} {model : ModelRef}
  {rs : List Relationship}

/-- If the relationships of the fields do not come to an end, that is for the schema that one of them
asks for. -/
theorem relateAll_endless (hc : c.Numbered) (howner : owner < c.next)
    (hread : ∀ field ∈ fields, ∀ model, field.kind.model? = some model →
      ∀ c₁ : SchemaCache, c.Grows P c₁ → c₁.Grows P (read c₁ model).1
        ∧ ∀ c₂ n, read c₁ model = (c₂, .ok n) → c₂.find? ⟨model.id, none⟩ = some n)
    (h : (relateAll read name owner position c fields).2 = .error .endless) :
    ∃ before field after c₁ rs model, fields = before ++ field :: after
      ∧ relateAll read name owner position c before = (c₁, .ok rs) ∧ c.Grows P c₁
      ∧ field.kind.model? = some model ∧ (read c₁ model).2 = .error .endless := by
  induction fields generalizing c position with
  | nil => cases h
  | cons field fields ih =>
    cases hresult : relateAll read name owner position c (field :: fields) with
    | mk c' result =>
      rw [hresult] at h
      cases h
      obtain ⟨-, hrefused⟩ | ⟨model, hmodel, hr | ⟨c₁, related, hr, hlast⟩⟩ :=
        relateAll_error hresult
      · cases hrefused
      · exact ⟨[], field, fields, c, [], model, rfl, rfl, .refl c, hmodel, by rw [hr]⟩
      · obtain ⟨hgrows, hfound⟩ := hread field List.mem_cons_self model hmodel c (.refl c)
        rw [hr] at hgrows
        have hrelated : related < c₁.next := hgrows.numbered hc _ _ (hfound c₁ related hr)
        have howner₁ : owner < c₁.next := Nat.lt_of_lt_of_le howner hgrows.next_le
        obtain ⟨-, hrelate⟩ | ⟨c₂, r, hrelate, hlater⟩ := hlast
        · -- The two schemas have been read, so their relationship is made or refused.
          have hends := relate_ne_endless position field howner₁ hrelated
          rw [hrelate] at hends
          exact absurd rfl hends
        · have h₂ : c.Grows P c₂ := hgrows.trans (.of_relate_ok hrelate)
          obtain ⟨before, field', after, c₃, rs, model', rfl, hbefore, h₃, hmodel', hendless⟩ :=
            ih (h₂.numbered hc) (Nat.lt_of_lt_of_le howner h₂.next_le)
              (fun f hf m hm c₃ hc₃ => hread f (List.mem_cons_of_mem field hf) m hm c₃ (h₂.trans hc₃))
              (by rw [hlater])
          refine ⟨field :: before, field', after, c₃, r :: rs, model', rfl, ?_, h₂.trans h₃, hmodel',
            hendless⟩
          simp only [relateAll, hmodel, hr, hrelate, hbefore]

/-- One schema that does not end is enough, if the relationships before it are resolved. -/
theorem relateAll_endless_of (hbefore : relateAll read name owner position c before = (c', .ok rs))
    (hmodel : field.kind.model? = some model) (h : (read c' model).2 = .error .endless) :
    (relateAll read name owner position c (before ++ field :: after)).2 = .error .endless := by
  induction before generalizing c position rs with
  | nil =>
    cases hbefore
    cases hresult : read c' model with
    | mk c₁ result =>
      rw [hresult] at h
      cases h
      simp only [List.nil_append, relateAll, hmodel, hresult]
  | cons field' before ih =>
    obtain ⟨model', c₁, related, c₂, r, rs', hmodel', hr, hrelate, hrest, rfl⟩ :=
      relateAll_ok hbefore
    have hlater := ih hrest
    cases hresult : relateAll read name owner (position + 1) c₂ (before ++ field :: after) with
    | mk c₃ result =>
      rw [hresult] at hlater
      cases hlater
      simp only [List.cons_append, relateAll, hmodel', hr, hrelate, hresult]

/-- Where the reads end the same way, resolving relationships does. -/
theorem relateAll_mono
    (hread : ∀ c model, (read c model).2 ≠ .error .endless → read' c model = read c model)
    (h : (relateAll read name owner position c fields).2 ≠ .error .endless) :
    relateAll read' name owner position c fields = relateAll read name owner position c fields := by
  induction fields generalizing c position with
  | nil => rfl
  | cons field fields ih =>
    rw [relateAll] at h
    rw [relateAll, relateAll]
    cases hmodel : field.kind.model? with
    | none => rfl
    | some model =>
      rw [hmodel] at h
      dsimp only at h ⊢
      have hhead : read' c model = read c model := by
        refine hread c model fun hendless => h ?_
        cases hresult : read c model with
        | mk c₁ result =>
          rw [hresult] at hendless
          cases hendless
          rfl
      rw [hhead]
      cases hresult : read c model with
      | mk c₁ result =>
        cases result with
        | error failure => rfl
        | ok related =>
          rw [hresult] at h
          dsimp only at h ⊢
          cases hrelate : c₁.relate owner related position field with
          | mk c₂ relationship =>
            cases relationship with
            | error failure => rfl
            | ok r =>
              rw [hrelate] at h
              dsimp only at h ⊢
              have hrest : (relateAll read name owner (position + 1) c₂ fields).2
                  ≠ .error .endless := by
                intro hendless
                apply h
                cases hlater : relateAll read name owner (position + 1) c₂ fields with
                | mk c₃ rest =>
                  rw [hlater] at hendless
                  cases hendless
                  rfl
              rw [ih hrest]

end Fields

/-! ## Depth -/

/-- Resolves the relationships of the fields of a schema that is installed. -/
def resolveWithin (depth : Nat) (c : SchemaCache) (key : SchemaKey) (schema : Schema)
    (fields : List Field) : SchemaCache × Except ParseFailure (List Relationship) :=
  relateAll (fun c model => readWithin depth c model none) schema.name c.next 0 (c.install key schema)
    fields

variable {depth depth' : Nat} {model : ModelRef} {table : Option String} {schema : Schema}
  {fields : List Field} {key : SchemaKey}

/-- If a schema has to be read, reading it ends where its relationships do. -/
theorem readWithin_succ_endless_iff (hnone : c.find? ⟨model.id, table⟩ = none)
    (hschema : Schema.parse c.catalog c.naming model table = .ok schema) :
    (readWithin (depth + 1) c model table).2 = .error .endless
      ↔ (c.resolveWithin depth ⟨model.id, table⟩ schema (schema.fieldsAt schema.candidates)).2
        = .error .endless := by
  rw [readWithin]
  simp only [hnone, hschema]
  rw [resolveWithin]
  split
  · next hrelate => simp [hrelate]
  · next hrelate => rw [hrelate]; simp

/-- One more level of depth changes no result. -/
theorem readWithin_mono_succ (h : (readWithin depth c model table).2 ≠ .error .endless) :
    readWithin (depth + 1) c model table = readWithin depth c model table := by
  induction depth generalizing c model table with
  | zero => exact absurd rfl h
  | succ depth ih =>
    cases hfound : c.find? ⟨model.id, table⟩ with
    | some n => simp only [readWithin, hfound]
    | none =>
      cases hschema : Schema.parse c.catalog c.naming model table with
      | error failure => simp only [readWithin, hfound, hschema]
      | ok schema =>
        rw [Ne, readWithin_succ_endless_iff hfound hschema] at h
        have hresolved := relateAll_mono (fun _ _ => ih) h
        rw [readWithin, readWithin]
        simp only [hfound, hschema, hresolved]

/-- More depth changes no result. -/
theorem readWithin_mono (hle : depth ≤ depth')
    (h : (readWithin depth c model table).2 ≠ .error .endless) :
    readWithin depth' c model table = readWithin depth c model table := by
  induction hle with
  | refl => rfl
  | step _ ih =>
    rw [← ih] at h
    rw [readWithin_mono_succ h, ih]

theorem resolveWithin_mono (hle : depth ≤ depth')
    (h : (c.resolveWithin depth key schema fields).2 ≠ .error .endless) :
    c.resolveWithin depth' key schema fields = c.resolveWithin depth key schema fields :=
  relateAll_mono (fun _ _ => readWithin_mono hle) h

theorem resolveWithin_grows (depth : Nat) (c : SchemaCache) (key : SchemaKey) (schema : Schema)
    (fields : List Field) :
    (c.install key schema).Grows (fun _ => True) (c.resolveWithin depth key schema fields).1 :=
  install_relateAll_grows depth c key schema fields

/-! ## Calls that ask for others -/

/-- A call that is to be made. -/
structure Pending where
  cache : SchemaCache
  call : ParseCall

namespace Pending

variable {p q : Pending}

/-- The answer to the call, with relationships followed to a depth below `depth`. -/
def answer (p : Pending) (depth : Nat) : Except ParseFailure Nat :=
  (p.cache.readWithin depth p.call.model p.call.table).2

/-- Making the first call comes to the second: a schema is read and installed, the relationships of
some of its fields are resolved, and the next field asks for another schema. -/
def Asks (p q : Pending) : Prop :=
  p.cache.find? p.call.key = none ∧ ∃ schema before field after depth rs,
    Schema.parse p.cache.catalog p.cache.naming p.call.model p.call.table = .ok schema
    ∧ schema.fieldsAt schema.candidates = before ++ field :: after
    ∧ p.cache.resolveWithin depth p.call.key schema before = (q.cache, .ok rs)
    ∧ field.kind.model? = some q.call.model ∧ q.call.table = none

/-- The call reads a record type that embeds itself, directly or through others, or comes to embed
one that does. -/
def IsStuck (p : Pending) : Prop :=
  p.cache.find? p.call.key = none
    ∧ Schema.EmbedsForever p.cache.catalog p.cache.naming
      (Schema.tableOf p.cache.naming (p.cache.catalog.describe p.call.model) p.call.table)
      p.call.model.id

theorem IsStuck.endless (h : p.IsStuck) (depth : Nat) : p.answer depth = .error .endless := by
  cases depth with
  | zero => rfl
  | succ depth =>
    have hschema := Schema.parse_endless_iff.mpr h.2
    have hnone : p.cache.find? ⟨p.call.model.id, p.call.table⟩ = none := h.1
    rw [answer, readWithin]
    simp only [hnone, hschema]

/-- A call that asks for one that does not end to any depth does not end either. -/
theorem Asks.endless (h : p.Asks q) (hq : ∀ depth, q.answer depth = .error .endless) (depth : Nat) :
    p.answer depth = .error .endless := by
  obtain ⟨hnone, schema, before, field, after, enough, rs, hschema, hfields, hbefore, hmodel, htable⟩ := h
  refine Classical.byContradiction fun hends => ?_
  -- With enough depth for the fields before it, the field asks for what does not end.
  have hmore : p.answer (max depth enough + 1) = p.answer depth := by
    rw [answer, readWithin_mono (Nat.le_succ_of_le (Nat.le_max_left depth enough)) hends]
    rfl
  have hresolved : p.cache.resolveWithin (max depth enough) p.call.key schema before
      = (q.cache, .ok rs) := by
    rw [resolveWithin_mono (Nat.le_max_right depth enough) (by rw [hbefore]; nofun), hbefore]
  have hasked : (readWithin (max depth enough) q.cache q.call.model none).2 = .error .endless := by
    have hanswer := hq (max depth enough)
    rwa [answer, htable] at hanswer
  rw [← hmore, answer, readWithin_succ_endless_iff hnone hschema, hfields] at hends
  exact hends (relateAll_endless_of hresolved hmodel hasked)

/-- The call that is asked for finds what the first found, and its schema besides. -/
theorem Asks.grows (h : p.Asks q) :
    ∃ schema, (p.cache.install p.call.key schema).Grows (fun _ => True) q.cache := by
  obtain ⟨-, schema, before, _, _, depth, _, -, -, hbefore, -, -⟩ := h
  have hgrows := resolveWithin_grows depth p.cache p.call.key schema before
  rw [hbefore] at hgrows
  exact ⟨schema, hgrows⟩

theorem Asks.mem_ids (h : p.Asks q) : p.call.model.id ∈ p.cache.catalog.ids := by
  obtain ⟨-, schema, _, _, _, _, _, hschema, -⟩ := h
  exact Schema.mem_ids_of_parse_ok hschema

/-- Only the first call may be for a table of its own. -/
theorem Asks.table_eq_none (h : p.Asks q) : q.call.table = none := by
  obtain ⟨-, _, _, _, _, _, _, -, -, -, -, htable⟩ := h
  exact htable

theorem Asks.numbered (h : p.Asks q) (hp : p.cache.Numbered) : q.cache.Numbered := by
  obtain ⟨schema, hgrows⟩ := h.grows
  exact hgrows.numbered (hp.install p.call.key schema)

/-- What is asked for is what a field of the schema leads to. -/
theorem Asks.leads (h : p.Asks q) :
    Leads p.cache.catalog p.cache.naming p.call.key q.call.key := by
  obtain ⟨-, schema, before, field, after, -, -, hschema, hfields, -, hmodel, htable⟩ := h
  refine ⟨schema, field, q.call.model, hschema, ?_, hmodel, ?_⟩
  · rw [hfields]
    exact List.mem_append_right before List.mem_cons_self
  · rw [ParseCall.key, htable]

/-- If a call does not end to some depth, it is stuck or asks for one that does not end to the depth
below. -/
theorem exists_asks_of_endless {depth : Nat} (hp : p.cache.Numbered)
    (h : p.answer (depth + 1) = .error .endless) :
    p.IsStuck ∨ ∃ q, p.Asks q ∧ q.answer depth = .error .endless := by
  cases hfound : p.cache.find? p.call.key with
  | some n =>
    have hfound' : p.cache.find? ⟨p.call.model.id, p.call.table⟩ = some n := hfound
    rw [answer, readWithin] at h
    simp only [hfound'] at h
    cases h
  | none =>
    cases hschema : Schema.parse p.cache.catalog p.cache.naming p.call.model p.call.table with
    | error failure =>
      have hfound' : p.cache.find? ⟨p.call.model.id, p.call.table⟩ = none := hfound
      rw [answer, readWithin] at h
      simp only [hfound', hschema] at h
      cases h
      exact .inl ⟨hfound, Schema.parse_endless_iff.mp hschema⟩
    | ok schema =>
      rw [answer, readWithin_succ_endless_iff hfound hschema] at h
      have howner : p.cache.next < (p.cache.install p.call.key schema).next := by
        rw [next_install]
        omega
      obtain ⟨before, field, after, c₁, rs, model, hfields, hbefore, -, hmodel, hendless⟩ :=
        relateAll_endless (P := fun _ => True) (hp.install p.call.key schema) howner
          (fun _ _ model _ c₁ _ =>
            ⟨(readWithin_grows depth c₁ model none).mono fun _ _ => trivial,
              fun _ _ hread => find?_of_readWithin_ok hread⟩) h
      exact .inr ⟨⟨c₁, ⟨model, none⟩⟩,
        ⟨hfound, schema, before, field, after, depth, rs, hschema, hfields, hbefore, hmodel, rfl⟩,
        hendless⟩

/-- What does not end to a depth above the number of record types comes to a call that is stuck. `path`
are the record types whose schemas are installed and being resolved. -/
theorem exists_stuck_of_endless {depth : Nat} (path : List String) (hp : p.cache.Numbered)
    (htable : p.call.table = none) (hnodup : path.Nodup)
    (hknown : ∀ id ∈ path, id ∈ p.cache.catalog.ids)
    (hpath : ∀ id ∈ path, ∃ n, p.cache.find? ⟨id, none⟩ = some n)
    (hdepth : p.cache.catalog.models.length < path.length + depth)
    (h : p.answer depth = .error .endless) :
    ∃ q, Relation.ReflTransGen Asks p q ∧ q.IsStuck := by
  induction depth generalizing p path with
  | zero =>
    have hle := Catalog.length_le_of_nodup hnodup hknown
    omega
  | succ depth ih =>
    obtain hstuck | ⟨q, hasks, hq⟩ := exists_asks_of_endless hp h
    · exact ⟨p, .refl, hstuck⟩
    · obtain ⟨schema, hgrows⟩ := hasks.grows
      have hcatalog : q.cache.catalog = p.cache.catalog := hgrows.catalog
      have hkey : p.call.key = ⟨p.call.model.id, none⟩ := by rw [ParseCall.key, htable]
      have hnone : p.cache.find? ⟨p.call.model.id, none⟩ = none := hkey ▸ hasks.1
      have hnew : p.call.model.id ∉ path := by
        intro hmem
        obtain ⟨n, hn⟩ := hpath _ hmem
        rw [hnone] at hn
        cases hn
      -- The schema itself is on the way down now, and found like those above it.
      have hself : q.cache.find? ⟨p.call.model.id, none⟩ = some p.cache.next :=
        hgrows.found _ _ (by rw [find?_install, hkey, if_pos rfl])
      have habove : ∀ id ∈ path, ∃ n, q.cache.find? ⟨id, none⟩ = some n := by
        intro id hmem
        obtain ⟨n, hn⟩ := hpath id hmem
        have hne : (⟨id, none⟩ : SchemaKey) ≠ p.call.key := by
          intro heq
          rw [heq, hasks.1] at hn
          cases hn
        exact ⟨n, hgrows.found _ _ (by rw [find?_install, if_neg hne, hn])⟩
      have hdepth' : q.cache.catalog.models.length < (p.call.model.id :: path).length + depth := by
        rw [hcatalog, List.length_cons]
        omega
      obtain ⟨r, hreach, hstuck⟩ := ih (p := q) (p.call.model.id :: path) (hasks.numbered hp)
        hasks.table_eq_none
        (List.nodup_cons.mpr ⟨hnew, hnodup⟩)
        (hcatalog ▸ List.forall_mem_cons.mpr ⟨hasks.mem_ids, hknown⟩)
        (List.forall_mem_cons.mpr ⟨⟨_, hself⟩, habove⟩) hdepth' hq
      exact ⟨r, .head hasks hreach, hstuck⟩

/-- Nor does a call end that comes to one that is stuck. -/
theorem endless_of_stuck (hreach : Relation.ReflTransGen Asks p q) (hstuck : q.IsStuck) (depth : Nat) :
    p.answer depth = .error .endless := by
  induction hreach using Relation.ReflTransGen.head_induction_on generalizing depth with
  | refl => exact hstuck.endless depth
  | head hasks _ ih => exact hasks.endless ih depth

/-- What is come to is a schema that can be reached, in a cache for the same record types. -/
theorem reaches_of_asks (hreach : Relation.ReflTransGen Asks p q) :
    q.cache.catalog = p.cache.catalog ∧ q.cache.naming = p.cache.naming
      ∧ Reaches p.cache.catalog p.cache.naming p.call.key q.call.key := by
  induction hreach with
  | refl => exact ⟨rfl, rfl, .refl⟩
  | tail _ hasks ih =>
    obtain ⟨hcatalog, hnaming, hreaches⟩ := ih
    obtain ⟨schema, hgrows⟩ := hasks.grows
    have hleads := hasks.leads
    rw [hcatalog, hnaming] at hleads
    exact ⟨hgrows.catalog.trans hcatalog, hgrows.naming.trans hnaming, hreaches.tail hleads⟩

end Pending

/-! ## Calls -/

/-- A call does not end exactly if it comes to one that is stuck. -/
theorem AtRest.parse_endless_iff (hc : c.AtRest) (model : ModelRef) (table : Option String) :
    (c.parse model table).2 = .error .endless
      ↔ ∃ q, Relation.ReflTransGen Pending.Asks ⟨c, model, table⟩ q ∧ q.IsStuck := by
  rw [hc.parse_eq_read, read]
  constructor
  · intro h
    -- The first schema may be read for a table of its own and then does not count.
    obtain hstuck | ⟨q, hasks, hq⟩ :=
      Pending.exists_asks_of_endless (p := ⟨c, model, table⟩) hc.numbered h
    · exact ⟨_, .refl, hstuck⟩
    · obtain ⟨schema, hgrows⟩ := hasks.grows
      have hcatalog : q.cache.catalog = c.catalog := hgrows.catalog
      have hdepth : q.cache.catalog.models.length < 0 + (c.catalog.models.length + 1) := by
        rw [hcatalog]
        omega
      obtain ⟨r, hreach, hstuck⟩ := Pending.exists_stuck_of_endless [] (hasks.numbered hc.numbered)
        hasks.table_eq_none
        List.nodup_nil (by simp) (by simp) hdepth hq
      exact ⟨r, .head hasks hreach, hstuck⟩
  · rintro ⟨q, hreach, hstuck⟩
    exact Pending.endless_of_stuck hreach hstuck _

/-- Where no record type embeds itself, every call ends: with a schema or with an error. -/
theorem AtRest.parse_ne_endless (hc : c.AtRest) (hacyclic : c.catalog.EmbedsAcyclically)
    (model : ModelRef) (table : Option String) : (c.parse model table).2 ≠ .error .endless := by
  rw [Ne, hc.parse_endless_iff]
  rintro ⟨q, hreach, -, hforever⟩
  obtain ⟨hcatalog, -, -⟩ := Pending.reaches_of_asks hreach
  rw [← Schema.parse_endless_iff, hcatalog] at hforever
  exact Schema.parse_ne_endless hacyclic _ _ _ hforever

/-- Whatever has been read before, a call does not end exactly if it comes to a record type that has to
be read and that embeds itself, or one that does. No depth is enough then. So a call ends, with a
schema or with an error, if no schema that it can reach embeds a record type for ever; relationships
may lead around as they like. -/
theorem calls_end_unless_stuck (catalog : Catalog) (naming : Naming) (calls : List ParseCall)
    (model : ModelRef) (table : Option String) :
    let c := (empty catalog naming).parseAll calls
    ((c.parse model table).2 = .error .endless
        ↔ ∃ q, Relation.ReflTransGen Pending.Asks ⟨c, model, table⟩ q ∧ q.IsStuck)
      ∧ ((c.parse model table).2 = .error .endless
        ↔ ∀ depth, (c.readWithin depth model table).2 = .error .endless)
      ∧ ((∀ key, Reaches catalog naming ⟨model.id, table⟩ key →
          ¬ Schema.EmbedsForever catalog naming
            (Schema.tableOf naming (catalog.describe ⟨key.model, ""⟩) key.table) key.model) →
        (c.parse model table).2 ≠ .error .endless) := by
  intro c
  have hrest : c.AtRest := (atRest_empty catalog naming).parseAll calls
  have hgrows : (empty catalog naming).Grows (fun _ => True) c := parseAll_grows _ calls
  have hcatalog : c.catalog = catalog := hgrows.catalog
  have hnaming : c.naming = naming := hgrows.naming
  have hiff := hrest.parse_endless_iff model table
  refine ⟨hiff, ⟨fun hendless depth => ?_, fun hendless => ?_⟩, fun hends hendless => ?_⟩
  · obtain ⟨q, hreach, hstuck⟩ := hiff.mp hendless
    exact Pending.endless_of_stuck hreach hstuck depth
  · rw [hrest.parse_eq_read]
    exact hendless _
  · obtain ⟨q, hreach, -, hforever⟩ := hiff.mp hendless
    obtain ⟨hcatalog', hnaming', hreaches⟩ := Pending.reaches_of_asks hreach
    rw [hcatalog', hnaming'] at hforever
    refine hends q.call.key ?_ ?_
    · rw [← hcatalog, ← hnaming]
      exact hreaches
    · rw [← hcatalog, ← hnaming]
      exact hforever

/-- A node embeds its parent, which is a node, behind a pointer. -/
def nodes : Catalog :=
  ⟨[ ( "Node",
      { name := "Node"
        fields :=
          [ { name := "ID", kind := .uint 64 }
          , { name := "Parent", kind := .ptr (.record ⟨"Node", "Node"⟩), tag := "embedded" } ] } ) ]⟩

/-- Reading a node reads its parent, and the parent of that, and so on. -/
theorem calls_end_unless_stuck_nodes :
    ((empty nodes {}).parse ⟨"Node", "Node"⟩ none).2 = .error .endless
      ∧ ∀ depth, ((empty nodes {}).readWithin depth ⟨"Node", "Node"⟩ none).2 = .error .endless := by
  have hanswer : (match ((empty nodes {}).parse ⟨"Node", "Node"⟩ none).2 with
      | .error .endless => true
      | _ => false) = true := by decide +kernel
  have hendless : ((empty nodes {}).parse ⟨"Node", "Node"⟩ none).2 = .error .endless := by
    split at hanswer
    · next h => exact h
    · cases hanswer
  obtain ⟨-, hiff, -⟩ := calls_end_unless_stuck nodes {} [] ⟨"Node", "Node"⟩ none
  exact ⟨hendless, hiff.mp hendless⟩

end SchemaCache

end RecordSql
