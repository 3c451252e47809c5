/-
  RecordSql.Proofs.Cache.Growth

  What reading a schema does to the cache.  A call reads other schemas on the
  way, which read others in turn, and some of these calls fail; yet of what
  the cache held before the call nothing changes (`Grows`): every schema keeps
  its number and its relationships, every key is found under the number it
  had, and a key that is found besides leads to a schema read during the call
  whose relationships are resolved.

  The lemmas `relateAll_ok`, `relateAll_error`, `readWithin_ok` and
  `readWithin_error` say once what a call can do.  Later modules argue from
  them and do not open the calls again.
-/

import RecordSql.Schema.Cache
import Mathlib.Logic.Relation

namespace RecordSql.SchemaCache

variable {c c' c'' : SchemaCache} {key other : SchemaKey} {n m : Nat}

/-- Only a schema that is resolved has relationships. -/
theorem eq_resolved {e : Entry} {r : Relationship} {rs : List Relationship}
    (h : e.relationships = r :: rs) : e = ⟨e.schema, .resolved (r :: rs)⟩ := by
  obtain ⟨schema, progress⟩ := e
  cases progress with
  | resolved _ =>
    cases h
    rfl
  | underWay => cases h
  | failed _ => cases h

/-- A schema with one relationship, from what is decided about the two. -/
theorem exists_only {P : Schema → Relationship → Prop} [∀ schema r, Decidable (P schema r)]
    (h : (c.get? n).any (fun e => e.relationships.length == 1
      && e.relationships.all fun r => decide (P e.schema r)) = true) :
    ∃ schema r, c.get? n = some ⟨schema, .resolved [r]⟩ ∧ P schema r := by
  obtain ⟨e, he, h⟩ := (Option.any_eq_true _ _).mp h
  obtain ⟨hlength, hall⟩ := Bool.and_eq_true_iff.mp h
  obtain ⟨r, hrelationships⟩ := List.length_eq_one_iff.mp (eq_of_beq hlength)
  rw [hrelationships] at hall
  exact ⟨e.schema, r, he.trans (congrArg some (eq_resolved hrelationships)),
    of_decide_eq_true (List.all_eq_true.mp hall r (List.mem_singleton_self r))⟩

/-! ## The operations on their own -/

section Operations

@[simp] theorem next_add (c : SchemaCache) (e : Entry) : (c.add e).next = c.next + 1 := by
  simp [next, add]

@[simp] theorem find?_add (c : SchemaCache) (e : Entry) (key : SchemaKey) :
    (c.add e).find? key = c.find? key := rfl

theorem get?_add (c : SchemaCache) (e : Entry) (n : Nat) :
    (c.add e).get? n = if n = c.next then some e else c.get? n := by
  rw [get?, add, get?, next, List.getElem?_append]
  split
  · next h => rw [if_neg (Nat.ne_of_lt h)]
  · next h =>
    by_cases hn : n = c.entries.length
    · simp [hn]
    · rw [if_neg hn, List.getElem?_eq_none (by simp; omega), List.getElem?_eq_none (by omega)]

@[simp] theorem next_install (c : SchemaCache) (key : SchemaKey) (schema : Schema) :
    (c.install key schema).next = c.next + 1 := next_add c _

theorem find?_install (c : SchemaCache) (key other : SchemaKey) (schema : Schema) :
    (c.install key schema).find? other = if other = key then some c.next else c.find? other := by
  rw [find?, install, List.lookup_cons]
  by_cases h : other = key
  · simp [h]
  · rw [if_neg h, beq_false_of_ne h]
    rfl

theorem get?_install (c : SchemaCache) (key : SchemaKey) (schema : Schema) (n : Nat) :
    (c.install key schema).get? n = if n = c.next then some { schema } else c.get? n :=
  get?_add c _ n

@[simp] theorem next_settle (c : SchemaCache) (n : Nat) (p : Progress) :
    (c.settle n p).next = c.next := by
  simp [next, settle]

@[simp] theorem find?_settle (c : SchemaCache) (n : Nat) (p : Progress) (key : SchemaKey) :
    (c.settle n p).find? key = c.find? key := rfl

theorem get?_settle_of_ne (c : SchemaCache) (p : Progress) (h : n ≠ m) :
    (c.settle n p).get? m = c.get? m := by
  simp [get?, settle, h]

theorem get?_settle_self (c : SchemaCache) (n : Nat) (p : Progress) :
    (c.settle n p).get? n = (c.get? n).map fun e => { e with progress := p } := by
  simp [get?, settle]

@[simp] theorem next_remove (c : SchemaCache) (key : SchemaKey) : (c.remove key).next = c.next := rfl

@[simp] theorem get?_remove (c : SchemaCache) (key : SchemaKey) (n : Nat) :
    (c.remove key).get? n = c.get? n := rfl

theorem find?_remove (c : SchemaCache) (key other : SchemaKey) :
    (c.remove key).find? other = if other = key then none else c.find? other := by
  rw [find?, remove, find?]
  induction c.installed with
  | nil => simp
  | cons entry rest ih =>
    rw [List.filter_cons, List.lookup_cons]
    by_cases hentry : entry.1 = key
    · by_cases hother : other = key
      · simpa [hentry, hother] using ih
      · simpa [hentry, hother, beq_false_of_ne hother] using ih
    · rw [if_pos (by simpa using hentry), List.lookup_cons]
      by_cases hother : other = entry.1
      · have hne : other ≠ key := fun h => hentry (hother ▸ h)
        simp [hother, hentry]
      · simpa [beq_false_of_ne hother] using ih

/-- Numbers below the next one have schemas. -/
theorem exists_get? (h : n < c.next) : ∃ e, c.get? n = some e :=
  ⟨_, List.getElem?_eq_getElem h⟩

theorem lt_next_of_get? {e : Entry} (h : c.get? n = some e) : n < c.next :=
  (List.getElem?_eq_some_iff.mp h).1

end Operations

/-! ## What a call can do -/

section Calls

variable {read : SchemaCache → ModelRef → SchemaCache × Except ParseFailure Nat} {name : String}
  {owner related position depth : Nat} {field : Field} {fields : List Field} {model : ModelRef}
  {table : Option String} {failure : ParseFailure} {r : Relationship} {rs : List Relationship}

/-- Two numbers are paired if both lead to schemas. -/
theorem pairing?_eq_some {pairing : Pairing} :
    c.pairing? owner related field = some pairing ↔
      ∃ e e', c.get? owner = some e ∧ c.get? related = some e'
        ∧ pairing = .ofField ⟨owner, e.schema⟩ ⟨related, e'.schema⟩ field := by
  rw [pairing?]
  cases c.get? owner with
  | none => simp
  | some e =>
    cases c.get? related with
    | none => simp
    | some e' => simp [eq_comm]

/-- A relationship is what the pairing of the two schemas makes of its field; its join table, if it
has one, is added. -/
theorem relate_ok (h : c.relate owner related position field = (c', .ok r)) :
    ∃ pairing join, c.pairing? owner related field = some pairing
      ∧ pairing.relationship position c.next = .ok (r, join)
      ∧ c' = (match join with
        | none => c
        | some join => c.add ⟨join.schema, .resolved join.links⟩) := by
  rw [relate] at h
  split at h
  · cases h
  · next pairing hpairing =>
    split at h
    · cases h
    · next hr =>
      cases h
      exact ⟨pairing, none, hpairing, hr, rfl⟩
    · next join hr =>
      cases h
      exact ⟨pairing, some join, hpairing, hr, rfl⟩

theorem relate_error (h : c.relate owner related position field = (c', .error failure)) :
    c' = c := by
  rw [relate] at h
  split at h
  · cases h; rfl
  · split at h <;> cases h
    rfl

/-- The fields are resolved one after the other, each with the schema its type leads to. -/
theorem relateAll_ok
    (h : relateAll read name owner position c (field :: fields) = (c', .ok rs)) :
    ∃ model c₁ related c₂ r rs', field.kind.model? = some model
      ∧ read c model = (c₁, .ok related) ∧ c₁.relate owner related position field = (c₂, .ok r)
      ∧ relateAll read name owner (position + 1) c₂ fields = (c', .ok rs') ∧ rs = r :: rs' := by
  rw [relateAll] at h
  split at h
  · cases h
  · next model hmodel =>
    split at h
    · cases h
    · next c₁ related hread =>
      split at h
      · cases h
      · next c₂ r hrelate =>
        split at h
        · cases h
        · next c₃ rs' hrest =>
          cases h
          exact ⟨model, c₁, related, c₂, r, rs', hmodel, hread, hrelate, hrest, rfl⟩

/-- The first error ends the call. -/
theorem relateAll_error
    (h : relateAll read name owner position c (field :: fields) = (c', .error failure)) :
    c' = c ∧ failure = .refused (.unsupportedDataType name field.name field.kind.text)
    ∨ ∃ model, field.kind.model? = some model ∧
      (read c model = (c', .error failure)
      ∨ ∃ c₁ related, read c model = (c₁, .ok related) ∧
        (c' = c₁ ∧ c₁.relate owner related position field = (c₁, .error failure)
        ∨ ∃ c₂ r, c₁.relate owner related position field = (c₂, .ok r)
          ∧ relateAll read name owner (position + 1) c₂ fields = (c', .error failure))) := by
  rw [relateAll] at h
  split at h
  · cases h
    exact .inl ⟨rfl, rfl⟩
  · next model hmodel =>
    refine .inr ⟨model, hmodel, ?_⟩
    split at h
    · next hread =>
      cases h
      exact .inl hread
    · next c₁ related hread =>
      refine .inr ⟨c₁, related, hread, ?_⟩
      split at h
      · next hrelate =>
        cases h
        have hsame : c' = c₁ := relate_error hrelate
        exact .inl ⟨hsame, hsame ▸ hrelate⟩
      · next c₂ r hrelate =>
        refine .inr ⟨c₂, r, hrelate, ?_⟩
        split at h
        · next hrest =>
          cases h
          exact hrest
        · cases h

/-- A schema is found, or it is read and all its relationships are resolved. -/
theorem readWithin_ok (h : readWithin (depth + 1) c model table = (c', .ok n)) :
    c.find? ⟨model.id, table⟩ = some n ∧ c' = c
    ∨ ∃ schema rs c₁, c.find? ⟨model.id, table⟩ = none
      ∧ Schema.parse c.catalog c.naming model table = .ok schema
      ∧ relateAll (fun c model => readWithin depth c model none) schema.name c.next 0
          (c.install ⟨model.id, table⟩ schema) (schema.fieldsAt schema.candidates) = (c₁, .ok rs)
      ∧ c' = c₁.settle c.next (.resolved rs) ∧ n = c.next := by
  rw [readWithin] at h
  split at h
  · next hfound =>
    cases h
    exact .inl ⟨hfound, rfl⟩
  · next hfound =>
    split at h
    · cases h
    · next schema hschema =>
      dsimp only at h
      split at h
      · next c₁ rs hrelate =>
        cases h
        exact .inr ⟨schema, rs, c₁, hfound, hschema, hrelate, rfl, rfl⟩
      · cases h

/-- A failed call took its own schema out again, if it came as far as to install it. -/
theorem readWithin_error (h : readWithin (depth + 1) c model table = (c', .error failure)) :
    c.find? ⟨model.id, table⟩ = none
    ∧ (c' = c ∧ Schema.parse c.catalog c.naming model table = .error failure
      ∨ ∃ schema c₁, Schema.parse c.catalog c.naming model table = .ok schema
        ∧ relateAll (fun c model => readWithin depth c model none) schema.name c.next 0
            (c.install ⟨model.id, table⟩ schema) (schema.fieldsAt schema.candidates)
          = (c₁, .error failure)
        ∧ c' = (c₁.settle c.next (.failed failure)).remove ⟨model.id, table⟩) := by
  rw [readWithin] at h
  split at h
  · cases h
  · next hfound =>
    refine ⟨hfound, ?_⟩
    split at h
    · next hschema =>
      cases h
      exact .inl ⟨rfl, hschema⟩
    · next schema hschema =>
      dsimp only at h
      split at h
      · cases h
      · next c₁ e hrelate =>
        cases h
        exact .inr ⟨schema, c₁, hschema, hrelate, rfl⟩

end Calls

/-! ## The cache grows -/

/-- A schema with the first key has a field whose type leads to the second key. -/
def Leads (catalog : Catalog) (ns : Naming) (key other : SchemaKey) : Prop :=
  ∃ schema field model, Schema.parse catalog ns ⟨key.model, ""⟩ key.table = .ok schema
    ∧ field ∈ schema.fieldsAt schema.candidates ∧ field.kind.model? = some model
    ∧ other = ⟨model.id, none⟩

/-- Fields lead from the first key to the second, in any number of steps. -/
def Reaches (catalog : Catalog) (ns : Naming) : SchemaKey → SchemaKey → Prop :=
  Relation.ReflTransGen (Leads catalog ns)

/-- `c'` has grown out of `c` by schemas with keys of which `P` holds. -/
structure Grows (P : SchemaKey → Prop) (c c' : SchemaCache) : Prop where
  catalog : c'.catalog = c.catalog
  naming : c'.naming = c.naming
  next_le : c.next ≤ c'.next
  entries : ∀ n e, c.get? n = some e → c'.get? n = some e
  found : ∀ key n, c.find? key = some n → c'.find? key = some n
  fresh : ∀ key n, c'.find? key = some n → c.find? key = none →
    P key ∧ c.next ≤ n ∧ ∃ schema rs, c'.get? n = some ⟨schema, .resolved rs⟩

namespace Grows

variable {P Q : SchemaKey → Prop}

theorem refl (c : SchemaCache) : c.Grows P c where
  catalog := rfl
  naming := rfl
  next_le := Nat.le_refl _
  entries _ _ h := h
  found _ _ h := h
  fresh key n h hnone := by rw [hnone] at h; cases h

theorem trans (h : c.Grows P c') (h' : c'.Grows P c'') : c.Grows P c'' where
  catalog := h'.catalog.trans h.catalog
  naming := h'.naming.trans h.naming
  next_le := Nat.le_trans h.next_le h'.next_le
  entries n e he := h'.entries n e (h.entries n e he)
  found key n hn := h'.found key n (h.found key n hn)
  fresh key n hn hnone := by
    cases hmid : c'.find? key with
    | none =>
      obtain ⟨hP, hle, hresolved⟩ := h'.fresh key n hn hmid
      exact ⟨hP, Nat.le_trans h.next_le hle, hresolved⟩
    | some m =>
      -- What was read in the first part is found in the second as it was left.
      have hm : m = n := Option.some.inj ((h'.found key m hmid).symm.trans hn)
      obtain ⟨hP, hle, schema, rs, he⟩ := h.fresh key m hmid hnone
      exact ⟨hP, hm ▸ hle, schema, rs, hm ▸ h'.entries m _ he⟩

theorem mono (hPQ : ∀ key, P key → Q key) (h : c.Grows P c') : c.Grows Q c' :=
  { h with
    fresh := fun key n hn hnone =>
      let ⟨hP, hrest⟩ := h.fresh key n hn hnone
      ⟨hPQ key hP, hrest⟩ }

/-- A join table is added without a key. -/
theorem add (c : SchemaCache) (e : Entry) : c.Grows P (c.add e) where
  catalog := rfl
  naming := rfl
  next_le := by rw [next_add]; omega
  entries n e' he := by
    rw [get?_add, if_neg (Nat.ne_of_lt (lt_next_of_get? he)), he]
  found _ _ h := h
  fresh key n h hnone := by rw [find?_add, hnone] at h; cases h

theorem of_relate_ok {owner related position : Nat} {field : Field} {r : Relationship}
    (h : c.relate owner related position field = (c', .ok r)) : c.Grows P c' := by
  obtain ⟨pairing, join, -, -, rfl⟩ := relate_ok h
  cases join with
  | none => exact .refl c
  | some join => exact .add c _

/-- Of what stands below the number that is settled nothing changes. -/
theorem entries_of_install {schema : Schema} {progress : Progress}
    (h : (c.install key schema).Grows P c') {n : Nat} {e : Entry} (he : c.get? n = some e) :
    (c'.settle c.next progress).get? n = some e := by
  have hlt : n < c.next := lt_next_of_get? he
  rw [get?_settle_of_ne _ _ (Nat.ne_of_gt hlt)]
  refine h.entries n e ?_
  rw [get?_install, if_neg (Nat.ne_of_lt hlt), he]

/-- A schema that was installed and then settled adds its own key. -/
theorem of_settled {schema : Schema} {rs : List Relationship} (hnone : c.find? key = none)
    (hkey : P key) (h : (c.install key schema).Grows P c') :
    c.Grows P (c'.settle c.next (.resolved rs)) where
  catalog := h.catalog
  naming := h.naming
  next_le := by
    have hle := h.next_le
    rw [next_install] at hle
    rw [next_settle]
    omega
  entries n e he := h.entries_of_install he
  found other n hn := by
    have hne : other ≠ key := fun heq => by rw [heq, hnone] at hn; cases hn
    exact h.found other n (by rw [find?_install, if_neg hne, hn])
  fresh other n hn hother := by
    have hself : (c.install key schema).get? c.next = some { schema } := by
      rw [get?_install, if_pos rfl]
    by_cases heq : other = key
    · have hinstalled : (c.install key schema).find? other = some c.next := by
        rw [find?_install, if_pos heq]
      have hnumber : n = c.next :=
        Option.some.inj (hn.symm.trans (h.found other c.next hinstalled))
      refine ⟨heq ▸ hkey, Nat.le_of_eq hnumber.symm, schema, rs, ?_⟩
      rw [hnumber, get?_settle_self, h.entries c.next _ hself]
      rfl
    · -- Read while the relationships were resolved, so under a later number.
      obtain ⟨hP, hle, hresolved⟩ := h.fresh other n hn (by rw [find?_install, if_neg heq, hother])
      rw [next_install] at hle
      refine ⟨hP, by omega, ?_⟩
      rw [get?_settle_of_ne _ _ (by omega)]
      exact hresolved

/-- A schema that was installed and taken out again adds nothing itself. -/
theorem of_removed {schema : Schema} {progress : Progress} (hnone : c.find? key = none)
    (h : (c.install key schema).Grows P c') :
    c.Grows P ((c'.settle c.next progress).remove key) where
  catalog := h.catalog
  naming := h.naming
  next_le := by
    have hle := h.next_le
    rw [next_install] at hle
    rw [next_remove, next_settle]
    omega
  entries n e he := h.entries_of_install he
  found other n hn := by
    have hne : other ≠ key := fun heq => by rw [heq, hnone] at hn; cases hn
    rw [find?_remove, if_neg hne]
    exact h.found other n (by rw [find?_install, if_neg hne, hn])
  fresh other n hn hother := by
    rw [find?_remove] at hn
    by_cases heq : other = key
    · rw [if_pos heq] at hn
      cases hn
    · rw [if_neg heq] at hn
      obtain ⟨hP, hle, hresolved⟩ := h.fresh other n hn (by rw [find?_install, if_neg heq, hother])
      rw [next_install] at hle
      refine ⟨hP, by omega, ?_⟩
      rw [get?_remove, get?_settle_of_ne _ _ (by omega)]
      exact hresolved

end Grows

/-- If every read that the fields ask for makes the cache grow, so does resolving them. -/
theorem relateAll_grows {read : SchemaCache → ModelRef → SchemaCache × Except ParseFailure Nat}
    {P : SchemaKey → Prop} {name : String} {owner position : Nat} {fields : List Field}
    (hread : ∀ field ∈ fields, ∀ model, field.kind.model? = some model →
      ∀ c₁ : SchemaCache, c.Grows P c₁ → c₁.Grows P (read c₁ model).1) :
    c.Grows P (relateAll read name owner position c fields).1 := by
  induction fields generalizing c position with
  | nil => exact .refl c
  | cons field fields ih =>
    have hhead : ∀ model, field.kind.model? = some model → c.Grows P (read c model).1 :=
      fun model hmodel => hread field (List.mem_cons_self ..) model hmodel c (.refl c)
    have hrest : ∀ c₁ position, c.Grows P c₁ →
        c₁.Grows P (relateAll read name owner position c₁ fields).1 :=
      fun c₁ position hc₁ => ih fun f hf model hmodel c₂ hc₂ =>
        hread f (List.mem_cons_of_mem field hf) model hmodel c₂ (hc₁.trans hc₂)
    cases hresult : relateAll read name owner position c (field :: fields) with
    | mk c' result =>
      cases result with
      | ok rs =>
        obtain ⟨model, c₁, related, c₂, r, rs', hmodel, hr, hrelate, hlater, -⟩ :=
          relateAll_ok hresult
        have h₁ : c.Grows P c₁ := by simpa [hr] using hhead model hmodel
        have h₂ : c.Grows P c₂ := h₁.trans (.of_relate_ok hrelate)
        have h₃ := hrest c₂ (position + 1) h₂
        rw [hlater] at h₃
        exact h₂.trans h₃
      | error failure =>
        obtain ⟨rfl, -⟩ | ⟨model, hmodel, hr | ⟨c₁, related, hr, hlast⟩⟩ := relateAll_error hresult
        · exact .refl _
        · simpa [hr] using hhead model hmodel
        · have h₁ : c.Grows P c₁ := by simpa [hr] using hhead model hmodel
          obtain ⟨rfl, -⟩ | ⟨c₂, r, hrelate, hlater⟩ := hlast
          · exact h₁
          · have h₂ : c.Grows P c₂ := h₁.trans (.of_relate_ok hrelate)
            have h₃ := hrest c₂ (position + 1) h₂
            rw [hlater] at h₃
            exact h₂.trans h₃

/-- Reading makes the cache grow by schemas that can be reached from the one that is read. -/
theorem readWithin_grows (depth : Nat) (c : SchemaCache) (model : ModelRef)
    (table : Option String) :
    c.Grows (Reaches c.catalog c.naming ⟨model.id, table⟩) (c.readWithin depth model table).1 := by
  induction depth generalizing c model table with
  | zero => exact .refl c
  | succ depth ih =>
    -- What the fields of a schema reach, the schema reaches.
    have hrelated : ∀ schema : Schema, Schema.parse c.catalog c.naming model table = .ok schema →
        (c.install ⟨model.id, table⟩ schema).Grows (Reaches c.catalog c.naming ⟨model.id, table⟩)
          (relateAll (fun c model => readWithin depth c model none) schema.name c.next 0
            (c.install ⟨model.id, table⟩ schema) (schema.fieldsAt schema.candidates)).1 := by
      intro schema hschema
      refine relateAll_grows fun field hfield inner hinner c₁ hc₁ => ?_
      have hleads : Leads c.catalog c.naming ⟨model.id, table⟩ ⟨inner.id, none⟩ :=
        ⟨schema, field, inner, hschema, hfield, hinner, rfl⟩
      have hcatalog : c₁.catalog = c.catalog := hc₁.catalog
      have hnaming : c₁.naming = c.naming := hc₁.naming
      have hgrows := ih c₁ inner none
      rw [hcatalog, hnaming] at hgrows
      exact hgrows.mono fun key hkey => .head hleads hkey
    cases hresult : c.readWithin (depth + 1) model table with
    | mk c' result =>
      cases result with
      | ok n =>
        obtain ⟨-, rfl⟩ | ⟨schema, rs, c₁, hnone, hschema, hrelate, rfl, -⟩ :=
          readWithin_ok hresult
        · exact .refl _
        · have h₁ := hrelated schema hschema
          rw [hrelate] at h₁
          exact .of_settled hnone .refl h₁
      | error failure =>
        obtain ⟨hnone, ⟨rfl, -⟩ | ⟨schema, c₁, hschema, hrelate, rfl⟩⟩ :=
          readWithin_error hresult
        · exact .refl _
        · have h₁ := hrelated schema hschema
          rw [hrelate] at h₁
          exact .of_removed hnone h₁

/-- So does resolving the relationships of a schema that has been installed. -/
theorem install_relateAll_grows (depth : Nat) (c : SchemaCache) (key : SchemaKey) (schema : Schema)
    (fields : List Field) :
    (c.install key schema).Grows (fun _ => True)
      (relateAll (fun c model => readWithin depth c model none) schema.name c.next 0
        (c.install key schema) fields).1 :=
  relateAll_grows fun _ _ inner _ c₁ _ =>
    (readWithin_grows depth c₁ inner none).mono fun _ _ => trivial

end RecordSql.SchemaCache
