/-
  RecordSql.Proofs.Cache.Calls

  Calls one after the other, from an empty cache on.  Between calls the cache
  is at rest: whatever is found has its relationships resolved (`AtRest`), so
  a call for it returns it and changes nothing.
-/

import RecordSql.Proofs.Cache.Growth

namespace RecordSql

/-- A call for the schema of a record type, stored in a table of its own where one is given. -/
structure ParseCall where
  model : ModelRef
  table : Option String

/-- What the call looks up. -/
def ParseCall.key (call : ParseCall) : SchemaKey := ⟨call.model.id, call.table⟩

namespace SchemaCache

/-- A cache in which nothing has been read. -/
def empty (catalog : Catalog) (naming : Naming) : SchemaCache := { catalog, naming }

/-- Names as they are written. -/
def plainNames : Naming := { singularTables := true, keepCase := true }

/-- The cache after several calls. -/
def parseAll (c : SchemaCache) (calls : List ParseCall) : SchemaCache :=
  calls.foldl (fun c call => (c.parse call.model call.table).1) c

/-- Every key that is found leads to a schema whose relationships are resolved. -/
def AtRest (c : SchemaCache) : Prop :=
  ∀ key n, c.find? key = some n → ∃ schema rs, c.get? n = some ⟨schema, .resolved rs⟩

variable {c c' : SchemaCache} {key : SchemaKey} {n depth : Nat} {model : ModelRef}
  {table : Option String} {failure : ParseFailure}

theorem find?_empty (catalog : Catalog) (naming : Naming) (key : SchemaKey) :
    (empty catalog naming).find? key = none := rfl

theorem atRest_empty (catalog : Catalog) (naming : Naming) : (empty catalog naming).AtRest := by
  intro key n h
  rw [find?_empty] at h
  cases h

theorem Grows.atRest {P : SchemaKey → Prop} (h : c.Grows P c') (hc : c.AtRest) : c'.AtRest := by
  intro key n hn
  cases hold : c.find? key with
  | none => exact (h.fresh key n hn hold).2.2
  | some m =>
    have hm : m = n := Option.some.inj ((h.found key m hold).symm.trans hn)
    obtain ⟨schema, rs, he⟩ := hc key m hold
    exact ⟨schema, rs, h.entries n _ (hm ▸ he)⟩

/-! ## One call -/

/-- A call changes the cache by reading. -/
theorem parse_fst (c : SchemaCache) (model : ModelRef) (table : Option String) :
    (c.parse model table).1 = (c.read model table).1 := by
  rw [parse]
  split
  · next h => rw [h]
  · next h =>
    rw [h]
    split <;> rfl

theorem parse_grows (c : SchemaCache) (model : ModelRef) (table : Option String) :
    c.Grows (Reaches c.catalog c.naming ⟨model.id, table⟩) (c.parse model table).1 := by
  rw [parse_fst]
  exact readWithin_grows _ c model table

/-- A schema that was read is found. -/
theorem find?_of_readWithin_ok (h : c.readWithin depth model table = (c', .ok n)) :
    c'.find? ⟨model.id, table⟩ = some n := by
  cases depth with
  | zero => cases h
  | succ depth =>
    obtain ⟨hfound, rfl⟩ | ⟨schema, rs, c₁, -, hschema, hrelate, rfl, rfl⟩ := readWithin_ok h
    · exact hfound
    · -- It was installed before its relationships were resolved.
      have hgrows : (c.install ⟨model.id, table⟩ schema).Grows (fun _ => True) c₁ := by
        have h₁ := install_relateAll_grows depth c ⟨model.id, table⟩ schema
          (schema.fieldsAt schema.candidates)
        rwa [hrelate] at h₁
      rw [find?_settle]
      exact hgrows.found _ _ (by rw [find?_install, if_pos rfl])

/-- A schema that could not be read is not found. -/
theorem find?_of_readWithin_error
    (h : c.readWithin (depth + 1) model table = (c', .error failure)) :
    c.find? ⟨model.id, table⟩ = none ∧ c'.find? ⟨model.id, table⟩ = none := by
  obtain ⟨hnone, ⟨rfl, -⟩ | ⟨schema, c₁, -, -, rfl⟩⟩ := readWithin_error h
  · exact ⟨hnone, hnone⟩
  · exact ⟨hnone, by rw [find?_remove, if_pos rfl]⟩

/-- At rest a call answers what reading answers: nothing that is found waits to be resolved or has
failed. -/
theorem AtRest.parse_eq_read (hc : c.AtRest) (model : ModelRef) (table : Option String) :
    c.parse model table = c.read model table := by
  cases hread : c.read model table with
  | mk c' result =>
    cases result with
    | error failure => rw [parse, hread]
    | ok n =>
      have hgrows := readWithin_grows (c.catalog.models.length + 2) c model table
      have hrest : c'.AtRest := by
        rw [read] at hread
        rw [hread] at hgrows
        exact hgrows.atRest hc
      obtain ⟨schema, rs, he⟩ := hrest _ _ (find?_of_readWithin_ok hread)
      rw [parse, hread]
      simp only [he]

/-- What is found is returned, and the cache stays as it is. -/
theorem AtRest.parse_of_find? (hc : c.AtRest) (h : c.find? ⟨model.id, table⟩ = some n) :
    c.parse model table = (c, .ok n) := by
  rw [hc.parse_eq_read, read, readWithin]
  simp only [h]

theorem AtRest.find?_of_parse_ok (hc : c.AtRest) (h : c.parse model table = (c', .ok n)) :
    c'.find? ⟨model.id, table⟩ = some n := by
  rw [hc.parse_eq_read] at h
  exact find?_of_readWithin_ok h

theorem AtRest.find?_of_parse_error (hc : c.AtRest)
    (h : c.parse model table = (c', .error failure)) :
    c.find? ⟨model.id, table⟩ = none ∧ c'.find? ⟨model.id, table⟩ = none := by
  rw [hc.parse_eq_read] at h
  exact find?_of_readWithin_error h

/-! ## Several calls -/

theorem parseAll_grows (c : SchemaCache) (calls : List ParseCall) :
    c.Grows (fun _ => True) (c.parseAll calls) := by
  induction calls generalizing c with
  | nil => exact .refl c
  | cons call calls ih =>
    have hcall := (parse_grows c call.model call.table).mono (Q := fun _ => True)
      fun _ _ => trivial
    exact hcall.trans (ih _)

theorem AtRest.parseAll (hc : c.AtRest) (calls : List ParseCall) : (c.parseAll calls).AtRest :=
  (parseAll_grows c calls).atRest hc

end SchemaCache

end RecordSql
