/-
  RecordSql.Proofs.Cache.FailedCalls

  What a call that fails leaves behind.  There is nothing under its own key,
  and what was found before is found as it was.  Other schemas may have been
  added: those of related record types that were read on the way and whose own
  relationships could be resolved (`failed_parse_leaves_related_only`).

  Such a schema was resolved while others were under way, and it keeps the
  numbers it was given then.  So each of its relationships leads to what is
  found for the record type of its field, or to a schema that failed later in
  the same call and was taken out (`Anchored`).  Then a call returns it from
  this cache, and fails on a cache in which nothing has been read
  (`failed_parse_leaves_related_only_kennels`).
-/

import RecordSql.Proofs.Cache.Resolved

namespace RecordSql

namespace SchemaCache

variable {c c' c'' : SchemaCache} {key : SchemaKey} {n base : Nat}

/-- A schema that is reached but is not the one that was asked for is read for the table of its
type. -/
theorem Reaches.table_eq_none {catalog : Catalog} {naming : Naming} {other : SchemaKey}
    (h : Reaches catalog naming key other) (hne : other ≠ key) : other.table = none := by
  cases h with
  | refl => exact absurd rfl hne
  | tail _ hlast =>
    obtain ⟨-, -, model, -, -, -, rfl⟩ := hlast
    rfl

/-! ## Where relationships lead -/

/-- The number is that of a schema whose relationships could not be resolved. -/
def Failed (c : SchemaCache) (n : Nat) : Prop := ∃ schema why, c.get? n = some ⟨schema, .failed why⟩

/-- The relationship leads to what is found for the record type of its field, or to a schema that
failed, with a number from `base` on. -/
def Anchored (base : Nat) (c : SchemaCache) (r : Relationship) : Prop :=
  ∃ model, r.field.kind.model? = some model
    ∧ (c.find? ⟨model.id, none⟩ = some r.related.number
      ∨ base ≤ r.related.number ∧ c.Failed r.related.number)

namespace Anchored

variable {r : Relationship}

theorem mono {base' : Nat} (hr : c.Anchored base r) (hle : base' ≤ base) : c.Anchored base' r := by
  obtain ⟨model, hmodel, hfound | ⟨hbase, hfailed⟩⟩ := hr
  · exact ⟨model, hmodel, .inl hfound⟩
  · exact ⟨model, hmodel, .inr ⟨Nat.le_trans hle hbase, hfailed⟩⟩

theorem grows {P : SchemaKey → Prop} (hr : c.Anchored base r) (h : c.Grows P c') :
    c'.Anchored base r := by
  obtain ⟨model, hmodel, hfound | ⟨hbase, schema, why, he⟩⟩ := hr
  · exact ⟨model, hmodel, .inl (h.found _ _ hfound)⟩
  · exact ⟨model, hmodel, .inr ⟨hbase, schema, why, h.entries _ _ he⟩⟩

/-- A schema that is settled had not failed before. -/
theorem settle {schema : Schema} (hr : c.Anchored base r) (h : c.get? n = some { schema })
    (progress : Progress) : (c.settle n progress).Anchored base r := by
  obtain ⟨model, hmodel, hfound | ⟨hbase, failed, why, he⟩⟩ := hr
  · exact ⟨model, hmodel, .inl hfound⟩
  · have hne : n ≠ r.related.number := fun heq => by
      rw [← heq, h] at he
      cases he
    exact ⟨model, hmodel, .inr ⟨hbase, failed, why, by rw [get?_settle_of_ne _ _ hne, he]⟩⟩

/-- What leads to a schema that is taken out leads to one that failed from then on. -/
theorem remove (hr : c.Anchored base r) (hn : c.find? key = some n) (hle : base ≤ n)
    (hfailed : c.Failed n) : (c.remove key).Anchored base r := by
  obtain ⟨model, hmodel, hfound | hold⟩ := hr
  · refine ⟨model, hmodel, ?_⟩
    by_cases heq : (⟨model.id, none⟩ : SchemaKey) = key
    · rw [heq] at hfound
      obtain rfl : n = r.related.number := Option.some.inj (hn.symm.trans hfound)
      exact .inr ⟨hle, hfailed⟩
    · exact .inl (by rw [find?_remove, if_neg heq, hfound])
  · exact ⟨model, hmodel, .inr hold⟩

end Anchored

section Installed

variable {P : SchemaKey → Prop} {schema : Schema}

/-- A schema that is installed is found, and under way until it is settled. -/
theorem Grows.underWay (h : (c.install key schema).Grows P c') :
    c'.get? c.next = some { schema } ∧ c'.find? key = some c.next := by
  refine ⟨h.entries _ _ ?_, h.found _ _ ?_⟩
  · rw [get?_install, if_pos rfl]
  · rw [find?_install, if_pos rfl]

/-- What is found besides was read after it. -/
theorem Grows.lt_of_fresh {other : SchemaKey} (h : (c.install key schema).Grows P c')
    (hn : c'.find? other = some n) (hother : c.find? other = none) (hne : other ≠ key) :
    (c.install key schema).find? other = none ∧ c.next < n := by
  have hold : (c.install key schema).find? other = none := by
    rw [find?_install, if_neg hne, hother]
  obtain ⟨-, hle, -⟩ := h.fresh other n hn hold
  rw [next_install] at hle
  exact ⟨hold, by omega⟩

end Installed

/-- From `c` to `c'` the cache has grown, and relationships of what is found besides are
anchored. -/
structure Anchors (c c' : SchemaCache) : Prop where
  grows : c.Grows (fun _ => True) c'
  anchored : ∀ key n schema rs, c'.find? key = some n → c.find? key = none →
    c'.get? n = some ⟨schema, .resolved rs⟩ → ∀ r ∈ rs, c'.Anchored c.next r

namespace Anchors

theorem refl (c : SchemaCache) : c.Anchors c where
  grows := .refl c
  anchored key n schema rs hn hnone := by rw [hnone] at hn; cases hn

theorem trans (h : c.Anchors c') (h' : c'.Anchors c'') : c.Anchors c'' where
  grows := h.grows.trans h'.grows
  anchored key n schema rs hn hnone he r hr := by
    cases hmid : c'.find? key with
    | none => exact (h'.anchored key n schema rs hn hmid he r hr).mono h.grows.next_le
    | some m =>
      -- It was found by then, and resolved.
      obtain rfl : m = n := Option.some.inj ((h'.grows.found key m hmid).symm.trans hn)
      obtain ⟨-, -, schema', rs', he'⟩ := h.grows.fresh key m hmid hnone
      have hsame := h'.grows.entries m _ he'
      rw [he] at hsame
      cases hsame
      exact (h.anchored key m schema rs hmid hnone he' r hr).grows h'.grows

theorem of_relate_ok {owner related position : Nat} {field : Field} {r : Relationship}
    (h : c.relate owner related position field = (c', .ok r)) : c.Anchors c' where
  grows := .of_relate_ok h
  anchored key n schema rs hn hnone := by
    -- Join tables are not found.
    obtain ⟨pairing, join, -, -, rfl⟩ := relate_ok h
    cases join with
    | none => rw [hnone] at hn; cases hn
    | some join => rw [find?_add, hnone] at hn; cases hn

/-- What was read while a schema was under way is anchored once that is settled. -/
theorem anchored_of_settled {schema : Schema} {other : SchemaKey} {e : Schema}
    {rs : List Relationship} {progress : Progress} (h : (c.install key schema).Anchors c')
    (hn : c'.find? other = some n) (hother : c.find? other = none) (hne : other ≠ key)
    (he : (c'.settle c.next progress).get? n = some ⟨e, .resolved rs⟩) :
    ∀ r ∈ rs, (c'.settle c.next progress).Anchored c.next r := by
  intro r hr
  obtain ⟨hold, hlt⟩ := h.grows.lt_of_fresh hn hother hne
  rw [get?_settle_of_ne _ _ (Nat.ne_of_lt hlt)] at he
  have hle : c.next ≤ (c.install key schema).next := by
    rw [next_install]
    omega
  have hanchored := (h.anchored other n e rs hn hold he r hr).mono hle
  exact hanchored.settle h.grows.underWay.1 progress

/-- A schema that was installed and then settled adds its own relationships. -/
theorem of_settled {schema : Schema} {rs : List Relationship} (hnone : c.find? key = none)
    (h : (c.install key schema).Anchors c') (hrs : ∀ r ∈ rs, c'.Anchored c.next r) :
    c.Anchors (c'.settle c.next (.resolved rs)) where
  grows := .of_settled hnone trivial h.grows
  anchored other n e rs' hn hother he := by
    obtain ⟨hunderWay, hself⟩ := h.grows.underWay
    rw [find?_settle] at hn
    by_cases heq : other = key
    · obtain rfl : c.next = n := Option.some.inj (hself.symm.trans (heq ▸ hn))
      rw [get?_settle_self, hunderWay] at he
      cases he
      exact fun r hr => (hrs r hr).settle hunderWay _
    · exact h.anchored_of_settled hn hother heq he

/-- If it is taken out again, what leads to it leads to a schema that failed. -/
theorem of_removed {schema : Schema} {why : ParseFailure} (hnone : c.find? key = none)
    (h : (c.install key schema).Anchors c') :
    c.Anchors ((c'.settle c.next (.failed why)).remove key) where
  grows := .of_removed hnone h.grows
  anchored other n e rs hn hother he r hr := by
    obtain ⟨hunderWay, hself⟩ := h.grows.underWay
    rw [find?_remove] at hn
    by_cases heq : other = key
    · rw [if_pos heq] at hn
      cases hn
    · rw [if_neg heq, find?_settle] at hn
      rw [get?_remove] at he
      have hfailed : (c'.settle c.next (.failed why)).Failed c.next := by
        refine ⟨schema, why, ?_⟩
        rw [get?_settle_self, hunderWay]
        rfl
      have hanchored := h.anchored_of_settled hn hother heq he r hr
      exact hanchored.remove hself (Nat.le_refl _) hfailed

end Anchors

/-- If every read anchors what it adds, so does resolving the relationships that fields declare, and
these are anchored themselves. -/
theorem relateAll_anchors {read : SchemaCache → ModelRef → SchemaCache × Except ParseFailure Nat}
    (base : Nat) (name : String) (owner position : Nat) (c : SchemaCache) (fields : List Field)
    (hread : ∀ (c₁ : SchemaCache) (model : ModelRef), c₁.Anchors (read c₁ model).1)
    (hfound : ∀ (c₁ c₂ : SchemaCache) (model : ModelRef) (n : Nat),
      read c₁ model = (c₂, .ok n) → c₂.find? ⟨model.id, none⟩ = some n) :
    c.Anchors (relateAll read name owner position c fields).1
      ∧ ∀ rs, (relateAll read name owner position c fields).2 = .ok rs →
          ∀ r ∈ rs, (relateAll read name owner position c fields).1.Anchored base r := by
  induction fields generalizing c position with
  | nil =>
    refine ⟨.refl c, fun rs hrs r hr => ?_⟩
    cases hrs
    cases hr
  | cons field fields ih =>
    have hanchors : ∀ (c₁ : SchemaCache) (model : ModelRef) (c₂ : SchemaCache)
        (result : Except ParseFailure Nat), read c₁ model = (c₂, result) → c₁.Anchors c₂ :=
      fun c₁ model c₂ result h => by
        have hstep := hread c₁ model
        rwa [h] at hstep
    cases hresult : relateAll read name owner position c (field :: fields) with
    | mk c' result =>
      cases result with
      | ok rs =>
        obtain ⟨model, c₁, related, c₂, r, rs', hmodel, hr, hrelate, hlater, rfl⟩ :=
          relateAll_ok hresult
        have h₂ : c₁.Anchors c₂ := .of_relate_ok hrelate
        obtain ⟨h₃, hrest⟩ := ih (position + 1) c₂
        rw [hlater] at h₃ hrest
        refine ⟨(hanchors _ _ _ _ hr).trans (h₂.trans h₃), fun rs hrs => ?_⟩
        cases hrs
        -- The relationship leads to what was read for its field.
        obtain ⟨pairing, join, hpairing, hrelationship, -⟩ := relate_ok hrelate
        obtain ⟨e, e', -, -, rfl⟩ := pairing?_eq_some.mp hpairing
        obtain ⟨hfield, hrelated, -⟩ := Pairing.relationship_ok hrelationship
        have hhead : c₁.Anchored base r := by
          refine ⟨model, ?_, .inl ?_⟩
          · rw [hfield]
            exact hmodel
          · rw [hrelated]
            exact hfound _ _ _ _ hr
        exact List.forall_mem_cons.mpr
          ⟨hhead.grows (h₂.grows.trans h₃.grows), fun r' hr' => hrest rs' rfl r' hr'⟩
      | error failure =>
        refine ⟨?_, fun rs hrs => by cases hrs⟩
        obtain ⟨rfl, -⟩ | ⟨model, hmodel, hr | ⟨c₁, related, hr, hlast⟩⟩ := relateAll_error hresult
        · exact .refl _
        · exact hanchors _ _ _ _ hr
        · have h₁ : c.Anchors c₁ := hanchors _ _ _ _ hr
          obtain ⟨rfl, -⟩ | ⟨c₂, r, hrelate, hlater⟩ := hlast
          · exact h₁
          · have h₃ := (ih (position + 1) c₂).1
            rw [hlater] at h₃
            exact h₁.trans (.trans (.of_relate_ok hrelate) h₃)

/-- Reading anchors what it adds, whether it succeeds or fails. -/
theorem readWithin_anchors (depth : Nat) (c : SchemaCache) (model : ModelRef)
    (table : Option String) : c.Anchors (c.readWithin depth model table).1 := by
  induction depth generalizing c model table with
  | zero => exact .refl c
  | succ depth ih =>
    -- The schema is installed before its relationships are read, so these may lead back to it.
    have hrelated (schema : Schema) :=
      relateAll_anchors c.next schema.name c.next 0 (c.install ⟨model.id, table⟩ schema)
        (schema.fieldsAt schema.candidates) (fun c₁ inner => ih c₁ inner none)
        fun _ _ _ _ => find?_of_readWithin_ok
    cases hresult : c.readWithin (depth + 1) model table with
    | mk c' result =>
      cases result with
      | ok n =>
        obtain ⟨-, rfl⟩ | ⟨schema, rs, c₁, hnone, -, hrelate, rfl, -⟩ := readWithin_ok hresult
        · exact .refl _
        · obtain ⟨h₁, hrs⟩ := hrelated schema
          rw [hrelate] at h₁ hrs
          exact .of_settled hnone h₁ (hrs rs rfl)
      | error failure =>
        obtain ⟨hnone, ⟨rfl, -⟩ | ⟨schema, c₁, -, hrelate, rfl⟩⟩ := readWithin_error hresult
        · exact .refl _
        · obtain ⟨h₁, -⟩ := hrelated schema
          rw [hrelate] at h₁
          exact .of_removed hnone h₁

theorem parse_anchors (c : SchemaCache) (model : ModelRef) (table : Option String) :
    c.Anchors (c.parse model table).1 := by
  rw [parse_fst]
  exact readWithin_anchors _ c model table

/-! ## Calls that fail -/

/-- A call that fails, after any calls before it, leaves nothing under its own key. What was found
before is found as it was. Whatever is found besides belongs to a record type that the fields of the
failed one lead to, is stored in the table of that type, and has its relationships resolved. Each of
these relationships leads to what is found for the record type of its field, or to a schema that was
read and failed during the call. -/
theorem failed_parse_leaves_related_only (catalog : Catalog) (naming : Naming)
    (calls : List ParseCall) (call : ParseCall) (c' : SchemaCache) (failure : ParseFailure)
    (h : ((empty catalog naming).parseAll calls).parse call.model call.table
      = (c', .error failure)) :
    let c := (empty catalog naming).parseAll calls
    c.find? call.key = none ∧ c'.find? call.key = none
      ∧ (∀ key n, c.find? key = some n → c'.find? key = some n ∧ c'.get? n = c.get? n)
      ∧ ∀ key n, c'.find? key = some n → c.find? key = none →
          c.next ≤ n ∧ key.table = none ∧ Reaches catalog naming call.key key
            ∧ ∃ schema rs, c'.get? n = some ⟨schema, .resolved rs⟩
              ∧ ∀ r ∈ rs, c'.Anchored c.next r := by
  intro c
  have hrest : c.AtRest := (atRest_empty catalog naming).parseAll calls
  have hbefore := parseAll_grows (empty catalog naming) calls
  have hcatalog : c.catalog = catalog := hbefore.catalog
  have hnaming : c.naming = naming := hbefore.naming
  have hgrows : c.Grows (Reaches catalog naming call.key) c' := by
    have hcall := parse_grows c call.model call.table
    rw [h, hcatalog, hnaming] at hcall
    exact hcall
  have hanchors : c.Anchors c' := by
    have hcall := parse_anchors c call.model call.table
    rw [h] at hcall
    exact hcall
  obtain ⟨hnone, hnone'⟩ := hrest.find?_of_parse_error h
  refine ⟨hnone, hnone', fun key n hn => ⟨hgrows.found key n hn, ?_⟩, fun key n hn hold => ?_⟩
  · obtain ⟨schema, rs, he⟩ := hrest key n hn
    rw [he, hgrows.entries n _ he]
  · obtain ⟨hreaches, hle, schema, rs, he⟩ := hgrows.fresh key n hn hold
    -- Only the schema that was asked for may be stored in another table, and it is not found.
    have hne : key ≠ call.key := fun heq => by
      rw [heq] at hn
      exact absurd (hnone'.symm.trans hn) (by simp)
    exact ⟨hle, hreaches.table_eq_none hne, hreaches, schema, rs, he,
      hanchors.anchored key n schema rs hn hold he⟩

/-- A kennel has a dog, and labels that cannot be stored; the dog belongs to the kennel. -/
def kennels : Catalog :=
  ⟨[ ( "Kennel",
      { name := "Kennel"
        fields :=
          [ { name := "ID", kind := .uint 64 }
          , { name := "Dog", kind := .record ⟨"Dog", "Dog"⟩ }
          , { name := "Labels", kind := .map } ] } )
    , ( "Dog",
      { name := "Dog"
        fields :=
          [ { name := "ID", kind := .uint 64 }
          , { name := "KennelID", kind := .uint 64 }
          , { name := "Kennel", kind := .record ⟨"Kennel", "Kennel"⟩ } ] } ) ]⟩

/-- The call for kennels. -/
def kennelCall : ParseCall := ⟨⟨"Kennel", "Kennel"⟩, none⟩

/-- The call for dogs. -/
def dogCall : ParseCall := ⟨⟨"Dog", "Dog"⟩, none⟩

theorem kennels_parse_error :
    ∃ c' failure, (empty kennels {}).parse kennelCall.model kennelCall.table = (c', .error failure)
      ∧ c'.find? dogCall.key = some 1 ∧ (c'.parse dogCall.model dogCall.table).2.toOption = some 1
      ∧ (c'.get? 1).map (fun e => e.relationships.map (·.field.kind.model?))
        = some [some kennelCall.model] := by
  have hfails : ((empty kennels {}).parse kennelCall.model kennelCall.table).2.toOption = none := by
    decide +kernel
  have hdog : ((empty kennels {}).parse kennelCall.model kennelCall.table).1.find? dogCall.key
      = some 1 := by decide +kernel
  have hparse : (((empty kennels {}).parse kennelCall.model kennelCall.table).1.parse
      dogCall.model dogCall.table).2.toOption = some 1 := by decide +kernel
  have hmodels : (((empty kennels {}).parse kennelCall.model kennelCall.table).1.get? 1).map
      (fun e => e.relationships.map (·.field.kind.model?)) = some [some kennelCall.model] := by
    decide +kernel
  -- `decide` needs closed terms, so the cache that is left behind is named after it.
  cases hresult : (empty kennels {}).parse kennelCall.model kennelCall.table with
  | mk c' result =>
    rw [hresult] at hfails hdog hparse hmodels
    cases result with
    | ok n => cases hfails
    | error failure => exact ⟨c', failure, rfl, hdog, hparse, hmodels⟩

/-- The call for kennels fails. It leaves the dog behind, whose kennel is the one that failed: a
call for dogs gives this dog, and fails on a cache in which nothing has been read. -/
theorem failed_parse_leaves_related_only_kennels :
    ∃ c' failure, (empty kennels {}).parse kennelCall.model kennelCall.table = (c', .error failure)
      ∧ (empty kennels {}).find? dogCall.key = none ∧ c'.find? dogCall.key = some 1
      ∧ (∃ schema rs, c'.get? 1 = some ⟨schema, .resolved rs⟩ ∧ rs.length = 1
          ∧ ∀ r ∈ rs, c'.Failed r.related.number)
      ∧ (c'.parse dogCall.model dogCall.table).2.toOption = some 1
      ∧ ((empty kennels {}).parse dogCall.model dogCall.table).2.toOption = none := by
  obtain ⟨c', failure, hfails, hdog, hparse, hmodels⟩ := kennels_parse_error
  have hfresh : ((empty kennels {}).parse dogCall.model dogCall.table).2.toOption = none := by
    decide +kernel
  obtain ⟨-, hkennel, -, hleft⟩ :=
    failed_parse_leaves_related_only kennels {} [] kennelCall c' failure hfails
  obtain ⟨-, -, -, schema, rs, he, hanchored⟩ := hleft _ _ hdog rfl
  rw [he, Option.map_some] at hmodels
  have hmap : rs.map (·.field.kind.model?) = [some kennelCall.model] := Option.some.inj hmodels
  have hlength : rs.length = 1 := by simpa using congrArg List.length hmap
  refine ⟨c', failure, hfails, rfl, hdog, ⟨schema, rs, he, hlength, fun r hr => ?_⟩, hparse, hfresh⟩
  -- It is the kennel that the dog leads to, which is not found.
  obtain ⟨model, hmodel, hfound | ⟨-, hfailed⟩⟩ := hanchored r hr
  · have hmem : some model ∈ rs.map (·.field.kind.model?) := List.mem_map.mpr ⟨r, hr, hmodel⟩
    rw [hmap, List.mem_singleton] at hmem
    obtain rfl := Option.some.inj hmem
    exact absurd (hkennel.symm.trans hfound) (by simp)
  · exact hfailed

end SchemaCache

end RecordSql
