/-
  RecordSql.Proofs.Cache.AtRest

  The cache between calls.  Whatever calls were made, for any record types and
  tables, and whether they succeeded or failed: what is found has its
  relationships resolved, is returned by a call for it, and every call ends.
  As long as no call failed, the relationships of what is found lead to what
  is found for the related record types.
-/

import RecordSql.Proofs.Cache.Resolved

namespace RecordSql

namespace SchemaCache

variable {c : SchemaCache} {owner : NumberedSchema} {position : Nat} {fields : List Field}
  {rs : List Relationship}

/-- A relationship leads to the schema that is found for the record type of its field. -/
theorem Declares.leads {field : Field} {r : Relationship}
    (h : c.Declares owner position field r) :
    r.field = field ∧ ∃ model, field.kind.model? = some model
      ∧ c.find? ⟨model.id, none⟩ = some r.related.number := by
  obtain ⟨model, related, next, join, hmodel, hfound, -, hrelationship, -⟩ := h
  obtain ⟨hfield, hrelated, -⟩ := Pairing.relationship_ok hrelationship
  refine ⟨hfield, model, hmodel, ?_⟩
  rw [hrelated]
  exact hfound

theorem Resolves.leads (h : c.Resolves owner position fields rs) {r : Relationship} (hr : r ∈ rs) :
    ∃ model, r.field.kind.model? = some model
      ∧ c.find? ⟨model.id, none⟩ = some r.related.number := by
  induction h with
  | nil => cases hr
  | cons hhead _ ih =>
    rcases List.mem_cons.mp hr with rfl | hr
    · obtain ⟨hfield, hleads⟩ := hhead.leads
      exact hfield ▸ hleads
    · exact ih hr

/-- After any calls, whatever is found has its relationships resolved, so that a call for it returns
it and changes nothing; and no call, for whatever record type and table, fails to end. If none of
the calls failed, every relationship of what is found leads to what is found for the record type of
its field. -/
theorem parseAll_at_rest (catalog : Catalog) (hacyclic : catalog.EmbedsAcyclically)
    (naming : Naming) (calls : List ParseCall) :
    let c := (empty catalog naming).parseAll calls
    (∀ key n, c.find? key = some n →
      (∃ schema rs, c.get? n = some ⟨schema, .resolved rs⟩)
        ∧ ∀ model : ModelRef, model.id = key.model → c.parse model key.table = (c, .ok n))
      ∧ (∀ model table, (c.parse model table).2 ≠ .error .endless)
      ∧ ((empty catalog naming).Succeeds calls →
          ∀ key n e, c.find? key = some n → c.get? n = some e → ∀ r ∈ e.relationships,
            ∃ model, r.field.kind.model? = some model
              ∧ c.find? ⟨model.id, none⟩ = some r.related.number) := by
  intro c
  have hrest : c.AtRest := (atRest_empty catalog naming).parseAll calls
  have hcatalog : c.catalog = catalog := (parseAll_grows (empty catalog naming) calls).catalog
  refine ⟨fun key n hn => ⟨hrest key n hn, fun model hmodel => ?_⟩, fun model table => ?_,
    fun hsucceeds key n e hn he r hr => ?_⟩
  · apply hrest.parse_of_find?
    rw [hmodel]
    exact hn
  · exact hrest.parse_ne_endless (hcatalog ▸ hacyclic) model table
  · obtain ⟨schema, rs, -, hentry, hresolves⟩ := complete_of_succeeds hsucceeds hn
    obtain rfl : e = ⟨schema, .resolved rs⟩ := Option.some.inj (he.symm.trans hentry)
    exact hresolves.leads hr

/-- A guild and its heroes, each of whom belongs to a guild and embeds a stamp. -/
def guild : Catalog :=
  ⟨[ ( "Guild",
      { name := "Guild"
        fields :=
          [ { name := "Code", kind := .string, tag := "primaryKey" }
          , { name := "Heroes", kind := .slice (.record ⟨"Hero", "Hero"⟩) } ] } )
    , ( "Hero",
      { name := "Hero"
        fields :=
          [ { name := "GuildCode", kind := .string }
          , { name := "Guild", kind := .record ⟨"Guild", "Guild"⟩ }
          , { name := "Stamp", kind := .record ⟨"Stamp", "Stamp"⟩, anonymous := true } ] } )
    , ("Stamp", { name := "Stamp", fields := [{ name := "Made", kind := .string }] }) ]⟩

theorem guild_embedsAcyclically : guild.EmbedsAcyclically :=
  Catalog.embedsAcyclically_of_rank (fun id => if id = "Hero" then 1 else 0) (by decide +kernel)

/-- The call for a guild. -/
def guildCall : ParseCall := ⟨⟨"Guild", "Guild"⟩, none⟩

theorem guild_succeeds : (empty guild plainNames).Succeeds [guildCall] := by decide +kernel

/-- The call for a guild reads heroes too, while the guild is under way. A call for heroes returns
them as they are, and what they belong to is the guild. -/
theorem parseAll_at_rest_guild :
    let c := (empty guild plainNames).parseAll [guildCall]
    guild.EmbedsAcyclically ∧ (empty guild plainNames).Succeeds [guildCall]
      ∧ c.find? ⟨"Hero", none⟩ = some 1 ∧ c.parse ⟨"Hero", "Hero"⟩ none = (c, .ok 1)
      ∧ ∃ e, c.get? 1 = some e ∧ e.relationships ≠ []
        ∧ ∀ r ∈ e.relationships, ∃ model, r.field.kind.model? = some model
          ∧ c.find? ⟨model.id, none⟩ = some r.related.number := by
  intro c
  obtain ⟨hfound, -, hleads⟩ :=
    parseAll_at_rest guild guild_embedsAcyclically plainNames [guildCall]
  have hhero : c.find? ⟨"Hero", none⟩ = some 1 := by decide +kernel
  obtain ⟨⟨schema, rs, he⟩, hparse⟩ := hfound _ _ hhero
  have hsome : ((c.get? 1).map fun e => e.relationships.length) = some 1 := by decide +kernel
  refine ⟨guild_embedsAcyclically, guild_succeeds, hhero, hparse _ rfl, _, he, fun hnil => ?_,
    hleads guild_succeeds _ _ _ hhero he⟩
  rw [he, Option.map_some, hnil] at hsome
  cases hsome

end SchemaCache

end RecordSql
