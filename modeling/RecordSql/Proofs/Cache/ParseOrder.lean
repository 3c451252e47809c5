/-
  RecordSql.Proofs.Cache.ParseOrder

  The order of calls does not matter.  Depending on it a related schema is
  found complete, found under way, or read on the way, and gets another number
  each time; but after calls none of which failed a schema is complete, and
  complete schemas of one key differ in numbers only
  (`parse_order_irrelevant`).

  The numbers of the two caches are matched by what they stand for
  (`renumber`).  Relationships are then compared one position after the other:
  each is what its pairing makes, and the pairings of the two caches are the
  same with other numbers.
-/

import RecordSql.Proofs.Cache.AtRest
import RecordSql.Proofs.Cache.Instances
import RecordSql.Proofs.Cache.Renaming

namespace RecordSql

namespace SchemaCache

/-! ## Numbers that stand for the same -/

section

open Classical

/-- The number that `c'` gives to what `n` stands for in `c`. A number that stands for nothing they
share goes behind all numbers of `c'`. -/
noncomputable def renumber (c c' : SchemaCache) (n : Nat) : Nat :=
  if h : ∃ n' i, c.number? i = some n ∧ c'.number? i = some n' then h.choose else n + c'.next

end

/-- Different instances have different numbers, all of them given already. -/
structure Separates (c : SchemaCache) : Prop where
  injective : ∀ i j n, c.number? i = some n → c.number? j = some n → i = j
  lt_next : ∀ i n, c.number? i = some n → n < c.next

theorem separates_of_succeeds {catalog : Catalog} {naming : Naming} {calls : List ParseCall}
    (h : (empty catalog naming).Succeeds calls) :
    ((empty catalog naming).parseAll calls).Separates :=
  ⟨fun _ _ _ => number?_injective h, fun _ _ => number?_lt_next h⟩

variable {c c' : SchemaCache} {ρ : Nat → Nat}

theorem Separates.renumber_eq (hc : c.Separates) {i : Instance} {n n' : Nat}
    (h : c.number? i = some n) (h' : c'.number? i = some n') : renumber c c' n = n' := by
  have hshared : ∃ n' i, c.number? i = some n ∧ c'.number? i = some n' := ⟨n', i, h, h'⟩
  rw [renumber, dif_pos hshared]
  obtain ⟨j, hj, hj'⟩ := hshared.choose_spec
  obtain rfl : j = i := hc.injective j i n hj h
  exact Option.some.inj (hj'.symm.trans h')

/-- Numbers that are matched come from one instance, and the others are moved apart. -/
theorem Separates.renumber_injective (hc : c.Separates) (hc' : c'.Separates) :
    Function.Injective (renumber c c') := by
  have hcases : ∀ n, (∃ i, c.number? i = some n ∧ c'.number? i = some (renumber c c' n))
      ∨ renumber c c' n = n + c'.next := by
    intro n
    by_cases h : ∃ n' i, c.number? i = some n ∧ c'.number? i = some n'
    · obtain ⟨n', i, hi, hi'⟩ := h
      exact .inl ⟨i, hi, by rw [hc.renumber_eq hi hi', hi']⟩
    · exact .inr (by rw [renumber, dif_neg h])
  intro m n heq
  rcases hcases m with ⟨i, hi, hi'⟩ | hm <;> rcases hcases n with ⟨j, hj, hj'⟩ | hn
  · obtain rfl : i = j := hc'.injective i j _ hi' (heq ▸ hj')
    exact Option.some.inj (hi.symm.trans hj)
  · have hlt := hc'.lt_next i _ hi'
    omega
  · have hlt := hc'.lt_next j _ hj'
    omega
  · omega

/-! ## Relationships of the same key -/

/-- What both caches find under a key is the same schema, under numbers that are matched. -/
structure Matches (ρ : Nat → Nat) (c c' : SchemaCache) : Prop where
  injective : Function.Injective ρ
  found : ∀ key n n', c.find? key = some n → c'.find? key = some n' → ρ n = n'
  schemas : ∀ key n n', c.find? key = some n → c'.find? key = some n' →
    (c'.get? n').map (·.schema) = (c.get? n).map (·.schema)

/-- The join table of the relationship, if it has one, is in the other cache too. -/
def SharesJoin (ρ : Nat → Nat) (c c' : SchemaCache) (r : Relationship) : Prop :=
  ∀ join, r.joinTable = some join →
    ∃ j, c.get? join.number = some j ∧ c'.get? (ρ join.number) = some (j.renamed ρ)

/-- One field declares the same in both caches. -/
theorem Declares.eq_renamed (hρ : Matches ρ c c') {owner : NumberedSchema} {position : Nat}
    {field : Field} {r r' : Relationship} (h : c.Declares owner position field r)
    (h' : c'.Declares (owner.renamed ρ) position field r')
    (hjoins : ∀ n n', r.joinTable.map (·.number) = some n → r'.joinTable.map (·.number) = some n' →
      ρ n = n') :
    r' = r.renamed ρ ∧ SharesJoin ρ c c' r := by
  obtain ⟨model, related, next, join, hmodel, hfound, hschema, hr, hjoin⟩ := h
  obtain ⟨model', ⟨number', schema'⟩, next', join', hmodel', hfound', hschema', hr', hjoin'⟩ := h'
  obtain rfl : model = model' := Option.some.inj (hmodel.symm.trans hmodel')
  -- The pairing is the same with other numbers.
  obtain rfl : ρ related.number = number' := hρ.found _ _ _ hfound hfound'
  have hsame := hρ.schemas _ _ _ hfound hfound'
  obtain rfl : related.schema = schema' :=
    Option.some.inj (hschema.symm.trans (hsame.symm.trans hschema'))
  have hrenamed : (Pairing.ofField (owner.renamed ρ) (related.renamed ρ) field).relationship
      position (ρ next) = .ok (r.renamed ρ, join.map (·.renamed ρ)) := by
    have heq := (Pairing.ofField owner related field).relationship_renamed hρ.injective position
      next
    rw [hr] at heq
    exact heq
  cases join with
  | none =>
    have hfree := Pairing.relationship_without_join _ hrenamed next'
    obtain ⟨rfl, rfl⟩ := Prod.mk.inj (Except.ok.inj (hr'.symm.trans hfree))
    refine ⟨rfl, fun join hsome => ?_⟩
    have hnumber := (Pairing.relationship_ok hr).2.2
    rw [hsome] at hnumber
    cases hnumber
  | some table =>
    cases join' with
    | none =>
      have hfree := Pairing.relationship_without_join _ hr' (ρ next)
      cases hrenamed.symm.trans hfree
    | some table' =>
      have hnumber := (Pairing.relationship_ok hr).2.2
      have hnumber' := (Pairing.relationship_ok hr').2.2
      obtain rfl : ρ next = next' := hjoins next next' hnumber hnumber'
      obtain ⟨rfl, htable⟩ := Prod.mk.inj (Except.ok.inj (hr'.symm.trans hrenamed))
      obtain rfl : table' = table.renamed ρ := Option.some.inj htable
      refine ⟨rfl, fun join hsome => ?_⟩
      rw [hsome] at hnumber
      obtain rfl : join.number = next := Option.some.inj hnumber
      exact ⟨_, hjoin table rfl, hjoin' _ rfl⟩

/-- So do several, one after the other. -/
theorem Resolves.eq_renamed (hρ : Matches ρ c c') {owner : NumberedSchema} {position : Nat}
    {fields : List Field} {rs rs' : List Relationship} (h : c.Resolves owner position fields rs)
    (h' : c'.Resolves (owner.renamed ρ) position fields rs')
    (hjoins : ∀ k n n', joinNumber? rs k = some n → joinNumber? rs' k = some n' → ρ n = n') :
    rs' = rs.map (·.renamed ρ) ∧ ∀ r ∈ rs, SharesJoin ρ c c' r := by
  induction h generalizing rs' with
  | nil =>
    cases h'
    exact ⟨rfl, fun r hr => by cases hr⟩
  | cons hr _ ih =>
    cases h' with
    | cons hr' hrs' =>
      obtain ⟨rfl, hshares⟩ := hr.eq_renamed hρ hr' (hjoins 0)
      obtain ⟨rfl, hall⟩ := ih hrs' fun k => hjoins (k + 1)
      exact ⟨rfl, List.forall_mem_cons.mpr ⟨hshares, hall⟩⟩

/-! ## Two sequences of calls -/

/-- The schema of a key is the same in both caches, apart from the numbers: its name, table, fields,
columns, indexes and constraints, and its relationships one by one, with their join tables. -/
def AgreesOn (ρ : Nat → Nat) (c c' : SchemaCache) (key : SchemaKey) : Prop :=
  ∃ n e, c.find? key = some n ∧ c.get? n = some e ∧ c'.find? key = some (ρ n)
    ∧ c'.get? (ρ n) = some (e.renamed ρ) ∧ ∀ r ∈ e.relationships, SharesJoin ρ c c' r

/-- Complete schemas of one key agree. -/
theorem agreesOn_of_complete (hρ : Matches ρ c c') {key : SchemaKey} {n n' : Nat}
    (hcatalog : c'.catalog = c.catalog) (hnaming : c'.naming = c.naming)
    (hn : c.find? key = some n) (hn' : c'.find? key = some n') (h : c.Complete key n)
    (h' : c'.Complete key n')
    (hjoins : ∀ k m m', c.number? (.join key k) = some m → c'.number? (.join key k) = some m' →
      ρ m = m') : AgreesOn ρ c c' key := by
  obtain ⟨schema, rs, hparse, he, hrs⟩ := h
  obtain ⟨schema', rs', hparse', he', hrs'⟩ := h'
  rw [hcatalog, hnaming] at hparse'
  obtain rfl : schema = schema' := Except.ok.inj (hparse.symm.trans hparse')
  obtain rfl : ρ n = n' := hρ.found key n n' hn hn'
  obtain ⟨rfl, hshares⟩ := hrs.eq_renamed hρ hrs' fun k m m' hm hm' =>
    hjoins k m m' (by rw [number?_join hn he]; exact hm) (by rw [number?_join hn' he']; exact hm')
  exact ⟨n, ⟨schema, .resolved rs⟩, hn, he, hn', he', hshares⟩

section Succeeds

variable {catalog : Catalog} {naming : Naming} {calls calls' : List ParseCall}

theorem matches_of_succeeds (h : (empty catalog naming).Succeeds calls)
    (h' : (empty catalog naming).Succeeds calls') :
    let c := (empty catalog naming).parseAll calls
    let c' := (empty catalog naming).parseAll calls'
    Matches (renumber c c') c c' := by
  intro c c'
  have hc := separates_of_succeeds h
  have hgrows := parseAll_grows (empty catalog naming) calls
  have hgrows' := parseAll_grows (empty catalog naming) calls'
  refine ⟨hc.renumber_injective (separates_of_succeeds h'),
    fun key n n' hn hn' => hc.renumber_eq (i := .keyed key) hn hn', fun key n n' hn hn' => ?_⟩
  -- Both were read from the same record type for the same table.
  obtain ⟨schema, rs, hparse, he, -⟩ := complete_of_succeeds h hn
  obtain ⟨schema', rs', hparse', he', -⟩ := complete_of_succeeds h' hn'
  rw [hgrows.catalog, hgrows.naming] at hparse
  rw [hgrows'.catalog, hgrows'.naming] at hparse'
  obtain rfl : schema = schema' := Except.ok.inj (hparse.symm.trans hparse')
  rw [he, he']
  rfl

/-- What a call that succeeds asks for is found from then on. -/
theorem AtRest.find?_of_mem (hc : c.AtRest) (h : c.Succeeds calls) {call : ParseCall}
    (hcall : call ∈ calls) : ∃ n, (c.parseAll calls).find? call.key = some n := by
  induction calls generalizing c with
  | nil => cases hcall
  | cons first calls ih =>
    obtain ⟨⟨n, hn⟩, hlater⟩ := h
    have hrest := (parse_grows c first.model first.table).atRest hc
    rcases List.mem_cons.mp hcall with rfl | hcall
    · have hfound : (c.parse call.model call.table).1.find? call.key = some n :=
        hc.find?_of_parse_ok (by rw [← hn])
      exact ⟨n, (parseAll_grows _ calls).found _ n hfound⟩
    · exact ih hrest hlater hcall

end Succeeds

/-- After any two sequences of calls on empty caches none of which failed, every schema that both
caches hold is the same in both up to its number and the numbers in its relationships, which one
renumbering takes from one cache to the other. Among these schemas are all that both sequences asked
for. -/
theorem parse_order_irrelevant (catalog : Catalog) (naming : Naming)
    (calls calls' : List ParseCall) (h : (empty catalog naming).Succeeds calls)
    (h' : (empty catalog naming).Succeeds calls') :
    let c := (empty catalog naming).parseAll calls
    let c' := (empty catalog naming).parseAll calls'
    ∃ ρ : Nat → Nat, Function.Injective ρ
      ∧ (∀ key n n', c.find? key = some n → c'.find? key = some n' →
          ρ n = n' ∧ AgreesOn ρ c c' key)
      ∧ ∀ call ∈ calls, ∀ call' ∈ calls', call.key = call'.key → AgreesOn ρ c c' call.key := by
  intro c c'
  have hρ := matches_of_succeeds h h'
  have hcatalog : c'.catalog = c.catalog :=
    (parseAll_grows (empty catalog naming) calls').catalog.trans
      (parseAll_grows (empty catalog naming) calls).catalog.symm
  have hnaming : c'.naming = c.naming :=
    (parseAll_grows (empty catalog naming) calls').naming.trans
      (parseAll_grows (empty catalog naming) calls).naming.symm
  have hagrees : ∀ key n n', c.find? key = some n → c'.find? key = some n' →
      AgreesOn (renumber c c') c c' key := fun key n n' hn hn' =>
    agreesOn_of_complete hρ hcatalog hnaming hn hn' (complete_of_succeeds h hn)
      (complete_of_succeeds h' hn') fun _ _ _ => (separates_of_succeeds h).renumber_eq
  refine ⟨renumber c c', hρ.injective, fun key n n' hn hn' =>
    ⟨hρ.found key n n' hn hn', hagrees key n n' hn hn'⟩, fun call hcall call' hcall' hkey => ?_⟩
  obtain ⟨n, hn⟩ := (atRest_empty catalog naming).find?_of_mem h hcall
  obtain ⟨n', hn'⟩ := (atRest_empty catalog naming).find?_of_mem h' hcall'
  rw [← hkey] at hn'
  exact hagrees _ _ _ hn hn'

/-- The call for a hero. -/
def heroCall : ParseCall := ⟨⟨"Hero", "Hero"⟩, none⟩

theorem guild_succeeds_heroFirst : (empty guild plainNames).Succeeds [heroCall, guildCall] := by
  decide +kernel

/-- Read first, a guild comes before the heroes; after a hero it comes last. Still it is the same. -/
theorem parse_order_irrelevant_guild :
    let c := (empty guild plainNames).parseAll [guildCall]
    let c' := (empty guild plainNames).parseAll [heroCall, guildCall]
    (empty guild plainNames).Succeeds [guildCall]
      ∧ (empty guild plainNames).Succeeds [heroCall, guildCall]
      ∧ c.find? guildCall.key = some 0 ∧ c'.find? guildCall.key = some 1
      ∧ ∃ ρ : Nat → Nat, Function.Injective ρ ∧ ρ 0 = 1 ∧ AgreesOn ρ c c' guildCall.key := by
  intro c c'
  obtain ⟨ρ, hinjective, hnumbers, hcalls⟩ := parse_order_irrelevant guild plainNames [guildCall]
    [heroCall, guildCall] guild_succeeds guild_succeeds_heroFirst
  have hfirst : c.find? guildCall.key = some 0 := by decide +kernel
  have hlast : c'.find? guildCall.key = some 1 := by decide +kernel
  obtain ⟨hmatched, -⟩ := hnumbers guildCall.key 0 1 hfirst hlast
  exact ⟨guild_succeeds, guild_succeeds_heroFirst, hfirst, hlast, ρ, hinjective, hmatched,
    hcalls guildCall (by simp) guildCall (by simp) rfl⟩

end SchemaCache

end RecordSql
