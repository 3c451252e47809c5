/-
  RecordSql.Proofs.Cache.Instances

  Which schema a number stands for, said without the number: the schema of a
  key, or the join table of the relationship at a position of one
  (`Instance`).  A number is given once, so as long as no call fails different
  instances have different numbers (`number?_injective`).

  The induction is over what a call adds (`Numbers`): the instances that come
  with it have numbers of their own, none of which was given before.
-/

import RecordSql.Proofs.Cache.Resolved

namespace RecordSql

/-- A schema that has been read, by what it was read for. -/
inductive Instance where
  | keyed (key : SchemaKey)
  /-- The join table of the relationship at a position of the schema with a key. -/
  | join (key : SchemaKey) (position : Nat)

/-- The number of the join table of the relationship at a position. -/
def joinNumber? (rs : List Relationship) (position : Nat) : Option Nat :=
  (rs[position]?).bind fun r => r.joinTable.map (·.number)

namespace SchemaCache

/-- The number of an instance. -/
def number? (c : SchemaCache) : Instance → Option Nat
  | .keyed key => c.find? key
  | .join key position => do
    let n ← c.find? key
    let e ← c.get? n
    joinNumber? e.relationships position

variable {P : SchemaKey → Prop} {c c' c'' : SchemaCache} {key : SchemaKey} {n position : Nat}

theorem number?_join {e : Entry} (hn : c.find? key = some n) (he : c.get? n = some e) :
    c.number? (.join key position) = joinNumber? e.relationships position := by
  rw [number?, hn, Option.bind_eq_bind, Option.bind_some, he]
  rfl

theorem number?_join_eq_some {m : Nat} (h : c.number? (.join key position) = some m) :
    ∃ n e, c.find? key = some n ∧ c.get? n = some e
      ∧ joinNumber? e.relationships position = some m := by
  obtain ⟨n, hn, h⟩ := Option.bind_eq_some_iff.mp h
  obtain ⟨e, he, h⟩ := Option.bind_eq_some_iff.mp h
  exact ⟨n, e, hn, he, h⟩

theorem Grows.number? (h : c.Grows P c') {i : Instance} (hi : c.number? i = some n) :
    c'.number? i = some n := by
  cases i with
  | keyed key => exact h.found key n hi
  | join key position =>
    obtain ⟨m, e, hm, he, hjoin⟩ := number?_join_eq_some hi
    rw [number?_join (h.found key m hm) (h.entries m e he), hjoin]

/-! ## What a call adds -/

/-- The instances that `c'` has besides those of `c` have numbers of their own, given since. -/
structure Numbers (c c' : SchemaCache) : Prop where
  next_le : c.next ≤ c'.next
  kept : ∀ i n, c.number? i = some n → c'.number? i = some n
  fresh : ∀ i n, c'.number? i = some n → c.number? i = none → c.next ≤ n ∧ n < c'.next
  injective : ∀ i j n, c'.number? i = some n → c'.number? j = some n → c.number? i = none → i = j

namespace Numbers

theorem refl (c : SchemaCache) : c.Numbers c where
  next_le := Nat.le_refl _
  kept _ _ h := h
  fresh i n h hnone := by rw [hnone] at h; cases h
  injective i j n h _ hnone := by rw [hnone] at h; cases h

theorem trans (h : c.Numbers c') (h' : c'.Numbers c'') : c.Numbers c'' where
  next_le := Nat.le_trans h.next_le h'.next_le
  kept i n hi := h'.kept i n (h.kept i n hi)
  fresh i n hi hnone := by
    have hle := h.next_le
    have hle' := h'.next_le
    cases hmid : c'.number? i with
    | none =>
      obtain ⟨hlow, hhigh⟩ := h'.fresh i n hi hmid
      omega
    | some m =>
      obtain rfl : m = n := Option.some.inj ((h'.kept i m hmid).symm.trans hi)
      obtain ⟨hlow, hhigh⟩ := h.fresh i m hmid hnone
      omega
  injective i j n hi hj hnone := by
    cases hmid : c'.number? i with
    | none => exact h'.injective i j n hi hj hmid
    | some m =>
      obtain rfl : m = n := Option.some.inj ((h'.kept i m hmid).symm.trans hi)
      -- The number was given in the first part, so `j` has it from there too.
      cases hj' : c'.number? j with
      | none =>
        obtain ⟨-, hhigh⟩ := h.fresh i m hmid hnone
        obtain ⟨hlow, -⟩ := h'.fresh j m hj hj'
        omega
      | some k =>
        obtain rfl : k = m := Option.some.inj ((h'.kept j k hj').symm.trans hj)
        exact h.injective i j k hmid hj' hnone

/-- Numbers below the next one stay below. -/
theorem lt_next (h : c.Numbers c') (hc : ∀ i n, c.number? i = some n → n < c.next) {i : Instance}
    (hi : c'.number? i = some n) : n < c'.next := by
  cases hold : c.number? i with
  | none => exact (h.fresh i n hi hold).2
  | some m =>
    obtain rfl : m = n := Option.some.inj ((h.kept i m hold).symm.trans hi)
    exact Nat.lt_of_lt_of_le (hc i m hold) h.next_le

/-- Where no instance is added, none has a new number. -/
theorem of_number?_eq (hle : c.next ≤ c'.next) (h : ∀ i, c'.number? i = c.number? i) :
    c.Numbers c' where
  next_le := hle
  kept i n hi := (h i).trans hi
  fresh i n hi hnone := by rw [h, hnone] at hi; cases hi
  injective i j n hi _ hnone := by rw [h, hnone] at hi; cases hi

end Numbers

/-- A join table is no instance before its relationship is resolved. -/
theorem number?_add (hc : c.Numbered) (e : Entry) (i : Instance) :
    (c.add e).number? i = c.number? i := by
  cases i with
  | keyed key => rfl
  | join key position =>
    rw [number?, number?, find?_add]
    cases hn : c.find? key with
    | none => rfl
    | some n =>
      rw [Option.bind_eq_bind, Option.bind_some, get?_add, if_neg (Nat.ne_of_lt (hc key n hn))]
      rfl

/-- A schema that is installed has no join tables yet. -/
theorem number?_install (hc : c.Numbered) (hnone : c.find? key = none) (schema : Schema)
    {i : Instance} (hi : i ≠ .keyed key) : (c.install key schema).number? i = c.number? i := by
  cases i with
  | keyed other =>
    have hne : other ≠ key := fun heq => hi (heq ▸ rfl)
    rw [number?, number?, find?_install, if_neg hne]
  | join other position =>
    by_cases heq : other = key
    · have hself : (c.install key schema).get? c.next = some { schema } := by
        rw [get?_install, if_pos rfl]
      have hfound : (c.install key schema).find? other = some c.next := by
        rw [find?_install, if_pos heq]
      rw [number?_join hfound hself, number?, heq, hnone]
      rfl
    · rw [number?, number?, find?_install, if_neg heq]
      cases hn : c.find? other with
      | none => rfl
      | some n =>
        rw [Option.bind_eq_bind, Option.bind_some, get?_install,
          if_neg (Nat.ne_of_lt (hc other n hn))]
        rfl

theorem numbers_install (hc : c.Numbered) (hlt : ∀ i n, c.number? i = some n → n < c.next)
    (hnone : c.find? key = none) (schema : Schema) : c.Numbers (c.install key schema) where
  next_le := by rw [next_install]; omega
  kept i n hi := by
    have hne : i ≠ .keyed key := by
      rintro rfl
      rw [number?, hnone] at hi
      cases hi
    rw [number?_install hc hnone schema hne, hi]
  fresh i n hi hold := by
    by_cases heq : i = .keyed key
    · rw [heq, number?, find?_install, if_pos rfl] at hi
      rw [next_install]
      cases hi
      omega
    · rw [number?_install hc hnone schema heq, hold] at hi
      cases hi
  injective i j n hi hj hold := by
    by_cases heq : i = .keyed key
    · rw [heq, number?, find?_install, if_pos rfl] at hi
      cases hi
      by_cases hj' : j = .keyed key
      · rw [heq, hj']
      · rw [number?_install hc hnone schema hj'] at hj
        exact absurd (hlt j _ hj) (Nat.lt_irrefl _)
    · rw [number?_install hc hnone schema heq, hold] at hi
      cases hi

/-! ## The join tables of a list of relationships -/

/-- The join tables have been added since `c`, each under a number of its own, and are no instances
of `c'` yet. -/
structure JoinsApart (c c' : SchemaCache) (rs : List Relationship) : Prop where
  fresh : ∀ position n, joinNumber? rs position = some n →
    c.next ≤ n ∧ n < c'.next ∧ ∀ i, c'.number? i ≠ some n
  injective : ∀ position position' n, joinNumber? rs position = some n →
    joinNumber? rs position' = some n → position = position'

theorem joinsApart_nil (c c' : SchemaCache) : JoinsApart c c' [] where
  fresh _ _ h := by cases h
  injective _ _ _ h := by cases h

theorem number?_relate {owner related : Nat} {field : Field} {r : Relationship} (hc : c.Numbered)
    (h : c.relate owner related position field = (c', .ok r)) (i : Instance) :
    c'.number? i = c.number? i := by
  obtain ⟨-, join, -, -, rfl⟩ := relate_ok h
  cases join with
  | none => rfl
  | some join => exact number?_add hc _ i

/-- The first join table, if the first relationship has one, has the next number. -/
theorem joinNumber?_zero {owner related : Nat} {field : Field} {r : Relationship}
    {rs : List Relationship} (h : c.relate owner related position field = (c', .ok r))
    (hn : joinNumber? (r :: rs) 0 = some n) : n = c.next ∧ c'.next = c.next + 1 := by
  obtain ⟨pairing, join, -, hrelationship, rfl⟩ := relate_ok h
  have hnumber : (join.map fun _ => c.next) = some n :=
    (Pairing.relationship_ok hrelationship).2.2.symm.trans hn
  cases join with
  | none => cases hnumber
  | some join => exact ⟨(Option.some.inj hnumber).symm, next_add c _⟩

/-- What was an instance before has a smaller number than a join table, and what became one since a
greater. -/
theorem number?_ne_next (hlt : ∀ i n, c.number? i = some n → n < c.next)
    (hsame : ∀ i, c'.number? i = c.number? i) (hnext : c'.next = c.next + 1) (h : c'.Numbers c'')
    (i : Instance) : c''.number? i ≠ some c.next := by
  intro hi
  cases hold : c.number? i with
  | none =>
    obtain ⟨hlow, -⟩ := h.fresh i _ hi (by rw [hsame, hold])
    omega
  | some m =>
    have hkept := h.kept i m (by rw [hsame, hold])
    obtain rfl : m = c.next := Option.some.inj (hkept.symm.trans hi)
    exact Nat.lt_irrefl _ (hlt i _ hold)

theorem joinsApart_cons {owner related : Nat} {field : Field} {r : Relationship}
    {rs : List Relationship} (hc : c.Numbered) (hlt : ∀ i n, c.number? i = some n → n < c.next)
    (hrelate : c.relate owner related position field = (c', .ok r)) (h : c'.Numbers c'')
    (hrs : JoinsApart c' c'' rs) : JoinsApart c c'' (r :: rs) := by
  have hle : c.next ≤ c'.next := (Grows.of_relate_ok (P := fun _ => True) hrelate).next_le
  have hle' : c'.next ≤ c''.next := h.next_le
  have hlater : ∀ k n, joinNumber? rs k = some n → c'.next ≤ n := fun k n hk => (hrs.fresh k n hk).1
  constructor
  · intro k n hk
    cases k with
    | zero =>
      obtain ⟨rfl, hnext⟩ := joinNumber?_zero hrelate hk
      exact ⟨Nat.le_refl _, by omega,
        number?_ne_next hlt (number?_relate hc hrelate) hnext h⟩
    | succ k =>
      obtain ⟨hlow, hrest⟩ := hrs.fresh k n hk
      exact ⟨Nat.le_trans hle hlow, hrest⟩
  · intro k l n hk hl
    cases k with
    | zero =>
      cases l with
      | zero => rfl
      | succ l =>
        obtain ⟨rfl, hnext⟩ := joinNumber?_zero hrelate hk
        have hlow := hlater l _ hl
        omega
    | succ k =>
      cases l with
      | zero =>
        obtain ⟨rfl, hnext⟩ := joinNumber?_zero hrelate hl
        have hlow := hlater k _ hk
        omega
      | succ l => rw [hrs.injective k l n hk hl]

/-! ## Settling a schema -/

theorem number?_settle_join {schema : Schema} (hn : c.find? key = some n)
    (hself : c.get? n = some { schema }) (rs : List Relationship) :
    (c.settle n (.resolved rs)).number? (.join key position) = joinNumber? rs position := by
  have hsettled : (c.settle n (.resolved rs)).get? n = some ⟨schema, .resolved rs⟩ := by
    rw [get?_settle_self, hself]
    rfl
  have hfound : (c.settle n (.resolved rs)).find? key = some n := hn
  exact number?_join hfound hsettled

theorem number?_settle_of_ne (hn : ∀ other, c.find? other = some n → other = key)
    (progress : Progress) {i : Instance} (hi : ∀ position, i ≠ .join key position) :
    (c.settle n progress).number? i = c.number? i := by
  cases i with
  | keyed other => rfl
  | join other position =>
    rw [number?, number?, find?_settle]
    cases hother : c.find? other with
    | none => rfl
    | some m =>
      have hne : n ≠ m := fun heq => hi position (by rw [hn other (heq ▸ hother)])
      rw [Option.bind_eq_bind, Option.bind_some, get?_settle_of_ne _ _ hne]
      rfl

/-- A schema that is settled makes its join tables instances. -/
theorem Numbers.settle {schema : Schema} {rs : List Relationship} (h : c.Numbers c')
    (hnone : c.find? key = none) (hn : c'.find? key = some n) (hself : c'.get? n = some { schema })
    (hrs : JoinsApart c c' rs) : c.Numbers (c'.settle n (.resolved rs)) := by
  have honly : ∀ other, c'.find? other = some n → other = key := fun other hother => by
    have hsame := h.injective (.keyed key) (.keyed other) n hn hother hnone
    cases hsame
    rfl
  have hjoin : ∀ position,
      (c'.settle n (.resolved rs)).number? (.join key position) = joinNumber? rs position :=
    fun position => number?_settle_join hn hself rs
  have hother : ∀ i, (∀ position, i ≠ .join key position) →
      (c'.settle n (.resolved rs)).number? i = c'.number? i :=
    fun i hi => number?_settle_of_ne honly _ hi
  -- An instance is a join table of the schema, or it was one before.
  have hcases : ∀ i : Instance,
      (∃ position, i = .join key position) ∨ ∀ position, i ≠ .join key position := fun i => by
    by_cases hi : ∃ position, i = .join key position
    · exact .inl hi
    · exact .inr fun position heq => hi ⟨position, heq⟩
  refine ⟨?_, fun i m hi => ?_, fun i m hi hold => ?_, fun i j m hi hj hold => ?_⟩
  · rw [next_settle]
    exact h.next_le
  · obtain ⟨position, rfl⟩ | hne := hcases i
    · rw [number?, hnone] at hi
      cases hi
    · rw [hother i hne, h.kept i m hi]
  · rw [next_settle]
    obtain ⟨position, rfl⟩ | hne := hcases i
    · rw [hjoin] at hi
      obtain ⟨hlow, hhigh, -⟩ := hrs.fresh position m hi
      exact ⟨hlow, hhigh⟩
    · rw [hother i hne] at hi
      exact h.fresh i m hi hold
  · obtain ⟨position, rfl⟩ | hne := hcases i
    · rw [hjoin] at hi
      obtain ⟨position', rfl⟩ | hne' := hcases j
      · rw [hjoin] at hj
        rw [hrs.injective position position' m hi hj]
      · rw [hother j hne'] at hj
        exact absurd hj ((hrs.fresh position m hi).2.2 j)
    · rw [hother i hne] at hi
      obtain ⟨position', rfl⟩ | hne' := hcases j
      · rw [hjoin] at hj
        exact absurd hi ((hrs.fresh position' m hj).2.2 i)
      · rw [hother j hne'] at hj
        exact h.injective i j m hi hj hold

/-! ## Calls that succeed -/

theorem relateAll_numbers {read : SchemaCache → ModelRef → SchemaCache × Except ParseFailure Nat}
    {name : String} {owner position : Nat} {fields : List Field} {rs : List Relationship}
    (hread : ∀ (c₁ : SchemaCache) (model : ModelRef) (c₂ : SchemaCache) (n : Nat),
      c₁.Numbered → (∀ i n, c₁.number? i = some n → n < c₁.next) →
      read c₁ model = (c₂, .ok n) → c₁.Numbers c₂ ∧ c₂.Numbered)
    (hc : c.Numbered) (hlt : ∀ i n, c.number? i = some n → n < c.next)
    (h : relateAll read name owner position c fields = (c', .ok rs)) :
    c.Numbers c' ∧ JoinsApart c c' rs := by
  induction fields generalizing c position rs with
  | nil =>
    cases h
    exact ⟨.refl _, joinsApart_nil _ _⟩
  | cons field fields ih =>
    obtain ⟨model, c₁, related, c₂, r, rs, -, hr, hrelate, hlater, rfl⟩ := relateAll_ok h
    obtain ⟨h₁, hc₁⟩ := hread c model c₁ related hc hlt hr
    have hlt₁ : ∀ i n, c₁.number? i = some n → n < c₁.next := fun i n hi => h₁.lt_next hlt hi
    have hgrows : c₁.Grows (fun _ => True) c₂ := .of_relate_ok hrelate
    have h₂ : c₁.Numbers c₂ := .of_number?_eq hgrows.next_le (number?_relate hc₁ hrelate)
    obtain ⟨h₃, hrs⟩ := ih (hgrows.numbered hc₁) (fun i n hi => h₂.lt_next hlt₁ hi) hlater
    have hjoins := joinsApart_cons hc₁ hlt₁ hrelate h₃ hrs
    refine ⟨h₁.trans (h₂.trans h₃), fun k n hk => ?_, hjoins.injective⟩
    obtain ⟨hlow, hrest⟩ := hjoins.fresh k n hk
    exact ⟨Nat.le_trans h₁.next_le hlow, hrest⟩

/-- What reading a schema adds has numbers of its own. -/
theorem readWithin_numbers {depth : Nat} {model : ModelRef} {table : Option String}
    (hc : c.Numbered) (hlt : ∀ i n, c.number? i = some n → n < c.next)
    (h : c.readWithin depth model table = (c', .ok n)) : c.Numbers c' := by
  induction depth generalizing c c' n model table with
  | zero => cases h
  | succ depth ih =>
    obtain ⟨-, rfl⟩ | ⟨schema, rs, c₁, hnone, -, hrelate, rfl, rfl⟩ := readWithin_ok h
    · exact .refl _
    · have hc₀ := hc.install ⟨model.id, table⟩ schema
      have h₀ := numbers_install hc hlt hnone schema
      have hgrows : (c.install ⟨model.id, table⟩ schema).Grows (fun _ => True) c₁ := by
        have h₁ := install_relateAll_grows depth c ⟨model.id, table⟩ schema
          (schema.fieldsAt schema.candidates)
        rwa [hrelate] at h₁
      obtain ⟨h₁, hrs⟩ := relateAll_numbers
        (fun c₂ inner c₃ m hc₂ hlt₂ hr => by
          have hinner := readWithin_grows depth c₂ inner none
          rw [hr] at hinner
          exact ⟨ih hc₂ hlt₂ hr, hinner.numbered hc₂⟩)
        hc₀ (fun i n hi => h₀.lt_next hlt hi) hrelate
      have hself : c₁.get? c.next = some { schema } :=
        hgrows.entries _ _ (by rw [get?_install, if_pos rfl])
      have hfound : c₁.find? ⟨model.id, table⟩ = some c.next :=
        hgrows.found _ _ (by rw [find?_install, if_pos rfl])
      refine (h₀.trans h₁).settle hnone hfound hself ⟨fun k n hk => ?_, hrs.injective⟩
      obtain ⟨hlow, hrest⟩ := hrs.fresh k n hk
      exact ⟨Nat.le_trans h₀.next_le hlow, hrest⟩

/-! ## Calls none of which fails -/

theorem AtRest.numbers_of_succeeds (hc : c.AtRest)
    (hlt : ∀ i n, c.number? i = some n → n < c.next) {calls : List ParseCall}
    (h : c.Succeeds calls) : c.Numbers (c.parseAll calls) := by
  induction calls generalizing c with
  | nil => exact .refl c
  | cons call calls ih =>
    obtain ⟨⟨n, hn⟩, hlater⟩ := h
    have hcall : c.read call.model call.table = ((c.parse call.model call.table).1, .ok n) := by
      rw [← hc.parse_eq_read, ← hn]
    have hnumbers := readWithin_numbers hc.numbered hlt hcall
    have hrest := (parse_grows c call.model call.table).atRest hc
    exact hnumbers.trans (ih hrest (fun i n hi => hnumbers.lt_next hlt hi) hlater)

theorem number?_empty (catalog : Catalog) (naming : Naming) (i : Instance) :
    (empty catalog naming).number? i = none := by
  cases i <;> rfl

section Succeeds

variable {catalog : Catalog} {naming : Naming} {calls : List ParseCall}

theorem numbers_of_succeeds (h : (empty catalog naming).Succeeds calls) :
    (empty catalog naming).Numbers ((empty catalog naming).parseAll calls) :=
  (atRest_empty catalog naming).numbers_of_succeeds
    (fun i n hi => by rw [number?_empty] at hi; cases hi) h

/-- After calls none of which failed, different instances have different numbers. -/
theorem number?_injective (h : (empty catalog naming).Succeeds calls) {i j : Instance}
    (hi : ((empty catalog naming).parseAll calls).number? i = some n)
    (hj : ((empty catalog naming).parseAll calls).number? j = some n) : i = j :=
  (numbers_of_succeeds h).injective i j n hi hj (number?_empty ..)

theorem number?_lt_next (h : (empty catalog naming).Succeeds calls) {i : Instance}
    (hi : ((empty catalog naming).parseAll calls).number? i = some n) :
    n < ((empty catalog naming).parseAll calls).next :=
  ((numbers_of_succeeds h).fresh i n hi (number?_empty ..)).2

end Succeeds

end SchemaCache

end RecordSql
