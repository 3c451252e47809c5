/-
  RecordSql.Proofs.PrimaryKeys

  Which fields are the primary key.  While the columns are given away, the list
  of keys holds the fields that say they are keys and own their columns, each
  once (`Lookups.ListsKeys`): a key that loses its column leaves the list.

  Then one of the fields is elected (`Layout.Elects`).  The field that the names
  of a key lead to is taken without a look at its column.  It may be ignored, or
  another field may own its column, and so it is the one field that can be a key
  without a column.
-/

import RecordSql.Proofs.Owners

namespace RecordSql

namespace Layout

variable {fields done : List Field} {table table' : List (String × Nat)} {l l' : Lookups}
  {f : Field} {keys primary : List Nat} {named prioritized : Option Nat}

/-! ## The list of keys -/

/-- The field at the position says that it is a key, and its column leads to it. -/
def KeyAt (fields : List Field) (table : List (String × Nat)) (position : Nat) : Prop :=
  ∃ f, fields[position]? = some f ∧ f.primaryKey = true ∧ table.lookup f.dbName = some position

/-- The list holds the keys that own their columns, each once. -/
structure Lookups.ListsKeys (fields : List Field) (l : Lookups) : Prop where
  nodup : l.primary.Nodup
  mem : ∀ i, i ∈ l.primary ↔ KeyAt fields l.byDbName i

theorem KeyAt.lt_length {i : Nat} (h : KeyAt fields table i) : i < fields.length := by
  obtain ⟨f, hf, -⟩ := h
  exact (List.getElem?_eq_some_iff.mp hf).1

/-- A field that is not given its column is no key. -/
theorem keyAt_concat_of_skip (hskip : table.lookup f.dbName ≠ some fields.length) (i : Nat) :
    KeyAt (fields ++ [f]) table i ↔ KeyAt fields table i := by
  constructor
  · rintro ⟨g, hg, hkey, hlookup⟩
    obtain hg | ⟨rfl, rfl⟩ := getElem?_concat_cases hg
    · exact ⟨g, hg, hkey, hlookup⟩
    · exact absurd hlookup hskip
  · intro h
    have hlt := h.lt_length
    obtain ⟨g, hg, hkey, hlookup⟩ := h
    refine ⟨g, ?_, hkey, hlookup⟩
    rw [List.getElem?_append_left hlt]
    exact hg

/-- A field that is given its column is a key if it says so, and who had the column is none any
more. -/
theorem keyAt_concat_of_award
    (hheld : ∀ column i, table.lookup column = some i → ∃ g, fields[i]? = some g ∧ g.dbName = column)
    (hlookup : ∀ column, table'.lookup column
      = if column = f.dbName then some fields.length else table.lookup column) (i : Nat) :
    KeyAt (fields ++ [f]) table' i
      ↔ (KeyAt fields table i ∧ table.lookup f.dbName ≠ some i)
        ∨ (i = fields.length ∧ f.primaryKey = true) := by
  constructor
  · rintro ⟨g, hg, hkey, hi⟩
    obtain hg | ⟨rfl, rfl⟩ := getElem?_concat_cases hg
    · have hlt : i < fields.length := (List.getElem?_eq_some_iff.mp hg).1
      rw [hlookup] at hi
      split at hi
      · have hlast : fields.length = i := Option.some.inj hi
        omega
      · next hother =>
        refine .inl ⟨⟨g, hg, hkey, hi⟩, fun hheldBy => ?_⟩
        obtain ⟨g', hg', hcolumn⟩ := hheld _ _ hheldBy
        obtain rfl : g = g' := Option.some.inj (hg.symm.trans hg')
        exact hother hcolumn
    · exact .inr ⟨rfl, hkey⟩
  · rintro (⟨⟨g, hg, hkey, hi⟩, hne⟩ | ⟨rfl, hkey⟩)
    · have hlt : i < fields.length := (List.getElem?_eq_some_iff.mp hg).1
      refine ⟨g, ?_, hkey, ?_⟩
      · rw [List.getElem?_append_left hlt]
        exact hg
      · have hother : g.dbName ≠ f.dbName := fun heq => hne (heq ▸ hi)
        rw [hlookup, if_neg hother]
        exact hi
    · refine ⟨f, List.getElem?_concat_length, hkey, ?_⟩
      rw [hlookup, if_pos rfl]

/-- A list of keys that the last field joins if it is one. -/
theorem mem_ite_concat {i last : Nat} (joins : Bool) :
    i ∈ (if joins then keys ++ [last] else keys) ↔ i ∈ keys ∨ (i = last ∧ joins = true) := by
  cases joins with
  | true => simp
  | false => simp

theorem nodup_ite_concat {last : Nat} (joins : Bool) (h : keys.Nodup) (hlast : last ∉ keys) :
    (if joins then keys ++ [last] else keys).Nodup := by
  cases joins with
  | true =>
    refine List.nodup_append.mpr ⟨h, List.pairwise_singleton _ _, fun a ha b hb heq => hlast ?_⟩
    rw [← List.mem_singleton.mp hb, ← heq]
    exact ha
  | false => exact h

namespace Lookups.ListsKeys

theorem empty : ListsKeys [] {} where
  nodup := List.nodup_nil
  mem i := by simp [KeyAt]

/-- A position that is added to the list is new. -/
theorem length_notMem (h : l.ListsKeys done) : done.length ∉ l.primary := by
  intro hmem
  have hlt := ((h.mem _).mp hmem).lt_length
  omega

/-- If nothing becomes of the field, the keys are those there were. -/
theorem skip (h : l.ListsKeys done) (hskip : l.byDbName.lookup f.dbName ≠ some done.length) :
    l.ListsKeys (done ++ [f]) where
  nodup := h.nodup
  mem i := by
    rw [keyAt_concat_of_skip hskip]
    exact h.mem i

/-- The list follows the columns. -/
theorem step (h : l.ListsKeys done) (hawards : l.Awards done) (hstep : AddsColumn done f l l') :
    l'.ListsKeys (done ++ [f]) := by
  have hheld : ∀ column i, l.byDbName.lookup column = some i →
      ∃ g, done[i]? = some g ∧ g.dbName = column := by
    intro column i hi
    obtain ⟨g, hg⟩ := hawards.held column i hi
    exact ⟨g, hg.contends.field, hg.contends.column_eq⟩
  have hnew : ∀ column, l.byDbName.lookup column ≠ some done.length := by
    intro column hlast
    obtain ⟨g, hg, -⟩ := hheld _ _ hlast
    have hlt : done.length < done.length := (List.getElem?_eq_some_iff.mp hg).1
    omega
  cases hstep with
  | unstored => exact h.skip (hnew _)
  | left => exact h.skip (hnew _)
  | first hne hnone =>
    have hmem := keyAt_concat_of_award (f := f) hheld fun column =>
      lookup_concat f.dbName column done.length l.byDbName hnone
    constructor
    · exact nodup_ite_concat _ h.nodup h.length_notMem
    · intro i
      -- Nobody had the column, so nobody leaves the list.
      have hstays : l.byDbName.lookup f.dbName ≠ some i := by
        rw [hnone]
        nofun
      rw [mem_ite_concat, hmem, h.mem, and_iff_left hstays]
  | taken holder g hne hholder hg hpermission hlt =>
    have hmem := keyAt_concat_of_award (f := f) hheld fun column =>
      lookup_setPosition f.dbName column done.length l.byDbName
    constructor
    · exact nodup_ite_concat _ (h.nodup.filter _) fun hlast =>
        h.length_notMem (List.mem_filter.mp hlast).1
    · intro i
      have hleaves : (i != holder) = true ↔ l.byDbName.lookup f.dbName ≠ some i := by
        rw [hholder, bne_iff_ne, Ne, Ne, Option.some.injEq, eq_comm]
      rw [mem_ite_concat, hmem, List.mem_filter, h.mem, hleaves]

end Lookups.ListsKeys

theorem Lookups.listsKeys_all (fields : List Field) :
    (fields.zipIdx.foldl (Lookups.add fields) {}).ListsKeys fields := by
  -- The columns are needed at each step, and so they are carried along.
  have h : (fields.zipIdx.foldl (Lookups.add fields) {}).Awards fields
      ∧ (fields.zipIdx.foldl (Lookups.add fields) {}).ListsKeys fields :=
    addAll_of_add (P := fun done l => l.Awards done ∧ l.ListsKeys done)
      ⟨awards_empty, .empty⟩ fun done f l hdone h =>
        ⟨h.1.add hdone, { h.2.step h.1 (h.1.addsColumn hdone) with }⟩
  exact h.2

/-! ## The election -/

/-- Whether the field at the position says that it is a key. -/
def declaresKey (fields : List Field) (position : Nat) : Bool := (fields[position]?).any (·.primaryKey)

theorem declaresKey_iff {i : Nat} :
    declaresKey fields i = true ↔ ∃ f, fields[i]? = some f ∧ f.primaryKey = true := by
  rw [declaresKey, Option.any_eq_true]

/-- What comes of the keys that are listed and of the field that the names of a key lead to: the field
that stands for the key, and the fields of the key. -/
inductive Elects (declares : Nat → Bool) (keys : List Nat) (named prioritized : Option Nat)
    (primary : List Nat) : Prop where
  /-- The field with the name says that it is a key. -/
  | itself (i : Nat) (hnamed : named = some i) (hdeclares : declares i = true)
    (hprioritized : prioritized = some i) (hprimary : primary = keys)
  /-- There is no key, and the field with the name is made the key. -/
  | made (i : Nat) (hnamed : named = some i) (hnone : keys = [])
    (hprioritized : prioritized = some i) (hprimary : primary = [i])
  /-- The field with the name says nothing, if there is one. The only key stands for itself, and of
  several keys one may stand for all. -/
  | other (hnamed : ∀ i, named = some i → declares i = false) (hmem : ∀ i, prioritized = some i → i ∈ keys)
    (honly : ∀ i, keys = [i] → prioritized = some i) (hprimary : primary = keys)

/-- The fields of the key are those that are listed, or the one field that is made a key. -/
theorem Elects.primary_eq {declares : Nat → Bool} (h : Elects declares keys named prioritized primary) :
    primary = keys
      ∨ ∃ i, named = some i ∧ keys = [] ∧ prioritized = some i ∧ primary = [i] := by
  cases h with
  | itself _ _ _ _ hprimary => exact .inl hprimary
  | made i hnamed hnone hprioritized hprimary => exact .inr ⟨i, hnamed, hnone, hprioritized, hprimary⟩
  | other _ _ _ hprimary => exact .inl hprimary

/-- The key that stands for all where none has the name of a key. -/
def mainKey? (fields : List Field) (keys : List Nat) : Option Nat :=
  match keys with
  | [only] => some only
  | several => several.find? fun i => (fields[i]?).any (·.autoIncrement)

theorem mem_of_mainKey? {i : Nat} (h : mainKey? fields keys = some i) : i ∈ keys := by
  rcases keys with - | ⟨k, - | ⟨j, rest⟩⟩
  · cases h
  · cases h
    exact List.mem_singleton_self _
  · have hfound : (k :: j :: rest).find? (fun i => (fields[i]?).any (·.autoIncrement)) = some i := h
    exact List.mem_of_find?_eq_some hfound

theorem electPrimary_elects (fields : List Field) (l : Lookups) :
    Elects (declaresKey fields) l.primary
      (keyNames.findSome? fun name =>
        (l.byDbName.lookup name).orElse fun _ => l.byName.lookup name)
      (electPrimary fields l).1 (electPrimary fields l).2 := by
  have hmem : ∀ i, mainKey? fields l.primary = some i → i ∈ l.primary := fun _ => mem_of_mainKey?
  have honly : ∀ i, l.primary = [i] → mainKey? fields l.primary = some i := fun i h => by
    rw [h, mainKey?]
  rw [electPrimary]
  split
  · next hnone => exact .other (fun i hi => nomatch hnone.symm.trans hi) hmem honly rfl
  · next i hi =>
    split
    · next hdeclares => exact .itself i hi hdeclares rfl rfl
    · next hsilent =>
      split
      · next hempty => exact .made i hi (List.isEmpty_iff.mp hempty) rfl rfl
      · refine .other (fun j hj => ?_) hmem honly rfl
        obtain rfl : i = j := Option.some.inj (hi.symm.trans hj)
        exact Bool.eq_false_iff.mpr hsilent

/-- Marking the keys makes a key of the field that is elected as the only one. -/
theorem getElem?_markKeys {i : Nat} (hf : fields[i]? = some f) :
    ∃ f', (markKeys fields prioritized primary)[i]? = some f' ∧ f'.dbName = f.dbName
      ∧ (f'.primaryKey = true ↔
        f.primaryKey = true ∨ primary = [i] ∧ prioritized = some i) := by
  rw [markKeys, List.getElem?_map, List.getElem?_zipIdx, hf]
  refine ⟨_, rfl, ?_, ?_⟩
  · dsimp only
    split <;> split <;> rfl
  · dsimp only
    split
    · next hmade =>
      simp only [Nat.zero_add, Bool.and_eq_true, beq_iff_eq] at hmade
      simp only [hmade, and_self, or_true, iff_true]
      split <;> rfl
    · next hnot =>
      simp only [Nat.zero_add, Bool.and_eq_true, beq_iff_eq] at hnot
      simp only [hnot, or_false]
      split <;> rfl

/-! ## The keys of a layout -/

/-- The field at the position is a key. -/
def IsKey (l : Layout) (position : Nat) : Prop :=
  ∃ f, l.field? position = some f ∧ f.primaryKey = true

/-- The field at the position owns its column. -/
def OwnsColumn (l : Layout) (position : Nat) : Prop :=
  ∃ f, l.field? position = some f ∧ f.dbName ≠ "" ∧ l.byDbName.lookup f.dbName = some position

/-- The field that the names of a key lead to. -/
def namedKey? (l : Layout) : Option Nat := keyNames.findSome? l.lookup

/-- The primary key is made of columns: its fields are the keys that own their columns, and the one
that stands for it is one of them. -/
structure KeysAreColumns (l : Layout) : Prop where
  nodup : l.primary.Nodup
  mem : ∀ i, i ∈ l.primary ↔ l.IsKey i ∧ l.OwnsColumn i
  prioritized : ∀ i, l.prioritized = some i → i ∈ l.primary
  only : ∀ i, l.primary = [i] → l.prioritized = some i

/-- The primary key comes of an election from the listed keys: of the fields that say that they are
keys, those that own their columns. One more field may be made a key. -/
structure ElectedFrom (l : Layout) (declares : Nat → Bool) (keys : List Nat) : Prop where
  nodup : keys.Nodup
  mem : ∀ i, i ∈ keys ↔ declares i = true ∧ l.OwnsColumn i
  named : ∀ i, l.namedKey? = some i → ∃ f, l.field? i = some f
  elects : Elects declares keys l.namedKey? l.prioritized l.primary
  isKey : ∀ i, l.IsKey i ↔
    declares i = true ∨ (l.primary = [i] ∧ l.prioritized = some i) ∧ ∃ f, l.field? i = some f

section Marked

variable {l : Layout} {i : Nat} (hmarked : l.fields = markKeys fields l.prioritized l.primary)

include hmarked

theorem field?_of_marked (hf : fields[i]? = some f) :
    ∃ f', l.field? i = some f' ∧ f'.dbName = f.dbName
      ∧ (f'.primaryKey = true ↔
        f.primaryKey = true ∨ l.primary = [i] ∧ l.prioritized = some i) := by
  rw [field?, hmarked]
  exact getElem?_markKeys hf

/-- The marks add no field. -/
theorem exists_field_of_marked (hf : l.field? i = some f) : ∃ f, fields[i]? = some f := by
  have hlt : i < l.fields.length := (List.getElem?_eq_some_iff.mp hf).1
  rw [hmarked, markKeys, List.length_map, List.length_zipIdx] at hlt
  exact ⟨fields[i], List.getElem?_eq_getElem hlt⟩

/-- The fields that were keys before the marks and own their columns own them still. -/
theorem keyAt_iff_of_marked (hl : l.Consistent) :
    KeyAt fields l.byDbName i ↔ declaresKey fields i = true ∧ l.OwnsColumn i := by
  constructor
  · rintro ⟨f, hf, hkey, hlookup⟩
    obtain ⟨f', hf', hcolumn, -⟩ := field?_of_marked hmarked hf
    rw [← hcolumn] at hlookup
    have hne : f'.dbName ≠ "" := (hl.held _ _ hlookup).1
    exact ⟨declaresKey_iff.mpr ⟨f, hf, hkey⟩, f', hf', hne, hlookup⟩
  · rintro ⟨hdeclares, g, hg, -, hlookup⟩
    obtain ⟨f, hf, hkey⟩ := declaresKey_iff.mp hdeclares
    obtain ⟨f', hf', hcolumn, -⟩ := field?_of_marked hmarked hf
    obtain rfl : f' = g := Option.some.inj (hf'.symm.trans hg)
    rw [hcolumn] at hlookup
    exact ⟨f, hf, hkey, hlookup⟩

/-- The keys are those that there were before the marks, and the field that is elected as the only one. -/
theorem isKey_iff_of_marked :
    l.IsKey i ↔ declaresKey fields i = true
      ∨ (l.primary = [i] ∧ l.prioritized = some i) ∧ ∃ f, l.field? i = some f := by
  constructor
  · rintro ⟨f', hf', hkey'⟩
    obtain ⟨f, hf⟩ := exists_field_of_marked hmarked hf'
    obtain ⟨g, hg, -, hkey⟩ := field?_of_marked hmarked hf
    obtain rfl : f' = g := Option.some.inj (hf'.symm.trans hg)
    obtain hdeclares | hmade := hkey.mp hkey'
    · exact .inl (declaresKey_iff.mpr ⟨f, hf, hdeclares⟩)
    · exact .inr ⟨hmade, f', hf'⟩
  · intro h
    have hbefore : ∃ f, fields[i]? = some f ∧ (f.primaryKey = true
        ∨ l.primary = [i] ∧ l.prioritized = some i) := by
      obtain hdeclares | ⟨hmade, g, hg⟩ := h
      · obtain ⟨f, hf, hkey⟩ := declaresKey_iff.mp hdeclares
        exact ⟨f, hf, .inl hkey⟩
      · obtain ⟨f, hf⟩ := exists_field_of_marked hmarked hg
        exact ⟨f, hf, .inr hmade⟩
    obtain ⟨f, hf, hcases⟩ := hbefore
    obtain ⟨f', hf', -, hkey⟩ := field?_of_marked hmarked hf
    exact ⟨f', hf', hkey.mpr hcases⟩

end Marked

namespace Assembled

variable {l : Layout} {name : String} {i : Nat}

theorem exists_field_of_namedKey (h : l.Assembled) (hnamed : l.namedKey? = some i) :
    ∃ f, l.field? i = some f := by
  obtain ⟨name, -, hlookup⟩ := List.exists_of_findSome?_eq_some hnamed
  obtain ⟨f, hf⟩ := h.answers hlookup
  exact ⟨f, hf.field⟩

theorem exists_election (h : l.Assembled) : ∃ declares keys, l.ElectedFrom declares keys := by
  have hassembled := h
  obtain ⟨_, _, declared, ns, h⟩ := h
  obtain ⟨lookups, hlookups, -, -, -, hmarked, helected, -, hbyDbName, hbyName⟩ := assemble_ok h
  have hkeys : lookups.ListsKeys (declared.map (columned ns)) :=
    hlookups ▸ Lookups.listsKeys_all _
  generalize declared.map (columned ns) = before at hmarked helected hkeys
  have helects := electPrimary_elects before lookups
  rw [← hbyDbName, ← hbyName, ← helected] at helects
  refine ⟨declaresKey before, lookups.primary, hkeys.nodup, fun i => ?_,
    fun _ => hassembled.exists_field_of_namedKey, helects, fun i => isKey_iff_of_marked hmarked⟩
  rw [hkeys.mem, ← hbyDbName]
  exact keyAt_iff_of_marked hmarked hassembled.consistent

/-- A field that a name of a key leads to, and that owns no column, is found by its bare name. -/
theorem exists_first_of_namedKey (h : l.Assembled) (hnamed : l.namedKey? = some i)
    (howns : ¬ l.OwnsColumn i) :
    ∃ name ∈ keyNames, name ∉ l.dbNames ∧ ∃ f, FirstOf l.fields name i f := by
  obtain ⟨name, hname, hlookup⟩ := List.exists_of_findSome?_eq_some hnamed
  have hnone : name ∉ l.dbNames := by
    intro hmem
    obtain ⟨holder, hholder⟩ := (h.consistent.columns name).mp hmem
    rw [lookup, hholder] at hlookup
    obtain rfl : holder = i := Option.some.inj hlookup
    obtain ⟨hne, f, hf, rfl⟩ := h.consistent.held name holder hholder
    exact howns ⟨f, hf, hne, hholder⟩
  obtain ⟨f, hf⟩ := h.answers hlookup
  exact ⟨name, hname, hnone, f, hf.first hnone⟩

end Assembled

namespace ElectedFrom

variable {l : Layout} {declares : Nat → Bool} {i : Nat}

theorem primary_nodup (h : l.ElectedFrom declares keys) : l.primary.Nodup := by
  obtain hprimary | ⟨j, -, -, -, hprimary⟩ := h.elects.primary_eq
  · exact hprimary ▸ h.nodup
  · exact hprimary ▸ List.pairwise_singleton _ j

/-- The fields of the primary key are keys. -/
theorem isKey_of_mem (h : l.ElectedFrom declares keys) (hi : i ∈ l.primary) : l.IsKey i := by
  rw [h.isKey]
  obtain hprimary | ⟨j, hj, -, hprioritized, hprimary⟩ := h.elects.primary_eq
  · exact .inl ((h.mem i).mp (hprimary ▸ hi)).1
  · obtain rfl : i = j := List.mem_singleton.mp (hprimary ▸ hi)
    exact .inr ⟨⟨hprimary, hprioritized⟩, h.named i hj⟩

/-- A key that owns its column is one of the fields of the primary key. -/
theorem mem_of_isKey (h : l.ElectedFrom declares keys) (hkey : l.IsKey i) (howns : l.OwnsColumn i) :
    i ∈ l.primary := by
  obtain hdeclares | ⟨⟨hprimary, -⟩, -⟩ := (h.isKey i).mp hkey
  · have hlisted : i ∈ keys := (h.mem i).mpr ⟨hdeclares, howns⟩
    obtain hprimary | ⟨_, -, hnone, -⟩ := h.elects.primary_eq
    · exact hprimary ▸ hlisted
    · exact absurd hlisted (hnone ▸ List.not_mem_nil)
  · exact hprimary ▸ List.mem_singleton_self i

/-- A field of the primary key owns its column, unless the names of a key lead to it. -/
theorem ownsColumn_of_mem (h : l.ElectedFrom declares keys) (hi : i ∈ l.primary) :
    l.OwnsColumn i ∨ l.namedKey? = some i := by
  obtain hprimary | ⟨j, hj, -, -, hprimary⟩ := h.elects.primary_eq
  · exact .inl ((h.mem i).mp (hprimary ▸ hi)).2
  · obtain rfl : i = j := List.mem_singleton.mp (hprimary ▸ hi)
    exact .inr hj

/-- If the names of a key lead to a key that owns no column, that stands for the primary key, alone or
as none of its fields. -/
theorem prioritized_of_named (h : l.ElectedFrom declares keys) (hnamed : l.namedKey? = some i)
    (hkey : l.IsKey i) (howns : ¬ l.OwnsColumn i) :
    l.prioritized = some i ∧ (i ∈ l.primary → l.primary = [i]) := by
  have hunlisted : i ∉ keys := fun hmem => howns ((h.mem i).mp hmem).2
  cases h.elects with
  | itself j hj _ hprioritized hprimary =>
    obtain rfl : i = j := Option.some.inj (hnamed.symm.trans hj)
    exact ⟨hprioritized, fun hmem => absurd (hprimary ▸ hmem) hunlisted⟩
  | made j hj _ hprioritized hprimary =>
    obtain rfl : i = j := Option.some.inj (hnamed.symm.trans hj)
    exact ⟨hprioritized, fun _ => hprimary⟩
  | other hsilent _ _ hprimary =>
    -- Nobody was made a key, so it says that it is one.
    have hdeclares : declares i = true := by
      refine ((h.isKey i).mp hkey).resolve_right fun hmade => hunlisted ?_
      rw [← hprimary, hmade.1.1]
      exact List.mem_singleton_self i
    rw [hsilent i hnamed] at hdeclares
    cases hdeclares

section Owning

variable (howns : ∀ i, l.namedKey? = some i → l.IsKey i → l.OwnsColumn i)

include howns

/-- The field with the name of a key, if it says that it is one, is one of the fields of the key. -/
theorem mem_of_declares (h : l.ElectedFrom declares keys) (hnamed : l.namedKey? = some i)
    (hdeclares : declares i = true) : i ∈ l.primary := by
  have hkey : l.IsKey i := (h.isKey i).mpr (.inl hdeclares)
  exact h.mem_of_isKey hkey (howns i hnamed hkey)

/-- What stands for the key is one of its fields. -/
theorem mem_of_prioritized (h : l.ElectedFrom declares keys) (hi : l.prioritized = some i) :
    i ∈ l.primary := by
  cases h.elects with
  | itself j hj hdeclares hprioritized _ =>
    obtain rfl : i = j := Option.some.inj (hi.symm.trans hprioritized)
    exact h.mem_of_declares howns hj hdeclares
  | made j _ _ hprioritized hprimary =>
    obtain rfl : i = j := Option.some.inj (hi.symm.trans hprioritized)
    exact hprimary ▸ List.mem_singleton_self i
  | other _ hlisted _ hprimary => exact hprimary ▸ hlisted i hi

/-- The only field of the key stands for it. -/
theorem prioritized_of_only (h : l.ElectedFrom declares keys) (hi : l.primary = [i]) :
    l.prioritized = some i := by
  cases h.elects with
  | itself j hj hdeclares hprioritized _ =>
    -- The field with the name owns its column, so it is the only key.
    have hmem : j ∈ l.primary := h.mem_of_declares howns hj hdeclares
    rw [hi] at hmem
    rw [hprioritized, List.mem_singleton.mp hmem]
  | made j _ _ hprioritized hprimary =>
    obtain rfl : i = j := List.singleton_inj.mp (hi.symm.trans hprimary)
    exact hprioritized
  | other _ _ honly hprimary => exact honly i (hprimary ▸ hi)

end Owning

/-- The primary key is made of columns exactly if the names of a key lead to no key without one. -/
theorem keysAreColumns_iff (h : l.ElectedFrom declares keys) :
    l.KeysAreColumns ↔ ∀ i, l.namedKey? = some i → l.IsKey i → l.OwnsColumn i := by
  constructor
  · intro hcolumns i hi hkey
    refine Classical.byContradiction fun howns => ?_
    have hprioritized := (h.prioritized_of_named hi hkey howns).1
    exact howns ((hcolumns.mem i).mp (hcolumns.prioritized i hprioritized)).2
  · intro howns
    refine ⟨h.primary_nodup, fun i => ?_, fun i => h.mem_of_prioritized howns,
      fun i => h.prioritized_of_only howns⟩
    constructor
    · intro hi
      have hkey : l.IsKey i := h.isKey_of_mem hi
      obtain hcolumn | hnamed := h.ownsColumn_of_mem hi
      · exact ⟨hkey, hcolumn⟩
      · exact ⟨hkey, howns i hnamed hkey⟩
    · rintro ⟨hkey, hcolumn⟩
      exact h.mem_of_isKey hkey hcolumn

end ElectedFrom

end Layout

namespace Schema

/-- The primary key of a schema holds every key that owns its column, and nothing but keys, each once.
It is made of columns unless the names of a key lead to a key that owns none. Such a key is found by
its bare name; it stands for the primary key, alone or next to the fields that make it up, with a
column that is not its own. -/
theorem primary_keys_own_columns_iff {catalog : Catalog} {ns : Naming} {ref : ModelRef}
    {table : Option String} {s : Schema} (h : parse catalog ns ref table = .ok s) :
    s.primary.Nodup ∧ (∀ i ∈ s.primary, s.IsKey i)
      ∧ (∀ i, s.IsKey i → s.OwnsColumn i → i ∈ s.primary)
      ∧ (s.KeysAreColumns ↔ ∀ i, s.namedKey? = some i → s.IsKey i → s.OwnsColumn i)
      ∧ ∀ i, s.namedKey? = some i → s.IsKey i → ¬ s.OwnsColumn i →
        (s.prioritized = some i ∧ (i ∈ s.primary → s.primary = [i]))
        ∧ ∃ name ∈ Layout.keyNames, name ∉ s.dbNames ∧ ∃ f, FirstOf s.fields name i f
          ∧ s.primaryColumn? = some f.dbName ∧ s.byDbName.lookup f.dbName ≠ some i := by
  have hassembled : s.toLayout.Assembled := (assembled_of_parse h).1
  obtain ⟨declares, keys, helected⟩ := hassembled.exists_election
  refine ⟨helected.primary_nodup, fun i => helected.isKey_of_mem, fun i => helected.mem_of_isKey,
    helected.keysAreColumns_iff, fun i hnamed hkey howns => ?_⟩
  have hstands := helected.prioritized_of_named hnamed hkey howns
  obtain ⟨name, hname, hnone, f, hf⟩ := hassembled.exists_first_of_namedKey hnamed howns
  have hfield : s.field? i = some f := hf.field
  have hcolumn : s.primaryColumn? = some f.dbName := by
    rw [Layout.primaryColumn?, hstands.1]
    show ((some i).bind s.field?).map (·.dbName) = _
    rw [Option.bind_some, hfield]
    rfl
  have hother : s.byDbName.lookup f.dbName ≠ some i := by
    intro hlookup
    have hne : f.dbName ≠ "" := (hassembled.consistent.held _ _ hlookup).1
    exact howns ⟨f, hfield, hne, hlookup⟩
  exact ⟨hstands, name, hname, hnone, f, hf, hcolumn, hother⟩

/-- A draft has no number yet: the field is ignored. -/
def drafts : Catalog :=
  ⟨[ ( "Draft",
      { name := "Draft"
        fields :=
          [ { name := "ID", kind := .uint 64, tag := "-" }
          , { name := "Title", kind := .string } ] } ) ]⟩

/-- The number that a draft has not is its primary key, with no column. -/
theorem primary_keys_own_columns_iff_drafts :
    ∃ s, parse drafts {} ⟨"Draft", "Draft"⟩ none = .ok s ∧ ¬ s.KeysAreColumns
      ∧ s.primary = [0] ∧ s.primaryColumn? = some "" ∧ s.dbNames = ["title"] := by
  have hparsed : ((parse drafts {} ⟨"Draft", "Draft"⟩ none).toOption.map fun s =>
      decide (s.namedKey? = some 0 ∧ (s.field? 0).map (·.primaryKey) = some true
        ∧ (s.field? 0).map (·.dbName) = some ""
        ∧ s.primary = [0] ∧ s.primaryColumn? = some "" ∧ s.dbNames = ["title"]))
      = some true := by decide +kernel
  obtain ⟨s, hs, hfacts⟩ := Option.map_eq_some_iff.mp hparsed
  obtain ⟨hnamed, hkey, hempty, hprimary, hcolumn, hnames⟩ := of_decide_eq_true hfacts
  have hok : parse drafts {} ⟨"Draft", "Draft"⟩ none = .ok s := ok_of_toOption hs
  refine ⟨s, hok, fun hcolumns => ?_, hprimary, hcolumn, hnames⟩
  obtain ⟨-, -, -, hiff, -⟩ := primary_keys_own_columns_iff hok
  have hisKey : s.IsKey 0 := Option.map_eq_some_iff.mp hkey
  obtain ⟨f, hf, hne, -⟩ := hiff.mp hcolumns 0 hnamed hisKey
  rw [hf] at hempty
  exact hne (Option.some.inj hempty)

end Schema

end RecordSql
