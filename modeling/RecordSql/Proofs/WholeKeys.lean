/-
  RecordSql.Proofs.WholeKeys

  Which keys are paired where the tag does not say how the two sides are linked.
  The sides are linked in a direction exactly by the pairs of one of five ways
  (`Pairing.Linked`), and the first direction that has any pairs is taken.  Three
  of the ways may leave keys out: a key for which no foreign key is named after it
  has no pair, and neither has a key that the tag lists beyond the foreign keys.
  So all keys are kept exactly if each has its partner (`Pairing.Matches`).
-/

import Mathlib.Data.List.Nodup
import Mathlib.Data.List.Zip
import Mathlib.Data.Option.Basic
import Mathlib.Tactic.MkIffOfInductiveProp
import RecordSql.Proofs.GuessedSides
import RecordSql.Proofs.PrimaryKeys

namespace RecordSql

/-! ## Pairs of keys -/

/-- The reference that pairs a key with the field that holds it. -/
def Reference.ofKeys (isOwn : Bool) (pair : KeyField × KeyField) : Reference :=
  { primaryKey := some pair.1, foreignKey := pair.2, ownPrimaryKey := isOwn }

namespace Pairing

/-- The keys that foreign keys are named after: those that the tag lists, or else the primary key. -/
def candidates (p : Pairing) (primary : Side) : List KeyField :=
  if p.primaryKeys.isEmpty then primary.primary else p.primaryKeys.filterMap primary.lookup

/-- The foreign key that is named after a key. -/
def partner? (p : Pairing) (d : Direction) (primary foreign : Side) (key : KeyField) :
    Option KeyField :=
  let stem := if d = .belongs then p.field.name else primary.layout.name
  let alone := (p.candidates primary).length == 1
  (foreignKeyNames stem foreign.layout.naming key alone).findSome? foreign.lookup

/-- The pairs by which two sides can be linked in a direction, each of a key and the field that holds
it. -/
inductive Linked (p : Pairing) (d : Direction) (primary foreign : Side) :
    List (KeyField × KeyField) → Prop
  /-- Nothing is listed: the fields of the primary key that a foreign key is named after. -/
  | named (hforeign : p.foreignKeys = []) (hprimary : p.primaryKeys = []) :
      Linked p d primary foreign (p.namedPairs d primary foreign)
  /-- The keys are listed: the first of them, as long as a foreign key is named after each. -/
  | referenced {keys : List KeyField} (hforeign : p.foreignKeys = []) (hprimary : p.primaryKeys ≠ [])
      (hkeys : p.primaryKeys.mapM primary.lookup = some keys)
      (hstart : (p.namedPairs d primary foreign).map Prod.fst <+: keys) :
      Linked p d primary foreign (p.namedPairs d primary foreign)
  /-- Both are listed: each foreign key with the key in its place. -/
  | listed {keys found : List KeyField} (hforeign : p.foreignKeys ≠ []) (hprimary : p.primaryKeys ≠ [])
      (hkeys : p.primaryKeys.mapM primary.lookup = some keys)
      (hfound : p.foreignKeys.mapM foreign.lookup = some found)
      (hlength : found.length ≤ keys.length) : Linked p d primary foreign (keys.zip found)
  /-- One foreign key is listed: it holds the key that stands for the primary key. -/
  | prioritized {key found : KeyField} (hforeign : p.foreignKeys ≠ []) (hprimary : p.primaryKeys = [])
      (hfound : p.foreignKeys.mapM foreign.lookup = some [found])
      (hkey : primary.prioritized = some key) : Linked p d primary foreign [(key, found)]
  /-- The foreign keys are listed: they hold the primary key, if they are as many as its fields. -/
  | whole {found : List KeyField} (hforeign : p.foreignKeys ≠ []) (hprimary : p.primaryKeys = [])
      (hfound : p.foreignKeys.mapM foreign.lookup = some found)
      (hlength : primary.primary.length = found.length)
      (hnone : found.length = 1 → primary.prioritized = none) :
      Linked p d primary foreign (primary.primary.zip found)

/-- No key is left out: the keys that the tag lists stand in the references in their places, and so
does the primary key where nothing is listed; and each stands there once. -/
@[mk_iff]
structure KeepsKeys (p : Pairing) (primary foreign : Side) (refs : List Reference) : Prop where
  foreign : p.foreignKeys ≠ [] →
    refs.map (fun ref => some ref.foreignKey) = p.foreignKeys.map foreign.lookup
      ∧ (refs.map (·.foreignKey)).Nodup
  listed : p.primaryKeys ≠ [] →
    refs.map (·.primaryKey) = p.primaryKeys.map primary.lookup ∧ (refs.map (·.primaryKey)).Nodup
  whole : p.foreignKeys = [] → p.primaryKeys = [] →
    refs.map (·.primaryKey) = primary.primary.map some ∧ (refs.map (·.primaryKey)).Nodup

/-- Every key has a partner: one that is named after it, or, where the foreign keys are listed, one in
its place. No key is listed twice. -/
@[mk_iff]
structure Matches (p : Pairing) (d : Direction) (primary foreign : Side) : Prop where
  partnered : p.foreignKeys = [] →
    ∀ key ∈ p.candidates primary, (p.partner? d primary foreign key).isSome = true
  asMany : p.foreignKeys ≠ [] → p.primaryKeys.length ≤ p.foreignKeys.length
  foreignOnce : (p.foreignKeys.map foreign.lookup).Nodup
  primaryOnce : (p.primaryKeys.map primary.lookup).Nodup

end Pairing

/-! ## Lists of keys -/

/-- Looking all names up gives a list exactly if each name leads to the entry in its place. -/
theorem mapM_eq_some_iff {α β : Type} {f : α → Option β} {l : List α} {bs : List β} :
    l.mapM f = some bs ↔ l.map f = bs.map some := by
  induction l generalizing bs with
  | nil => simp [eq_comm (a := ([] : List β))]
  | cons a l ih =>
    rw [List.mapM_cons, List.map_cons]
    cases bs with
    | nil => simp [Option.bind_eq_some_iff]
    | cons b bs => simp [Option.bind_eq_some_iff, ih]

theorem filterMap_eq_of_mapM {α β : Type} {f : α → Option β} {l : List α} {bs : List β}
    (h : l.mapM f = some bs) : l.filterMap f = bs := by
  have hmap : l.filterMap f = (l.map f).filterMap id := by rw [List.filterMap_map]; rfl
  rw [hmap, mapM_eq_some_iff.mp h, List.filterMap_map]
  exact List.filterMap_some

theorem length_eq_of_mapM {α β : Type} {f : α → Option β} {l : List α} {bs : List β}
    (h : l.mapM f = some bs) : bs.length = l.length := by
  simpa using (congrArg List.length (mapM_eq_some_iff.mp h)).symm

namespace Side

variable {s : Side} {a b : KeyField} {known named : List KeyField}

/-- A side has one field at a position. -/
theorem eq_of_same (ha : s.Has a) (hb : s.Has b) (h : a.same b = true) : a = b := by
  obtain ⟨home, position, field⟩ := a
  obtain ⟨home', position', field'⟩ := b
  obtain ⟨hhome, hfield⟩ := ha
  obtain ⟨hhome', hfield'⟩ := hb
  simp only [KeyField.same, Bool.and_eq_true, decide_eq_true_eq, beq_iff_eq] at h
  obtain ⟨rfl, rfl⟩ := h
  obtain rfl : field = field' := Option.some.inj (hfield.symm.trans hfield')
  rfl

theorem same_self (a : KeyField) : a.same a = true := by simp [KeyField.same]

/-- Comparing the keys that are known with those in their places says whether they come first. -/
theorem all_same_iff (hknown : ∀ k ∈ known, s.Has k) (hnamed : ∀ k ∈ named, s.Has k)
    (hlength : known.length ≤ named.length) :
    ((known.zip named).all fun (a, b) => a.same b) = true ↔ known <+: named := by
  induction known generalizing named with
  | nil => simp
  | cons a known ih =>
    cases named with
    | nil => cases hlength
    | cons b named =>
      obtain ⟨ha, hknown⟩ := List.forall_mem_cons.mp hknown
      obtain ⟨hb, hnamed⟩ := List.forall_mem_cons.mp hnamed
      have hrest := ih hknown hnamed (Nat.le_of_succ_le_succ hlength)
      rw [List.zip_cons_cons, List.all_cons, Bool.and_eq_true, hrest, List.cons_prefix_cons]
      refine and_congr_left fun _ => ⟨eq_of_same ha hb, ?_⟩
      rintro rfl
      exact same_self a

end Side

namespace Pairing

variable {p : Pairing} {d : Direction} {primary foreign : Side} {keys found : List KeyField}
  {pairs : List (KeyField × KeyField)} {refs : List Reference}

/-! ## Keys that foreign keys are named after -/

theorem namedPairs_eq : p.namedPairs d primary foreign = (p.candidates primary).filterMap fun key =>
    (p.partner? d primary foreign key).map fun partner => (key, partner) := rfl

theorem candidates_of_unlisted (h : p.primaryKeys = []) : p.candidates primary = primary.primary := by
  rw [candidates, h]
  rfl

theorem candidates_of_listed (h : p.primaryKeys ≠ [])
    (hkeys : p.primaryKeys.mapM primary.lookup = some keys) : p.candidates primary = keys := by
  rw [candidates, if_neg (by simpa using h)]
  exact filterMap_eq_of_mapM hkeys

/-- The keys that have a partner, in their order. -/
theorem map_fst_namedPairs : (p.namedPairs d primary foreign).map Prod.fst
    = (p.candidates primary).filter fun key => (p.partner? d primary foreign key).isSome := by
  rw [namedPairs_eq]
  generalize p.candidates primary = candidates
  induction candidates with
  | nil => rfl
  | cons key keys ih =>
    rw [List.filterMap_cons, List.filter_cons]
    cases p.partner? d primary foreign key with
    | none => exact ih
    | some partner => exact congrArg (key :: ·) ih

theorem map_fst_namedPairs_eq_iff (p : Pairing) (d : Direction) (primary foreign : Side) :
    (p.namedPairs d primary foreign).map Prod.fst = p.candidates primary
    ↔ ∀ key ∈ p.candidates primary, (p.partner? d primary foreign key).isSome = true := by
  rw [map_fst_namedPairs]
  exact List.filter_eq_self

/-! ## What references are made of -/

/-- The references of foreign keys and of the keys that are completed for them. -/
def joined? (p : Pairing) (primary : Side) (isOwn : Bool) (known found : List KeyField) :
    Option (List Reference) :=
  if found.isEmpty then none
  else do
    let keys ← p.completed? primary known found.length
    if keys.length < found.length then none
    else some ((found.zip keys).map fun pair =>
      { primaryKey := some pair.2, foreignKey := pair.1, ownPrimaryKey := isOwn })

theorem references?_of_sides (h : p.sides? d = some (primary, foreign)) :
    p.references? d = if p.foreignKeys.isEmpty
      then p.joined? primary d.isHas ((p.namedPairs d primary foreign).map Prod.fst)
        ((p.namedPairs d primary foreign).map Prod.snd)
      else (p.foreignKeys.mapM foreign.lookup).bind (p.joined? primary d.isHas []) := by
  rw [references?, h, Option.bind_eq_bind, Option.bind_some]
  dsimp only
  split
  · rw [List.unzip_eq_map]
    rfl
  · cases p.foreignKeys.mapM foreign.lookup <;> rfl

theorem zip_swapped (isOwn : Bool) (found keys : List KeyField) :
    ((found.zip keys).map fun pair =>
      ({ primaryKey := some pair.2, foreignKey := pair.1, ownPrimaryKey := isOwn } : Reference))
      = (keys.zip found).map (.ofKeys isOwn) := by
  rw [← List.zip_swap, List.map_map]
  rfl

/-- There are references if there are foreign keys, and keys for all of them. -/
theorem joined?_eq_some_iff {isOwn : Bool} {known : List KeyField} :
    p.joined? primary isOwn known found = some refs ↔ found ≠ [] ∧ ∃ keys,
      p.completed? primary known found.length = some keys ∧ found.length ≤ keys.length
        ∧ refs = (keys.zip found).map (.ofKeys isOwn) := by
  rw [joined?]
  split
  · next hempty => simp [List.isEmpty_iff.mp hempty]
  · next hne =>
    rw [Option.bind_eq_bind, Option.bind_eq_some_iff]
    refine ⟨?_, ?_⟩
    · rintro ⟨keys, hkeys, h⟩
      split at h
      · cases h
      · next hlength =>
        refine ⟨fun hempty => hne (List.isEmpty_iff.mpr hempty), keys, hkeys, Nat.not_lt.mp hlength, ?_⟩
        rw [← zip_swapped]
        exact (Option.some.inj h).symm
    · rintro ⟨-, keys, hkeys, hlength, rfl⟩
      refine ⟨keys, hkeys, ?_⟩
      rw [if_neg (Nat.not_lt.mpr hlength), zip_swapped]

/-! ## Keys that are completed -/

/-- The keys that the tag lists, if they begin with those that are known. -/
theorem completed?_listed {known : List KeyField} {count : Nat} (h : p.primaryKeys ≠ [])
    (hknown : ∀ k ∈ known, primary.Has k)
    (hlength : ∀ named, p.primaryKeys.mapM primary.lookup = some named →
      known.length ≤ named.length) :
    p.completed? primary known count = some keys
      ↔ p.primaryKeys.mapM primary.lookup = some keys ∧ known <+: keys := by
  unfold completed?
  rw [if_pos (by simpa using h), Option.bind_eq_bind, Option.bind_eq_some_iff]
  -- The fields are compared by where they stand, which for fields of one side is being equal.
  have hsame : ∀ named, p.primaryKeys.mapM primary.lookup = some named →
      (((known.zip named).all fun (a, b) => a.same b) = true ↔ known <+: named) := by
    intro named hnamed
    refine Side.all_same_iff hknown (fun k hk => ?_) (hlength named hnamed)
    obtain ⟨name, -, hname⟩ := exists_of_mem_mapM_option hnamed hk
    exact Side.has_of_lookup hname
  constructor
  · rintro ⟨named, hnamed, h⟩
    split at h
    · next hall =>
      obtain ⟨rest, rfl⟩ := (hsame named hnamed).mp hall
      rw [List.drop_left] at h
      obtain rfl := Option.some.inj h
      exact ⟨hnamed, List.prefix_append known rest⟩
    · cases h
  · rintro ⟨hkeys, hstart⟩
    refine ⟨keys, hkeys, ?_⟩
    rw [if_pos ((hsame keys hkeys).mpr hstart)]
    obtain ⟨rest, rfl⟩ := hstart
    rw [List.drop_left]

theorem completed?_known {known : List KeyField} {count : Nat} (h : p.primaryKeys = [])
    (hknown : known ≠ []) : p.completed? primary known count = some known := by
  unfold completed?
  rw [h, if_neg (by simp), if_neg (by simpa using hknown)]

/-- Without a list, one foreign key holds the key that stands for the primary key, and several hold the
primary key. -/
theorem completed?_unlisted {count : Nat} (h : p.primaryKeys = []) :
    p.completed? primary [] count = some keys
      ↔ (count = 1 ∧ ∃ key, primary.prioritized = some key ∧ keys = [key])
        ∨ (count = 1 → primary.prioritized = none) ∧ primary.primary.length = count
          ∧ keys = primary.primary := by
  unfold completed?
  rw [h, if_neg (by simp), if_pos (by simp)]
  have hwhole : (if primary.primary.length == count then some primary.primary else none) = some keys
      ↔ primary.primary.length = count ∧ keys = primary.primary := by
    rw [Option.ite_none_right_eq_some, beq_iff_eq, Option.some.injEq, eq_comm (a := keys)]
  cases hkey : primary.prioritized with
  | none => simpa using hwhole
  | some key =>
    match count with
    | 0 => simpa using hwhole
    | 1 => simp [eq_comm (a := keys)]
    | count + 2 => simpa using hwhole

/-! ## All ways to link two sides -/

theorem zip_of_isPrefix (h : pairs.map Prod.fst <+: keys) :
    keys.zip (pairs.map Prod.snd) = pairs := by
  obtain ⟨rest, rfl⟩ := h
  induction pairs with
  | nil => exact List.zip_nil_right
  | cons pair pairs ih => exact congrArg (pair :: ·) ih

theorem namedPairs_length_le (h : p.primaryKeys ≠ [])
    (hkeys : p.primaryKeys.mapM primary.lookup = some keys) :
    ((p.namedPairs d primary foreign).map Prod.fst).length ≤ keys.length := by
  rw [map_fst_namedPairs, candidates_of_listed h hkeys]
  exact List.length_filter_le _ keys

/-- Where no foreign keys are listed, they are found together with their keys. -/
theorem joined?_named_iff (hforeign : p.foreignKeys = []) {isOwn : Bool} :
    p.joined? primary isOwn ((p.namedPairs d primary foreign).map Prod.fst)
        ((p.namedPairs d primary foreign).map Prod.snd) = some refs
      ↔ ∃ pairs, p.Linked d primary foreign pairs ∧ pairs ≠ []
        ∧ refs = pairs.map (.ofKeys isOwn) := by
  -- What the tag lists must begin with the keys that have partners; the rest of it has none.
  have hlisted : p.primaryKeys ≠ [] → ∀ {count keys},
      p.completed? primary ((p.namedPairs d primary foreign).map Prod.fst) count = some keys
        ↔ p.primaryKeys.mapM primary.lookup = some keys
          ∧ (p.namedPairs d primary foreign).map Prod.fst <+: keys := by
    refine fun hprimary => completed?_listed hprimary (fun k hk => ?_) fun keys hkeys =>
      namedPairs_length_le hprimary hkeys
    obtain ⟨pair, hpair, rfl⟩ := List.mem_map.mp hk
    exact (namedPairs_has hpair).1
  rw [joined?_eq_some_iff]
  constructor
  · rintro ⟨hne, keys, hkeys, -, rfl⟩
    have hpairs : p.namedPairs d primary foreign ≠ [] := by simpa using hne
    by_cases hprimary : p.primaryKeys = []
    · rw [completed?_known hprimary (by simpa using hpairs)] at hkeys
      obtain rfl := Option.some.inj hkeys
      refine ⟨_, .named hforeign hprimary, hpairs, ?_⟩
      rw [zip_of_isPrefix (List.prefix_refl _)]
    · obtain ⟨hkeys, hstart⟩ := (hlisted hprimary).mp hkeys
      refine ⟨_, .referenced hforeign hprimary hkeys hstart, hpairs, ?_⟩
      rw [zip_of_isPrefix hstart]
  · rintro ⟨pairs, hlinked, hne, rfl⟩
    cases hlinked with
    | named _ hprimary =>
      refine ⟨by simpa using hne, _, completed?_known hprimary (by simpa using hne), by simp, ?_⟩
      rw [zip_of_isPrefix (List.prefix_refl _)]
    | referenced _ hprimary hkeys hstart =>
      refine ⟨by simpa using hne, _, (hlisted hprimary).mpr ⟨hkeys, hstart⟩, ?_, ?_⟩
      · rw [List.length_map, ← List.length_map (f := Prod.fst)]
        exact hstart.length_le
      · rw [zip_of_isPrefix hstart]
    | listed h => exact absurd hforeign h
    | prioritized h => exact absurd hforeign h
    | whole h => exact absurd hforeign h

/-- Where foreign keys are listed, the keys are completed for them. -/
theorem joined?_listed_iff (hforeign : p.foreignKeys ≠ [])
    (hfound : p.foreignKeys.mapM foreign.lookup = some found) {isOwn : Bool} :
    p.joined? primary isOwn [] found = some refs
      ↔ ∃ pairs, p.Linked d primary foreign pairs ∧ pairs ≠ []
        ∧ refs = pairs.map (.ofKeys isOwn) := by
  have hlisted : p.primaryKeys ≠ [] → ∀ {count keys}, p.completed? primary [] count = some keys
      ↔ p.primaryKeys.mapM primary.lookup = some keys ∧ [] <+: keys := fun hprimary =>
    completed?_listed hprimary (List.forall_mem_nil _) fun _ _ => Nat.zero_le _
  have hpairs : ∀ keys : List KeyField, found ≠ [] → found.length ≤ keys.length →
      keys.zip found ≠ [] := by
    intro keys hne hlength hempty
    obtain rfl | rfl := List.zip_eq_nil_iff.mp hempty
    · exact hne (List.length_eq_zero_iff.mp (Nat.le_zero.mp hlength))
    · exact hne rfl
  rw [joined?_eq_some_iff]
  constructor
  · rintro ⟨hne, keys, hkeys, hlength, rfl⟩
    refine ⟨keys.zip found, ?_, hpairs keys hne hlength, rfl⟩
    by_cases hprimary : p.primaryKeys = []
    · obtain ⟨hone, key, hkey, rfl⟩ | ⟨hnone, hcount, rfl⟩ := (completed?_unlisted hprimary).mp hkeys
      · obtain ⟨only, rfl⟩ := List.length_eq_one_iff.mp hone
        exact .prioritized hforeign hprimary hfound hkey
      · exact .whole hforeign hprimary hfound hcount hnone
    · exact .listed hforeign hprimary ((hlisted hprimary).mp hkeys).1 hfound hlength
  · rintro ⟨pairs, hlinked, hne, rfl⟩
    have hsome : found ≠ [] := by
      rintro rfl
      exact hforeign (List.length_eq_zero_iff.mp (length_eq_of_mapM hfound).symm)
    refine ⟨hsome, ?_⟩
    cases hlinked with
    | named h => exact absurd h hforeign
    | referenced h => exact absurd h hforeign
    | listed _ hprimary hkeys hfound' hlength =>
      obtain rfl := Option.some.inj (hfound.symm.trans hfound')
      exact ⟨_, (hlisted hprimary).mpr ⟨hkeys, List.nil_prefix⟩, hlength, rfl⟩
    | prioritized _ hprimary hfound' hkey =>
      obtain rfl := Option.some.inj (hfound.symm.trans hfound')
      exact ⟨_, (completed?_unlisted hprimary).mpr (.inl ⟨rfl, _, hkey, rfl⟩), Nat.le_refl _, rfl⟩
    | whole _ hprimary hfound' hlength hnone =>
      obtain rfl := Option.some.inj (hfound.symm.trans hfound')
      exact ⟨_, (completed?_unlisted hprimary).mpr (.inr ⟨hnone, hlength, rfl⟩),
        Nat.le_of_eq hlength.symm, rfl⟩

/-- Foreign keys that are listed are there if the sides are linked. -/
theorem Linked.exists_found (h : p.Linked d primary foreign pairs) (hforeign : p.foreignKeys ≠ []) :
    ∃ found, p.foreignKeys.mapM foreign.lookup = some found := by
  cases h with
  | named h => exact absurd h hforeign
  | referenced h => exact absurd h hforeign
  | listed _ _ _ hfound => exact ⟨_, hfound⟩
  | prioritized _ _ hfound => exact ⟨_, hfound⟩
  | whole _ _ hfound => exact ⟨_, hfound⟩

/-- A direction gives references exactly if the sides are linked by some pairs. -/
theorem references?_eq_some_iff : p.references? d = some refs ↔ ∃ primary foreign pairs,
    p.sides? d = some (primary, foreign) ∧ p.Linked d primary foreign pairs ∧ pairs ≠ []
      ∧ refs = pairs.map (.ofKeys d.isHas) := by
  cases hsides : p.sides? d with
  | none =>
    rw [references?, hsides]
    simp
  | some sides =>
    obtain ⟨primary, foreign⟩ := sides
    have hiff : p.references? d = some refs ↔ ∃ pairs, p.Linked d primary foreign pairs ∧ pairs ≠ []
        ∧ refs = pairs.map (.ofKeys d.isHas) := by
      rw [references?_of_sides hsides]
      by_cases hforeign : p.foreignKeys = []
      · rw [if_pos (by simpa using hforeign)]
        exact joined?_named_iff hforeign
      · rw [if_neg (by simpa using hforeign)]
        cases hfound : p.foreignKeys.mapM foreign.lookup with
        | some found => exact joined?_listed_iff hforeign hfound
        | none =>
          constructor
          · rintro ⟨⟩
          · rintro ⟨pairs, hlinked, -⟩
            obtain ⟨found, hsome⟩ := hlinked.exists_found hforeign
            cases hfound.symm.trans hsome
    rw [hiff]
    constructor
    · rintro ⟨pairs, hpairs⟩
      exact ⟨primary, foreign, pairs, rfl, hpairs⟩
    · rintro ⟨primary', foreign', pairs, hsame, hpairs⟩
      cases hsame
      exact ⟨pairs, hpairs⟩

/-! ## Which keys are kept -/

/-- The keys of pairs are those that are listed, each once, if they are those that are found and none is
listed twice. -/
theorem keeps_iff {names : List String} {lookup : String → Option KeyField}
    (hkeys : names.mapM lookup = some keys) {kept : List KeyField} :
    kept.map some = names.map lookup ∧ (kept.map some).Nodup
      ↔ kept = keys ∧ (names.map lookup).Nodup := by
  rw [mapM_eq_some_iff.mp hkeys, (Option.some_injective _).list_map.eq_iff]
  refine and_congr_right fun h => ?_
  rw [h]

/-- Of lists that are paired, the first is kept whole if there are as many in the second. -/
theorem map_fst_zip_eq_iff : (keys.zip found).map Prod.fst = keys ↔ keys.length ≤ found.length := by
  refine ⟨fun heq => ?_, List.map_fst_zip⟩
  have hlength := congrArg List.length heq
  rw [List.length_map, List.length_zip] at hlength
  omega

theorem keepsKeys_ofKeys (isOwn : Bool) :
    p.KeepsKeys primary foreign (pairs.map (.ofKeys isOwn))
      ↔ (p.foreignKeys ≠ [] → (pairs.map Prod.snd).map some = p.foreignKeys.map foreign.lookup
          ∧ ((pairs.map Prod.snd).map some).Nodup)
        ∧ (p.primaryKeys ≠ [] → (pairs.map Prod.fst).map some = p.primaryKeys.map primary.lookup
          ∧ ((pairs.map Prod.fst).map some).Nodup)
        ∧ (p.foreignKeys = [] → p.primaryKeys = [] →
          (pairs.map Prod.fst).map some = primary.primary.map some
            ∧ ((pairs.map Prod.fst).map some).Nodup) := by
  have hinjective : Function.Injective (some : KeyField → _) := Option.some_injective _
  have hforeign : ((pairs.map (Reference.ofKeys isOwn)).map (·.foreignKey)).Nodup
      ↔ ((pairs.map Prod.snd).map some).Nodup := by
    rw [List.nodup_map_iff hinjective, List.map_map]
    rfl
  rw [keepsKeys_iff, hforeign, List.map_map, List.map_map, List.map_map, List.map_map]
  rfl

/-- Linked sides keep all keys exactly if all have their partners. -/
theorem Linked.keepsKeys_iff_matches (h : p.Linked d primary foreign pairs) (isOwn : Bool)
    (hnodup : primary.primary.Nodup) :
    p.KeepsKeys primary foreign (pairs.map (.ofKeys isOwn)) ↔ p.Matches d primary foreign := by
  have hinjective : Function.Injective (some : KeyField → _) := Option.some_injective _
  rw [keepsKeys_ofKeys, matches_iff]
  -- Only where keys are named or listed besides foreign keys can some be left out.
  cases h with
  | named hforeign hprimary =>
    have hkept := map_fst_namedPairs_eq_iff p d primary foreign
    rw [candidates_of_unlisted hprimary] at hkept ⊢
    rw [← hkept, List.map_inj_right hinjective]
    simp only [hforeign, hprimary, ne_eq, not_true_eq_false, false_imp_iff, true_imp_iff, true_and,
      List.map_nil, List.nodup_nil, and_true]
    refine and_iff_left_of_imp fun heq => ?_
    rw [heq]
    exact hnodup.map hinjective
  | referenced hforeign hprimary hkeys =>
    have hkept := map_fst_namedPairs_eq_iff p d primary foreign
    rw [candidates_of_listed hprimary hkeys] at hkept ⊢
    rw [← hkept, keeps_iff hkeys]
    simp [hforeign, hprimary]
  | listed hforeign hprimary hkeys hfound hlength =>
    rw [keeps_iff hkeys, keeps_iff hfound, map_fst_zip_eq_iff, List.map_snd_zip hlength,
      length_eq_of_mapM hkeys, length_eq_of_mapM hfound]
    simp [hforeign, hprimary]
    tauto
  | prioritized hforeign hprimary hfound =>
    rw [keeps_iff hfound]
    simp [hforeign, hprimary]
  | whole hforeign hprimary hfound hlength =>
    rw [keeps_iff hfound, List.map_snd_zip (Nat.le_of_eq hlength.symm)]
    simp [hforeign, hprimary]

/-! ## The first direction that links -/

/-- The sides can be linked in the direction: some keys can be paired. -/
def CanLink (p : Pairing) (d : Direction) : Prop :=
  ∃ primary foreign pairs, p.sides? d = some (primary, foreign) ∧ p.Linked d primary foreign pairs
    ∧ pairs ≠ []

theorem references?_eq_none_iff : p.references? d = none ↔ ¬p.CanLink d := by
  rw [Option.eq_none_iff_forall_ne_some]
  constructor
  · rintro h ⟨primary, foreign, pairs, hsides, hlinked, hne⟩
    exact h _ (references?_eq_some_iff.mpr ⟨primary, foreign, pairs, hsides, hlinked, hne, rfl⟩)
  · intro h refs hrefs
    obtain ⟨primary, foreign, pairs, hsides, hlinked, hne, -⟩ := references?_eq_some_iff.mp hrefs
    exact h ⟨primary, foreign, pairs, hsides, hlinked, hne⟩

theorem exists_earlier_of_found? {ds : List Direction} (h : p.found? ds = some (d, refs)) :
    ∃ earlier later, ds = earlier ++ d :: later ∧ ∀ e ∈ earlier, ¬p.CanLink e := by
  obtain ⟨earlier, d', later, rfl, hd, hearlier⟩ := List.findSome?_eq_some_iff.mp h
  obtain ⟨_, -, heq⟩ := Option.map_eq_some_iff.mp hd
  cases heq
  exact ⟨earlier, later, rfl, fun e he =>
    references?_eq_none_iff.mp (Option.map_eq_none_iff.mp (hearlier e he))⟩

/-- The pairs link the two sides, in the first direction in which these can be linked. -/
structure LinksFirst (p : Pairing) (d : Direction) (primary foreign : Side)
    (pairs : List (KeyField × KeyField)) : Prop where
  first : ∃ earlier later, p.directions = .ok (earlier ++ d :: later)
    ∧ ∀ e ∈ earlier, ¬p.CanLink e
  sides : p.sides? d = some (primary, foreign)
  linked : p.Linked d primary foreign pairs
  nonempty : pairs ≠ []

theorem exists_linksFirst {kind : RelationshipKind} (h : p.guess = .ok (kind, refs)) :
    ∃ d primary foreign pairs, p.LinksFirst d primary foreign pairs
      ∧ refs = pairs.map (.ofKeys d.isHas) := by
  obtain ⟨ds, d, hds, hfound, -⟩ := found_of_guess h
  obtain ⟨earlier, later, rfl, hearlier⟩ := exists_earlier_of_found? hfound
  obtain ⟨primary, foreign, pairs, hsides, hlinked, hne, hrefs⟩ :=
    references?_eq_some_iff.mp (references_of_found? hfound)
  exact ⟨d, primary, foreign, pairs, ⟨⟨earlier, later, hds, hearlier⟩, hsides, hlinked, hne⟩, hrefs⟩

/-- A relationship whose sides cannot be linked is refused. -/
theorem relationship_of_unlinked {ds : List Direction} (hplain : p.field.IsPlain)
    (hds : p.directions = .ok ds) (hnone : ∀ d ∈ ds, ¬p.CanLink d) (position next : Nat) :
    ∃ detail, p.relationship position next
      = .error (.invalidRelationship p.owner.schema.name p.field.name detail) := by
  have hfound : (ds.findSome? fun d => (p.references? d).map fun refs => (d, refs)) = none := by
    refine List.findSome?_eq_none_iff.mpr fun d hd => ?_
    rw [references?_eq_none_iff.mpr (hnone d hd), Option.map_none]
  have hguess : p.guess = .error (p.refusal ("invalid field found for struct " ++ p.owner.schema.name
      ++ "'s field " ++ p.field.name ++ ": define a valid foreign key for relations")) := by
    rw [guess, hds]
    dsimp only [bind, Except.bind]
    rw [hfound]
  rw [relationship, hplain.1, hplain.2]
  dsimp only
  rw [hguess]
  exact ⟨_, rfl⟩

end Pairing

/-! ## Primary keys -/

theorem Side.primary_nodup {s : Side} (h : s.layout.Assembled) : s.primary.Nodup := by
  obtain ⟨_, _, helected⟩ := h.exists_election
  refine List.Nodup.filterMap (fun i j key hi hj => ?_) helected.primary_nodup
  obtain ⟨_, -, rfl⟩ := Option.map_eq_some_iff.mp hi
  obtain ⟨_, -, heq⟩ := Option.map_eq_some_iff.mp hj
  exact (congrArg KeyField.position heq).symm

theorem NumberedSchema.SideOf.assembled {catalog : Catalog} {ns : Naming} {ref : ModelRef}
    {table : Option String} {s : NumberedSchema} {field : Field} {side : Side}
    (h : s.SideOf field side) (hparse : Schema.parse catalog ns ref table = .ok s.schema) :
    side.layout.Assembled := by
  obtain ⟨hown, hembedded⟩ := Schema.assembled_of_parse hparse
  cases h with
  | whole => exact hown
  | @embedded index _ howner hside =>
    obtain ⟨layout, hlayout, rfl⟩ := Option.map_eq_some_iff.mp hside
    exact hembedded index layout hlayout

/-- The side that has the key is a schema or an embedded record, and lists no key twice. -/
theorem Pairing.primary_nodup {catalog : Catalog} {ns : Naming} {ref model : ModelRef}
    {table : Option String} {p : Pairing} {d : Direction} {primary foreign : Side}
    (howner : Schema.parse catalog ns ref table = .ok p.owner.schema)
    (hrelated : Schema.parse catalog ns model none = .ok p.related.schema)
    (hsides : p.sides? d = some (primary, foreign)) : primary.primary.Nodup := by
  obtain ⟨side, hside, hhomes⟩ := exists_side_of_sides? hsides
  split at hhomes
  · obtain ⟨-, rfl⟩ := hhomes
    exact Side.primary_nodup (hside.assembled howner)
  · obtain ⟨-, rfl⟩ := hhomes
    exact Side.primary_nodup (Schema.assembled_of_parse hrelated).1

namespace SchemaCache

theorem relate_of_unlinked {c : SchemaCache} {owner related position : Nat} {field : Field}
    {p : Pairing} {ds : List Direction} (hp : c.pairing? owner related field = some p)
    (hplain : p.field.IsPlain) (hds : p.directions = .ok ds) (hnone : ∀ d ∈ ds, ¬p.CanLink d) :
    ∃ detail, c.relate owner related position field
      = (c, .error (.refused (.invalidRelationship p.owner.schema.name field.name detail))) := by
  obtain ⟨e, e', -, -, rfl⟩ := pairing?_eq_some.mp hp
  obtain ⟨detail, hrefused⟩ := Pairing.relationship_of_unlinked hplain hds hnone position c.next
  refine ⟨detail, ?_⟩
  rw [relate, hp]
  dsimp only
  rw [hrefused]
  rfl

/-- After any calls, a relationship that is found by its keys alone pairs keys in the first direction in
which that can be done, in one of the ways there are; and it keeps all of them exactly if each has its
partner. One that cannot be linked in any direction is refused. -/
theorem guesses_keep_keys_iff (catalog : Catalog) (naming : Naming) (calls : List ParseCall) :
    let c := (empty catalog naming).parseAll calls
    (∀ key n schema rs r, c.find? key = some n → c.get? n = some ⟨schema, .resolved rs⟩ → r ∈ rs →
      r.field.IsPlain →
      ∃ model related d primary foreign pairs, r.field.kind.model? = some model
        ∧ Schema.parse catalog naming model none = .ok related.schema ∧ related.ref = r.related
        ∧ let p := Pairing.ofField ⟨n, schema⟩ related r.field
          p.LinksFirst d primary foreign pairs ∧ r.references = pairs.map (.ofKeys d.isHas)
          ∧ (p.KeepsKeys primary foreign r.references ↔ p.Matches d primary foreign))
    ∧ ∀ owner related position field p ds, c.pairing? owner related field = some p →
      p.field.IsPlain → p.directions = .ok ds → (∀ d ∈ ds, ¬p.CanLink d) →
      ∃ detail, c.relate owner related position field
        = (c, .error (.refused (.invalidRelationship p.owner.schema.name field.name detail))) := by
  intro c
  constructor
  · intro key n schema rs r hn he hr hplain
    obtain ⟨model, related, hmodel, howner, hparse, hrelated, hguess⟩ :=
      exists_guess catalog naming calls hn he hr hplain
    obtain ⟨d, primary, foreign, pairs, hlinks, hrefs⟩ := Pairing.exists_linksFirst hguess
    refine ⟨model, related, d, primary, foreign, pairs, hmodel, hparse, hrelated, hlinks, hrefs, ?_⟩
    rw [hrefs]
    exact hlinks.linked.keepsKeys_iff_matches d.isHas
      (Pairing.primary_nodup howner hparse hlinks.sides)
  · exact fun owner related position field p ds => relate_of_unlinked

/-! ## Provinces -/

/-- Provinces are known by their region and their code, but their towns hold the region only. -/
def provinces : Catalog :=
  ⟨[ ( "Province",
      { name := "Province"
        fields :=
          [ { name := "Region", kind := .string, tag := "primaryKey" }
          , { name := "Code", kind := .string, tag := "primaryKey" }
          , { name := "Towns", kind := .slice (.record ⟨"Town", "Town"⟩) } ] } )
    , ( "Town",
      { name := "Town"
        fields :=
          [{ name := "ID", kind := .uint 64 }, { name := "ProvinceRegion", kind := .string }] } ) ]⟩

/-- The call for provinces. -/
def provinceCall : ParseCall := ⟨⟨"Province", "Province"⟩, none⟩

theorem provinces_relationship :
    let c := (empty provinces plainNames).parseAll [provinceCall]
    c.find? ⟨"Province", none⟩ = some 0
      ∧ ∃ schema towns, c.get? 0 = some ⟨schema, .resolved [towns]⟩
        ∧ towns.field.IsPlain ∧ towns.field.owner = none
        ∧ (listedColumns (towns.field.settings.get? "FOREIGNKEY") = []
          ∧ listedColumns (towns.field.settings.get? "REFERENCES") = [])
        ∧ (NumberedSchema.mk 0 schema).side.primary.length = 2
        ∧ towns.references.map (·.ownPrimaryKey) = [true] := by
  intro c
  exact ⟨by decide +kernel, exists_only (by decide +kernel)⟩

/-- Towns are linked to provinces by the region alone, since they have no field named after the code. -/
theorem guesses_keep_keys_iff_provinces :
    let c := (empty provinces plainNames).parseAll [provinceCall]
    ∃ schema towns related foreign, c.get? 0 = some ⟨schema, .resolved [towns]⟩
      ∧ let p := Pairing.ofField ⟨0, schema⟩ related towns.field
        p.owner.side.primary.length = 2 ∧ towns.references.length = 1
        ∧ ¬p.KeepsKeys p.owner.side foreign towns.references
        ∧ ¬p.Matches .has p.owner.side foreign := by
  intro c
  obtain ⟨hfound, schema, towns, he, hplain, howner, ⟨hforeign, hprimary⟩, hkeys, hflags⟩ :=
    provinces_relationship
  obtain ⟨-, related, d, primary, foreign, pairs, -, -, -, ⟨-, hsides, -, -⟩, hrefs, hiff⟩ :=
    (guesses_keep_keys_iff provinces plainNames [provinceCall]).1 _ _ _ _ towns hfound he
      (List.mem_singleton_self towns) hplain
  have hlength : towns.references.length = 1 := by simpa using congrArg List.length hflags
  -- The provinces themselves have the key, as no record is embedded.
  obtain ⟨rfl, rfl⟩ : d = .has ∧ primary = (NumberedSchema.mk 0 schema).side := by
    have hhas : d.isHas = true := by
      rw [hrefs] at hflags hlength
      obtain ⟨pair, rfl⟩ := List.length_eq_one_iff.mp ((List.length_map _).symm.trans hlength)
      simpa [Reference.ofKeys] using hflags
    cases d with
    | belongs => cases hhas
    | embeddedBelongs => cases hhas
    | has =>
      cases hsides
      exact ⟨rfl, rfl⟩
    | embeddedHas =>
      rw [Pairing.sides?, Pairing.embeddedOwner?, Pairing.ofField, howner] at hsides
      cases hsides
  have hpart : ¬(Pairing.ofField ⟨0, schema⟩ related towns.field).KeepsKeys
      (NumberedSchema.mk 0 schema).side foreign towns.references := by
    intro hkeeps
    have hwhole := congrArg List.length (hkeeps.whole hforeign hprimary).1
    rw [List.length_map, List.length_map, hlength, hkeys] at hwhole
    cases hwhole
  exact ⟨schema, towns, related, foreign, he, hkeys, hlength, hpart, fun h => hpart (hiff.mpr h)⟩

end SchemaCache

end RecordSql
