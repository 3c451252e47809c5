/-
  RecordSql.Proofs.Complement

  When the negated form of a condition says the opposite of its form.  Where
  the negation is made by the opposites of comparisons the two are complements
  by De Morgan's laws.  Where it is made by the word NOT, the negated form
  joins by AND what the form joins by OR, an alternative of several conditions
  behind the first; `Reversible` excludes these.

  That is all there is to exclude: as long as the comparisons are of different
  columns, so that each may be true or false by itself (`Condition.free`), the
  forms of every other condition are true, or false, together
  (`Condition.agree_of_not_reversible`).
-/

import RecordSql.Proofs.Negation
import Mathlib.Data.List.Nodup
import Mathlib.Tactic.Choose

namespace RecordSql

open Reading

namespace Expression

/-! ## Reversible conditions -/

/-- An alternative that is not of one condition alone. -/
def isPluralOr : Expression → Bool
  | .or es => es.length != 1
  | _ => false

/-- The negated form undoes the form: where a negation is written with the word NOT, no alternative
of several conditions stands behind the first condition. -/
inductive Reversible : Expression → Prop where
  | compare (op : Comparison) (column : Column) (arg : Arg) : Reversible (.compare op column arg)
  | member (column : Column) (args : List Arg) : Reversible (.member column args)
  | opposites {es : List Expression} : es.all isNegatable = true → (∀ e ∈ es, Reversible e) →
      Reversible (.not es)
  | word {es : List Expression} : es.all isNegatable = false →
      (∀ e ∈ es.tail, e.isPluralOr = false) → Reversible (.not es)

/-- Other conditions are joined alike under the word NOT and in a conjunction. -/
theorem underNot_eq_beside {e : Expression} (h : e.isPluralOr = false) :
    underNot e = beside .and e := by
  cases e with
  | or es =>
    match es with
    | [] => simp [isPluralOr] at h
    | [e] => rfl
    | _ :: _ :: _ => simp [isPluralOr] at h
  | _ => rfl

/-- An alternative of several is joined by OR under the word NOT, and by AND in a conjunction. -/
theorem of_isPluralOr {e : Expression} (h : e.isPluralOr = true) :
    underNot e = .or ∧ beside .and e = .and := by
  cases e with
  | or es =>
    match es with
    | [] => exact ⟨rfl, rfl⟩
    | [e] => simp [isPluralOr] at h
    | _ :: _ :: _ => exact ⟨rfl, rfl⟩
  | _ => simp [isPluralOr] at h

section Truth

variable {α : Atom → Bool} {e : Expression} {es : List Expression}

/-- The negated form of opposites is true where one of the conditions is. -/
theorem denies_not_of_all (hne : es ≠ []) (hall : es.all isNegatable = true) :
    denies α (.not es) = (es.map (asserts α)).any id := by
  rw [denies, if_pos hall]
  cases es with
  | nil => exact absurd rfl hne
  | cons e es =>
    have hor : links (beside .or) (asserts α) es = es.map fun e => (.or, asserts α e) := by
      simp [links, beside_or]
    rw [chained_assertions, hor, chain_or, List.map_cons, List.any_cons, List.any_map]
    rfl

theorem asserts_not_of_all (hall : es.all isNegatable = true) :
    asserts α (.not es) = (es.map (denies α)).all id := by
  rw [asserts, if_pos hall, allDeny_eq, List.all_map]
  rfl

theorem asserts_not_of_word (hall : (e :: es).all isNegatable = false) :
    asserts α (.not (e :: es)) = !chain (asserts α e) (links underNot (asserts α) es) := by
  rw [asserts, hall, ← chained_assertions]
  rfl

theorem denies_not_of_word (hall : (e :: es).all isNegatable = false) :
    denies α (.not (e :: es)) = chain (asserts α e) (links (beside .and) (asserts α) es) := by
  rw [denies, hall, ← chained_assertions]
  rfl

/-- The negated form of a reversible condition says the opposite of its form. -/
theorem Reversible.denies_eq (h : Condition e) (hreversible : Reversible e) :
    denies α e = !asserts α e := by
  induction h with
  | compare op column v => rfl
  | member column v vs => rfl
  | and => cases hreversible
  | or => cases hreversible
  | @not es hne hes ih =>
    cases hreversible with
    | opposites hall hparts =>
      -- By De Morgan: one of them is true unless the negated forms of all are.
      have hdenies : es.map (denies α) = es.map fun e => !asserts α e :=
        List.map_congr_left fun e he => ih e he (hparts e he)
      rw [denies_not_of_all hne hall, asserts_not_of_all hall, hdenies, List.all_map, List.any_map,
        List.not_all_eq_any_not]
      simp
    | word hall htail =>
      cases es with
      | nil => exact absurd rfl hne
      | cons e es =>
        have hlinks : links underNot (asserts α) es = links (beside .and) (asserts α) es :=
          List.map_congr_left fun d hd => by rw [underNot_eq_beside (htail d hd)]
        rw [denies_not_of_word hall, asserts_not_of_word hall, hlinks, Bool.not_not]

end Truth

/-! ## Comparisons of different columns -/

end Expression

/-- The column of a comparison. -/
def Reading.Atom.column : Atom → Column
  | .null column _ => column
  | .compare column _ _ => column
  | .among column _ _ => column

theorem Reading.Atom.column_opposite (a : Atom) : a.opposite.column = a.column := by
  cases a <;> rfl

namespace Expression

/-- The columns that a condition compares, from left to right. -/
def columns (e : Expression) : List Column := e.comparisons.map Atom.column

theorem columns_eq_flatMap {e : Expression} {es : List Expression}
    (h : e.comparisons = comparisonsOf es) : e.columns = es.flatMap columns := by
  rw [columns, h, comparisonsOf_eq, List.map_flatMap]
  rfl

/-- The condition is one comparison. -/
structure Single (e : Expression) (a : Atom) : Prop where
  comparisons : e.comparisons = [a]
  asserts : ∀ α, asserts α e = α a
  denies : ∀ α, denies α e = !α a

theorem single_compare (op : Comparison) (column : Column) (v : Value) :
    Single (.compare op column (.value v)) (.ofComparison op column v) :=
  ⟨rfl, fun _ => rfl, fun _ => rfl⟩

theorem single_member (column : Column) (v : Value) (vs : List Value) :
    Single (.member column ((v :: vs).map .value)) (.ofMember column (v :: vs)) := by
  have hcomparison : comparison? (.member column ((v :: vs).map .value))
      = some (.ofMember column (v :: vs)) := by
    rw [comparison?, values?_map_value]
    rfl
  refine ⟨?_, fun α => ?_, fun α => ?_⟩
  · show (comparison? _).toList = _
    rw [hcomparison]
    rfl
  · show (comparison? _).any α = _
    rw [hcomparison]
    rfl
  · show (!(comparison? _).any α) = _
    rw [hcomparison]
    rfl

theorem Single.congr {α β : Atom → Bool} {e : Expression} {a : Atom} (h : Single e a)
    (hagree : ∀ a ∈ e.comparisons, α a = β a) :
    e.asserts α = e.asserts β ∧ e.denies α = e.denies β := by
  have ha : α a = β a := by
    apply hagree
    rw [h.comparisons]
    exact List.mem_singleton_self a
  rw [h.asserts, h.asserts, h.denies, h.denies, ha]
  exact ⟨rfl, rfl⟩

/-- What the forms say depends on the comparisons of the condition. -/
theorem Condition.congr {α β : Atom → Bool} {e : Expression} (h : Condition e)
    (hagree : ∀ a ∈ e.comparisons, α a = β a) :
    asserts α e = asserts β e ∧ denies α e = denies β e := by
  have hparts {es : List Expression} (hes : ∀ a ∈ comparisonsOf es, α a = β a) :
      ∀ e ∈ es, ∀ a ∈ e.comparisons, α a = β a := by
    intro e he a ha
    rw [comparisonsOf_eq] at hes
    exact hes a (List.mem_flatMap.mpr ⟨e, he, ha⟩)
  have hchain {es : List Expression} (connective : Expression → Connective)
      (hes : ∀ e ∈ es, asserts α e = asserts β e ∧ denies α e = denies β e) :
      assertions α connective es = assertions β connective es := by
    rw [assertions_eq, assertions_eq]
    exact List.map_congr_left fun e he => by rw [(hes e he).1]
  induction h with
  | compare op column v => exact (single_compare op column v).congr hagree
  | member column v vs => exact (single_member column v vs).congr hagree
  | @and es _ _ ih =>
    have hes := fun e he => ih e he (hparts hagree e he)
    refine ⟨?_, rfl⟩
    rw [asserts, asserts, hchain _ hes]
  | @or es _ _ ih =>
    have hes := fun e he => ih e he (hparts hagree e he)
    refine ⟨?_, rfl⟩
    rw [asserts, asserts, hchain _ hes]
  | @not es _ _ ih =>
    have hes := fun e he => ih e he (hparts hagree e he)
    constructor
    · cases hall : es.all isNegatable with
      | true =>
        rw [asserts_not_of_all hall, asserts_not_of_all hall,
          List.map_congr_left fun e he => (hes e he).2]
      | false =>
        rw [asserts, asserts, hall, hchain _ hes]
        rfl
    · rw [denies, denies, hchain _ hes]

/-! ## Assignments -/

/-- An assignment under which a comparison is true, or is false. -/
def settling (a : Atom) (b : Bool) : Atom → Bool := fun c => c.affirms == (a.affirms == b)

theorem complementary_settling (a : Atom) (b : Bool) : Complementary (settling a b) := by
  intro c
  rw [settling, settling, complementary_affirms c]
  cases c.affirms <;> cases (a.affirms == b) <;> rfl

theorem settling_self (a : Atom) (b : Bool) : settling a b a = b := by
  rw [settling]
  cases a.affirms <;> cases b <;> rfl

/-- Conditions on different columns can be given assignments of their own. -/
theorem exists_common (items : List (Expression × (Atom → Bool)))
    (hnodup : (items.flatMap (columns ·.1)).Nodup) (h : ∀ p ∈ items, Complementary p.2) :
    ∃ α, Complementary α ∧ ∀ p ∈ items, ∀ a ∈ p.1.comparisons, α a = p.2 a := by
  induction items with
  | nil => exact ⟨Atom.affirms, complementary_affirms, by simp⟩
  | cons p items ih =>
    obtain ⟨hp, hitems⟩ := List.forall_mem_cons.mp h
    rw [List.flatMap_cons] at hnodup
    obtain ⟨-, hrest, hdisjoint⟩ := List.nodup_append.mp hnodup
    obtain ⟨α, hα, hagree⟩ := ih hrest hitems
    -- The columns of the first condition are none of the others'.
    refine ⟨fun a => if a.column ∈ p.1.columns then p.2 a else α a, fun a => ?_, ?_⟩
    · show (if a.opposite.column ∈ p.1.columns then p.2 a.opposite else α a.opposite)
        = !(if a.column ∈ p.1.columns then p.2 a else α a)
      rw [a.column_opposite, hp a, hα a]
      split <;> rfl
    · intro q hq a ha
      have hcolumn : a.column ∈ q.1.columns := List.mem_map_of_mem ha
      rcases List.mem_cons.mp hq with rfl | hq
      · exact if_pos hcolumn
      · have hother : a.column ∉ p.1.columns := fun hmem =>
          hdisjoint _ hmem _ (List.mem_flatMap.mpr ⟨q, hq, hcolumn⟩) rfl
        show (if _ then _ else _) = _
        rw [if_neg hother]
        exact hagree q hq a ha

/-- What conditions on different columns say under assignments of their own, they say under one. -/
theorem exists_all {es : List Expression} (hes : ∀ e ∈ es, Condition e)
    (hnodup : (es.flatMap columns).Nodup) {P : Expression → Bool → Bool → Prop}
    (h : ∀ e ∈ es, ∃ α, Complementary α ∧ P e (asserts α e) (denies α e)) :
    ∃ α, Complementary α ∧ ∀ e ∈ es, P e (asserts α e) (denies α e) := by
  choose! pick hpick hholds using h
  obtain ⟨α, hα, hagree⟩ := exists_common (es.map fun e => (e, pick e))
    (by rw [List.flatMap_map]; exact hnodup) (List.forall_mem_map.mpr hpick)
  refine ⟨α, hα, fun e he => ?_⟩
  obtain ⟨hasserts, hdenies⟩ :=
    (hes e he).congr (hagree (e, pick e) (List.mem_map_of_mem he))
  rw [hasserts, hdenies]
  exact hholds e he

/-- So they say what a list of truth values asks for, one by one. -/
theorem exists_links {es : List Expression} (hes : ∀ e ∈ es, Condition e)
    (hnodup : (es.flatMap columns).Nodup)
    (h : ∀ e ∈ es, ∀ b, ∃ α, Complementary α ∧ asserts α e = b) {bs : List Bool}
    (hlength : es.length = bs.length) :
    ∃ α, Complementary α ∧ es.map (asserts α) = bs := by
  choose! pick hpick hholds using h
  have hfst : (es.zip bs).map Prod.fst = es := List.map_fst_zip (Nat.le_of_eq hlength)
  have hsnd : (es.zip bs).map Prod.snd = bs := List.map_snd_zip (Nat.le_of_eq hlength.symm)
  have hmem : ∀ p ∈ es.zip bs, p.1 ∈ es := fun p hp => (List.of_mem_zip hp).1
  have hcolumns : ((es.zip bs).map fun p => (p.1, pick p.1 p.2)).flatMap (columns ·.1)
      = es.flatMap columns := by
    rw [List.flatMap_map]
    calc (es.zip bs).flatMap (fun p => columns p.1)
        = ((es.zip bs).map Prod.fst).flatMap columns := (List.flatMap_map ..).symm
      _ = es.flatMap columns := by rw [hfst]
  obtain ⟨α, hα, hagree⟩ := exists_common _ (hcolumns ▸ hnodup)
    (List.forall_mem_map.mpr fun p hp => hpick p.1 (hmem p hp) p.2)
  refine ⟨α, hα, ?_⟩
  have hsays : ∀ p ∈ es.zip bs, asserts α p.1 = p.2 := by
    intro p hp
    have hcongr := (hes p.1 (hmem p hp)).congr
      (hagree (p.1, pick p.1 p.2) (List.mem_map.mpr ⟨p, hp, rfl⟩))
    rw [hcongr.1, hholds p.1 (hmem p hp) p.2]
  calc es.map (asserts α) = ((es.zip bs).map Prod.fst).map (asserts α) := by rw [hfst]
    _ = (es.zip bs).map Prod.snd := by rw [List.map_map]; exact List.map_congr_left hsays
    _ = bs := hsnd

/-! ## Conditions on different columns -/

theorem Single.free {e : Expression} {a : Atom} (h : Single e a) (b : Bool) :
    ∃ α, Complementary α ∧ e.asserts α = b ∧ (e.isNegatable = true → e.denies α = !b) := by
  refine ⟨settling a b, complementary_settling a b, ?_, fun _ => ?_⟩
  · rw [h.asserts, settling_self]
  · rw [h.denies, settling_self]

/-- A chain is true where all of its conditions are, and false where all are false. -/
theorem chained_of_all_eq {α : Atom → Bool} {b : Bool} {es : List Expression} (hne : es ≠ [])
    (connective : Expression → Connective) (h : ∀ e ∈ es, asserts α e = b) :
    chained (assertions α connective es) = b := by
  cases es with
  | nil => exact absurd rfl hne
  | cons e es =>
    obtain ⟨he, hes⟩ := List.forall_mem_cons.mp h
    rw [chained_assertions, he]
    exact chain_eq_of_all_eq (List.forall_mem_map.mpr hes)

theorem all_of_all_eq {f : Expression → Bool} {b : Bool} {es : List Expression} (hne : es ≠ [])
    (h : ∀ e ∈ es, f e = b) : (es.map f).all id = b := by
  rw [List.map_congr_left h]
  cases es <;> cases b <;> simp at hne ⊢

/-- A condition on different columns is true under some assignment and false under another, and its
negated form is the opposite under these. -/
theorem Condition.free {e : Expression} (h : Condition e) (hnodup : e.columns.Nodup) (b : Bool) :
    ∃ α, Complementary α ∧ asserts α e = b ∧ (e.isNegatable = true → denies α e = !b) := by
  have hparts {es : List Expression} (hes : ∀ e ∈ es, Condition e)
      (hnodup : (es.flatMap columns).Nodup) (b : Bool)
      (ih : ∀ e ∈ es, e.columns.Nodup → ∀ b, ∃ α, Complementary α ∧ asserts α e = b
        ∧ (e.isNegatable = true → denies α e = !b)) :
      ∃ α, Complementary α ∧ ∀ e ∈ es, asserts α e = b
        ∧ (e.isNegatable = true → denies α e = !b) := by
    have hcolumns := (List.nodup_flatMap.mp hnodup).1
    exact exists_all hes hnodup (P := fun e x y => x = b ∧ (e.isNegatable = true → y = !b))
      fun e he => ih e he (hcolumns e he) b
  induction h generalizing b with
  | compare op column v => exact (single_compare op column v).free b
  | member column v vs => exact (single_member column v vs).free b
  | @and es hne hes ih =>
    rw [columns_eq_flatMap rfl] at hnodup
    obtain ⟨α, hα, hall⟩ := hparts hes hnodup b ih
    exact ⟨α, hα, chained_of_all_eq hne _ fun e he => (hall e he).1, fun h => nomatch h⟩
  | @or es hne hes ih =>
    rw [columns_eq_flatMap rfl] at hnodup
    obtain ⟨α, hα, hall⟩ := hparts hes hnodup b ih
    exact ⟨α, hα, chained_of_all_eq hne _ fun e he => (hall e he).1, fun h => nomatch h⟩
  | @not es hne hes ih =>
    rw [columns_eq_flatMap rfl] at hnodup
    obtain ⟨α, hα, hall⟩ := hparts hes hnodup (!b) ih
    refine ⟨α, hα, ?_, fun _ => ?_⟩
    · cases hnegatable : es.all isNegatable with
      | true =>
        rw [asserts_not_of_all hnegatable]
        refine all_of_all_eq hne fun e he => ?_
        rw [(hall e he).2 (List.all_eq_true.mp hnegatable e he), Bool.not_not]
      | false =>
        rw [asserts, hnegatable]
        show (!chained (assertions α underNot es)) = b
        rw [chained_of_all_eq hne _ fun e he => (hall e he).1, Bool.not_not]
    · rw [denies]
      exact chained_of_all_eq hne _ fun e he => (hall e he).1

/-- Truth values that tell the chain under the word NOT from the conjunction, if an alternative of
several conditions is in it. -/
theorem exists_telling {es : List Expression} (h : ∃ e ∈ es, e.isPluralOr = true) :
    ∃ b bs, es.length = bs.length ∧ chain b ((es.map underNot).zip bs) = true
      ∧ chain b ((es.map (beside .and)).zip bs) = false := by
  induction es with
  | nil => simp at h
  | cons e es ih =>
    cases hplural : e.isPluralOr with
    | true =>
      -- What stands before the alternative is true, and nothing else is.
      obtain ⟨hnot, hbeside⟩ := of_isPluralOr hplural
      refine ⟨true, false :: List.replicate es.length false, by simp, ?_, ?_⟩
      · rw [List.map_cons, List.zip_cons_cons, hnot, chain, Bool.true_or]
      · rw [List.map_cons, List.zip_cons_cons, hbeside, chain, Bool.and_false]
        exact chain_eq_of_all_eq fun p hp => List.eq_of_mem_replicate (List.of_mem_zip hp).2
    | false =>
      have htail : ∃ e ∈ es, e.isPluralOr = true := by
        obtain ⟨d, hd, hplural'⟩ := h
        rcases List.mem_cons.mp hd with rfl | hd
        · rw [hplural] at hplural'
          exact Bool.noConfusion hplural'
        · exact ⟨d, hd, hplural'⟩
      obtain ⟨b, bs, hlength, htrue, hfalse⟩ := ih htail
      have hsame := underNot_eq_beside hplural
      -- Both join it alike, and a value that keeps out of the way stands before it.
      cases hconnective : beside .and e with
      | and =>
        refine ⟨true, b :: bs, by simp [hlength], ?_, ?_⟩
        · rw [List.map_cons, List.zip_cons_cons, hsame, hconnective, chain, Bool.true_and, htrue]
        · rw [List.map_cons, List.zip_cons_cons, hconnective, chain, Bool.true_and, hfalse]
      | or =>
        refine ⟨false, b :: bs, by simp [hlength], ?_, ?_⟩
        · rw [List.map_cons, List.zip_cons_cons, hsame, hconnective, chain, Bool.false_or, htrue]
        · rw [List.map_cons, List.zip_cons_cons, hconnective, chain, Bool.false_or, hfalse]

theorem links_eq_zip (connective : Expression → Connective) (truth : Expression → Bool)
    (es : List Expression) : links connective truth es = (es.map connective).zip (es.map truth) :=
  (List.zip_map' ..).symm

/-- If one of the negated conditions can have forms that are both true, or both false, so can the
negation. -/
theorem agree_not_of_all {es : List Expression} (hne : es ≠ []) (hes : ∀ e ∈ es, Condition e)
    (hnodup : (es.flatMap columns).Nodup) (hall : es.all isNegatable = true) {d : Expression}
    (hd : d ∈ es) {β : Atom → Bool} (hβ : Complementary β) (hagree : denies β d = asserts β d) :
    ∃ α, Complementary α ∧ denies α (.not es) = asserts α (.not es) := by
  have hforms := List.all_eq_true.mp hall
  have hcolumns := (List.nodup_flatMap.mp hnodup).1
  -- The others are false, and their negated forms true, so that this one decides.
  obtain ⟨α, hα, hsay⟩ := exists_all hes hnodup
    (P := fun e x y => (e = d → x = asserts β d ∧ y = asserts β d)
      ∧ (e ≠ d → x = false ∧ y = true)) fun e he => by
    by_cases hed : e = d
    · subst hed
      exact ⟨β, hβ, fun _ => ⟨rfl, hagree⟩, fun hne => absurd rfl hne⟩
    · obtain ⟨γ, hγ, hasserts, hdenies⟩ := (hes e he).free (hcolumns e he) false
      exact ⟨γ, hγ, fun heq => absurd heq hed, fun _ => ⟨hasserts, hdenies (hforms e he)⟩⟩
  refine ⟨α, hα, ?_⟩
  obtain ⟨hdasserts, hddenies⟩ := (hsay d hd).1 rfl
  rw [denies_not_of_all hne hall, asserts_not_of_all hall, List.any_map, List.all_map]
  cases hx : asserts β d with
  | true =>
    rw [hx] at hdasserts
    have hany : es.any (id ∘ asserts α) = true := List.any_eq_true.mpr ⟨d, hd, hdasserts⟩
    have hevery : es.all (id ∘ denies α) = true := by
      refine List.all_eq_true.mpr fun e he => ?_
      by_cases hed : e = d
      · exact ((hsay e he).1 hed).2.trans hx
      · exact ((hsay e he).2 hed).2
    rw [hany, hevery]
  | false =>
    rw [hx] at hddenies
    have hany : es.any (id ∘ asserts α) = false := by
      refine List.any_eq_false.mpr fun e he => Bool.eq_false_iff.mp ?_
      by_cases hed : e = d
      · exact ((hsay e he).1 hed).1.trans hx
      · exact ((hsay e he).2 hed).1
    have hevery : es.all (id ∘ denies α) = false :=
      List.all_eq_false.mpr ⟨d, hd, Bool.eq_false_iff.mp hddenies⟩
    rw [hany, hevery]

/-- If an alternative of several conditions stands second or later under the word NOT, the forms of
the negation can both be false. -/
theorem agree_not_of_word {e : Expression} {es : List Expression}
    (hes : ∀ d ∈ e :: es, Condition d) (hnodup : ((e :: es).flatMap columns).Nodup)
    (hall : (e :: es).all isNegatable = false) (hplural : ∃ d ∈ es, d.isPluralOr = true) :
    ∃ α, Complementary α ∧ denies α (.not (e :: es)) = asserts α (.not (e :: es)) := by
  have hcolumns := (List.nodup_flatMap.mp hnodup).1
  have hfree : ∀ d ∈ e :: es, ∀ b, ∃ α, Complementary α ∧ asserts α d = b := by
    intro d hd b
    obtain ⟨γ, hγ, hasserts, -⟩ := (hes d hd).free (hcolumns d hd) b
    exact ⟨γ, hγ, hasserts⟩
  obtain ⟨b, bs, hlength, htrue, hfalse⟩ := exists_telling hplural
  obtain ⟨α, hα, hsay⟩ := exists_links hes hnodup hfree
    (show (e :: es).length = (b :: bs).length by simp [hlength])
  obtain ⟨hfirst, hrest⟩ := List.cons.inj hsay
  refine ⟨α, hα, ?_⟩
  rw [denies_not_of_word hall, asserts_not_of_word hall, links_eq_zip, links_eq_zip, hfirst, hrest,
    htrue, hfalse]
  rfl

/-- If a condition on different columns is not reversible, both its forms are true, or both false,
under some assignment. -/
theorem Condition.agree_of_not_reversible {e : Expression} (h : Condition e)
    (hnegatable : e.isNegatable = true) (hnodup : e.columns.Nodup) (hnot : ¬Reversible e) :
    ∃ α, Complementary α ∧ denies α e = asserts α e := by
  induction h with
  | compare op column v => exact absurd (.compare ..) hnot
  | member column v vs => exact absurd (.member ..) hnot
  | and => exact Bool.noConfusion hnegatable
  | or => exact Bool.noConfusion hnegatable
  | @not es hne hes ih =>
    rw [columns_eq_flatMap rfl] at hnodup
    have hcolumns := (List.nodup_flatMap.mp hnodup).1
    cases hall : es.all isNegatable with
    | true =>
      obtain ⟨d, hd, hdnot⟩ : ∃ d ∈ es, ¬Reversible d := by
        by_contra hnone
        exact hnot (.opposites hall fun d hd => by_contra fun hdnot => hnone ⟨d, hd, hdnot⟩)
      obtain ⟨β, hβ, hagree⟩ := ih d hd (List.all_eq_true.mp hall d hd) (hcolumns d hd) hdnot
      exact agree_not_of_all hne hes hnodup hall hd hβ hagree
    | false =>
      cases es with
      | nil => exact absurd rfl hne
      | cons e es =>
        have hplural : ∃ d ∈ es, d.isPluralOr = true := by
          by_contra hnone
          exact hnot (.word hall fun d hd => Bool.eq_false_iff.mpr fun h => hnone ⟨d, hd, h⟩)
        exact agree_not_of_word hes hnodup hall hplural

/-! ## What is written -/

/-- From `st` to `st'` a text was written whose tokens are read as the formula, with the comparisons
of the condition in order, each of them or its opposite. -/
def WrittenAs (e : Expression) (st st' : Statement) (φ : Formula) : Prop :=
  ∃ ts, st' = st.write (spelled st.scope ts) ∧ parse ts = some φ
    ∧ List.Forall₂ Atom.OnOneSide (atoms ts) e.comparisons

theorem writtenAs_of_isFactor {e : Expression} {st : Statement} {f : Fragment}
    {m : (Atom → Bool) → Bool} (h : IsFactor st.scope f e.comparisons m) :
    ∃ φ, e.WrittenAs st (st.write f) φ ∧ ∀ α, Complementary α → φ.eval α = m α := by
  obtain ⟨ts, φ, ⟨hfragment, hatoms, heval⟩, hparse⟩ := h.isText.parse
  exact ⟨φ, ⟨ts, by rw [hfragment], hparse, hatoms⟩, heval⟩

theorem negative_eq_some {e : Expression} (h : e.isNegatable = true) (s : Scope) :
    (e.forms s).negative = some (e.negatedFragment s) := by
  cases e with
  | compare | member | not => rfl
  | _ => exact Bool.noConfusion h

/-- The negation of one condition is its negated form. -/
theorem fragment_not_singleton {e : Expression} (h : Condition e) (hnegatable : e.isNegatable = true)
    (s : Scope) : (Expression.not [e]).fragment s = e.negatedFragment s := by
  show Child.negated (children s [e]) = _
  rw [negated_children_of_isNegatable (List.forall_mem_singleton.mpr hnegatable)
    (List.forall_mem_singleton.mpr h.isEmpty_eq_false.2)]
  rfl

/-- The negated form of a condition, which is also what its negation is written as, is read as the
opposite of what its form is read as, if the condition is reversible; and if it is about different
columns, in no other case. -/
theorem negated_form_opposes_form {e : Expression} (h : Condition e)
    (hnegatable : e.isNegatable = true) (st : Statement) :
    (st.writeNegation e).1 = true
      ∧ st.writeExpression (.not [e]) = (st.writeNegation e).2
      ∧ ∃ φ ψ, e.WrittenAs st (st.writeExpression e) φ
        ∧ e.WrittenAs st (st.writeNegation e).2 ψ
        ∧ (Reversible e → ∀ α, Complementary α → ψ.eval α = !φ.eval α)
        ∧ (e.columns.Nodup → (∀ α, Complementary α → ψ.eval α = !φ.eval α) → Reversible e) := by
  have hnegation : st.writeNegation e = (true, st.write (e.negatedFragment st.scope)) := by
    rw [Statement.writeNegation, negative_eq_some hnegatable]
  obtain ⟨hform, hnegated⟩ := h.isFactor (s := st.scope)
  obtain ⟨φ, hφ, hevalφ⟩ := writtenAs_of_isFactor hform
  obtain ⟨ψ, hψ, hevalψ⟩ := writtenAs_of_isFactor (hnegated hnegatable)
  rw [hnegation]
  refine ⟨rfl, ?_, φ, ψ, hφ, hψ, fun hreversible α hα => ?_, fun hnodup hopposed => ?_⟩
  · rw [Statement.writeExpression, fragment_not_singleton h hnegatable]
  · rw [hevalφ α hα, hevalψ α hα, hreversible.denies_eq h]
  · -- Under the assignment where both forms agree they are not opposed.
    by_contra hnot
    obtain ⟨α, hα, hagree⟩ := h.agree_of_not_reversible hnegatable hnodup hnot
    have hopposite := hopposed α hα
    rw [hevalφ α hα, hevalψ α hα, hagree] at hopposite
    cases hasserts : asserts α e <;> rw [hasserts] at hopposite <;> exact Bool.noConfusion hopposite

/-- Under the name of nobody, or marked as new. -/
def unownedOrNew : Expression :=
  .or
    [ .compare .eq (.named "owner") (.value .null)
    , .compare .eq (.named "mark") (.value (.text "new")) ]

/-- Above the age of sixty. -/
def aged : Expression := .compare .gt (.named "age") (.value (.int 60))

/-- With the alternative in front, the negated form is the text under the word NOT. With the
alternative behind, what OR joins there is joined by AND, and the two are not opposed. -/
theorem negated_form_opposes_form_unownedOrNew :
    let st : Statement := { dialect := .postgres }
    (Condition (.not [unownedOrNew, aged]) ∧ (Expression.not [unownedOrNew, aged]).isNegatable
      ∧ Reversible (.not [unownedOrNew, aged])
      ∧ (st.writeExpression (.not [unownedOrNew, aged])).output.sql
        = "NOT ((\"owner\" IS NULL OR \"mark\" = $1) AND \"age\" > $2)"
      ∧ (st.writeNegation (.not [unownedOrNew, aged])).2.output.sql
        = "((\"owner\" IS NULL OR \"mark\" = $1) AND \"age\" > $2)"
      ∧ ∃ φ ψ, WrittenAs (.not [unownedOrNew, aged]) st
          (st.writeExpression (.not [unownedOrNew, aged])) φ
        ∧ WrittenAs (.not [unownedOrNew, aged]) st
          (st.writeNegation (.not [unownedOrNew, aged])).2 ψ
        ∧ ∀ α, Complementary α → ψ.eval α = !φ.eval α)
    ∧ Condition (.not [aged, unownedOrNew]) ∧ (Expression.not [aged, unownedOrNew]).isNegatable
      ∧ (columns (.not [aged, unownedOrNew])).Nodup
      ∧ (st.writeExpression (.not [aged, unownedOrNew])).output.sql
        = "NOT (\"age\" > $1 OR (\"owner\" IS NULL OR \"mark\" = $2))"
      ∧ (st.writeNegation (.not [aged, unownedOrNew])).2.output.sql
        = "(\"age\" > $1 AND (\"owner\" IS NULL OR \"mark\" = $2))"
      ∧ ∃ φ ψ, WrittenAs (.not [aged, unownedOrNew]) st
          (st.writeExpression (.not [aged, unownedOrNew])) φ
        ∧ WrittenAs (.not [aged, unownedOrNew]) st
          (st.writeNegation (.not [aged, unownedOrNew])).2 ψ
        ∧ ¬∀ α, Complementary α → ψ.eval α = !φ.eval α := by
  intro st
  have haged : Condition aged := .compare ..
  have hor : Condition unownedOrNew := .or (List.cons_ne_nil _ _)
    (List.forall_mem_cons.mpr ⟨.compare .., List.forall_mem_singleton.mpr (.compare ..)⟩)
  have hfront : Condition (.not [unownedOrNew, aged]) := .not (List.cons_ne_nil _ _)
    (List.forall_mem_cons.mpr ⟨hor, List.forall_mem_singleton.mpr haged⟩)
  have hbehind : Condition (.not [aged, unownedOrNew]) := .not (List.cons_ne_nil _ _)
    (List.forall_mem_cons.mpr ⟨haged, List.forall_mem_singleton.mpr hor⟩)
  have hreversible : Reversible (.not [unownedOrNew, aged]) :=
    .word rfl (List.forall_mem_singleton.mpr rfl)
  have hnot : ¬Reversible (.not [aged, unownedOrNew]) := by
    intro h
    cases h with
    | opposites hall => exact Bool.noConfusion hall
    | word hall htail =>
      exact Bool.noConfusion (htail unownedOrNew (List.mem_singleton_self _))
  have hnodup : (columns (.not [aged, unownedOrNew])).Nodup := by decide
  obtain ⟨-, -, φ, ψ, hφ, hψ, hopposed, -⟩ := negated_form_opposes_form hfront rfl st
  obtain ⟨-, -, φ', ψ', hφ', hψ', -, honly⟩ := negated_form_opposes_form hbehind rfl st
  exact ⟨⟨hfront, rfl, hreversible, by decide, by decide, φ, ψ, hφ, hψ, hopposed hreversible⟩,
    hbehind, rfl, hnodup, by decide, by decide, φ', ψ', hφ', hψ',
    fun h => hnot (honly hnodup h)⟩

end Expression

end RecordSql
