/-
  RecordSql.Proofs.Alike.Clause

  Clauses of two runs that differ in scalars only.  A relation for each kind
  of clause that holds expressions or arguments; the others are the same in
  both runs.  For each kind: merging alike clauses gives alike clauses, alike
  clauses are empty together, and their fragments are alike.  `Body.Alike`
  and `Clause.Alike` put these together.
-/

import RecordSql.Proofs.Alike.Forms
import Mathlib.Data.List.TakeDrop

namespace RecordSql

variable {R : Value → Value → Prop}

/-! ## Options -/

theorem isSome_alike {α : Type} {r : α → α → Prop} {a b : Option α} (h : Option.Rel r a b) :
    a.isSome = b.isSome := by
  cases h <;> rfl

theorem orElse_alike {α : Type} {r : α → α → Prop} {a b a' b' : Option α} (h : Option.Rel r a b)
    (h' : Option.Rel r a' b') : Option.Rel r (a.orElse fun _ => a') (b.orElse fun _ => b') := by
  cases h with
  | none => exact h'
  | some hab => exact .some hab

theorem Expression.all_isEmpty_alike {a b : Option Expression}
    (h : Option.Rel (Expression.Alike R) a b) : a.all (·.isEmpty) = b.all (·.isEmpty) := by
  cases h with
  | none => rfl
  | some hab => exact hab.isEmpty

/-! ## Conditions -/

/-- Conditions of two runs. -/
inductive Where.Alike (R : Value → Value → Prop) : Where → Where → Prop where
  | mk {es fs : List Expression} :
      List.Forall₂ (Expression.Alike R) es fs → Where.Alike R ⟨es⟩ ⟨fs⟩

namespace Where

theorem Alike.isEmpty {v w : Where} (h : Where.Alike R v w) : v.isEmpty = w.isEmpty := by
  cases h with
  | mk hs => exact Expression.allEmpty_alike hs

theorem Alike.merge {v w v' w' : Where} (h : Where.Alike R v w) (h' : Where.Alike R v' w') :
    Where.Alike R (v.merge v') (w.merge w') := by
  cases h with
  | mk hs =>
    cases h' with
    | mk hs' => exact .mk (List.rel_append hs hs')

theorem Alike.flattened {v w : Where} (h : Where.Alike R v w) :
    List.Forall₂ (Expression.Alike R) v.flattened w.flattened := by
  cases h with
  | @mk es fs hs =>
    have hsame : List.Forall₂ (Expression.Alike R) (Where.mk es).conditions
      (Where.mk fs).conditions := hs
    cases hs with
    | nil => exact .nil
    | cons he hrest =>
      cases hrest with
      | cons _ _ => cases he <;> exact hsame
      | nil =>
        cases he with
        | and hchildren =>
          -- Whether the parts of a conjunction are lifted depends on their kinds.
          dsimp only [Where.flattened]
          rw [any_eq_of_forall₂ ?_ hchildren]
          · split
            · exact hsame
            · exact hchildren
          · intro c d hc
            cases hc <;> rfl
        | _ => exact hsame

theorem takeWhile_alike {α : Type} {r : α → α → Prop} {p : α → Bool}
    (hp : ∀ a b, r a b → p a = p b) {as bs : List α} (h : List.Forall₂ r as bs) :
    List.Forall₂ r (as.takeWhile p) (bs.takeWhile p) := by
  induction h with
  | nil => exact .nil
  | cons hab _ ih =>
    rw [List.takeWhile_cons, List.takeWhile_cons, hp _ _ hab]
    split
    · exact .cons hab ih
    · exact .nil

theorem dropWhile_alike {α : Type} {r : α → α → Prop} {p : α → Bool}
    (hp : ∀ a b, r a b → p a = p b) {as bs : List α} (h : List.Forall₂ r as bs) :
    List.Forall₂ r (as.dropWhile p) (bs.dropWhile p) := by
  induction h with
  | nil => exact .nil
  | cons hab hrest ih =>
    rw [List.dropWhile_cons, List.dropWhile_cons, hp _ _ hab]
    split
    · exact ih
    · exact .cons hab hrest

theorem reordered_alike {es fs : List Expression} (h : List.Forall₂ (Expression.Alike R) es fs) :
    List.Forall₂ (Expression.Alike R) (reordered es) (reordered fs) := by
  cases h with
  | nil => exact .nil
  | @cons e f es fs he hrest =>
    have hlone : ∀ a b, Expression.Alike R a b → a.isLoneOr = b.isLoneOr :=
      fun _ _ hab => hab.isLoneOr
    have hskipped := takeWhile_alike hlone hrest
    have hfound := dropWhile_alike hlone hrest
    rw [reordered, reordered, he.isLoneOr]
    -- Both runs skip the same conditions in front, so they exchange the same two.
    split
    · rw [List.span_eq_takeWhile_dropWhile, List.span_eq_takeWhile_dropWhile]
      generalize es.takeWhile _ = skipped, fs.takeWhile _ = skipped' at hskipped
      generalize es.dropWhile _ = found, fs.dropWhile _ = found' at hfound
      cases hfound with
      | nil => exact .cons he hrest
      | cons hx hafter => exact .cons hx (List.rel_append hskipped (.cons he hafter))
    · exact .cons he hrest

theorem Alike.fragment (s : Scope) (hnull : KeepsNull R) {v w : Where} (h : Where.Alike R v w) :
    Fragment.Alike R (v.fragment s) (w.fragment s) :=
  Child.connected_alike " AND " (Expression.children_alike s hnull (reordered_alike h.flattened))

end Where

/-- Groupings of two runs. -/
inductive GroupBy.Alike (R : Value → Value → Prop) : GroupBy → GroupBy → Prop where
  | mk (columns : List Column) {es fs : List Expression} :
      List.Forall₂ (Expression.Alike R) es fs → GroupBy.Alike R ⟨columns, es⟩ ⟨columns, fs⟩

namespace GroupBy

theorem Alike.isEmpty {g k : GroupBy} (h : GroupBy.Alike R g k) : g.isEmpty = k.isEmpty := by
  cases h with
  | mk columns hs => rw [GroupBy.isEmpty, GroupBy.isEmpty, Expression.allEmpty_alike hs]

theorem Alike.merge {g k g' k' : GroupBy} (h : GroupBy.Alike R g k) (h' : GroupBy.Alike R g' k') :
    GroupBy.Alike R (g.merge g') (k.merge k') := by
  cases h with
  | mk columns hs =>
    cases h' with
    | mk columns' hs' => exact .mk _ (List.rel_append hs hs')

theorem Alike.fragment (s : Scope) (hnull : KeepsNull R) {g k : GroupBy} (h : GroupBy.Alike R g k) :
    Fragment.Alike R (g.fragment s) (k.fragment s) := by
  cases h with
  | mk columns hs =>
    rw [GroupBy.fragment, GroupBy.fragment, Expression.allEmpty_alike hs]
    refine (columnList_alike s columns).append ?_
    split
    · exact .nil
    · exact .text _ (Where.Alike.fragment s hnull (.mk hs))

end GroupBy

/-! ## Selection, order and named queries -/

/-- Selections of two runs. -/
inductive Select.Alike (R : Value → Value → Prop) : Select → Select → Prop where
  | mk (distinct : Bool) (columns : List Column) (omits : List String) {e f : Option Expression} :
      Option.Rel (Expression.Alike R) e f →
        Select.Alike R ⟨distinct, columns, omits, e⟩ ⟨distinct, columns, omits, f⟩

namespace Select

theorem Alike.merge {b c b' c' : Select} (h : Select.Alike R b c) (h' : Select.Alike R b' c') :
    Select.Alike R (b.merge b') (c.merge c') := by
  cases h with
  | mk distinct columns omits he =>
    cases h' with
    | mk distinct' columns' omits' he' =>
      rw [Select.merge, Select.merge]
      -- A later selection replaces the earlier one unless it names nothing.
      cases he' with
      | some hef =>
        simp only [selectsNothing, Option.isNone_some, Bool.and_false]
        exact .mk _ _ _ (.some hef)
      | none =>
        split
        · exact .mk _ _ _ he
        · exact .mk _ _ _ .none

theorem remaining_alike (s : Scope) (omits : List String) :
    Fragment.Alike R (remaining s omits) (remaining s omits) := by
  rw [remaining]
  split
  · split
    · exact .text _ .nil
    · exact columnList_alike s _
  · split
    · exact .text _ .nil
    · exact columnList_alike s _

theorem Alike.fragment (s : Scope) (hnull : KeepsNull R) {b c : Select} (h : Select.Alike R b c) :
    Fragment.Alike R (b.fragment s) (c.fragment s) := by
  cases h with
  | mk distinct columns omits he =>
    rw [Select.fragment, Select.fragment]
    refine Fragment.Alike.append ?_ ?_
    · cases distinct with
      | true => exact .text _ .nil
      | false => exact .nil
    · cases he with
      | some hef => exact hef.fragment s hnull
      | none =>
        show Fragment.Alike R (if _ then _ else if _ then _ else _) _
        split
        · exact columnList_alike s columns
        · split
          · exact remaining_alike s omits
          · exact .text _ .nil

end Select

theorem Returning.fragment_alike (s : Scope) (r : Returning) :
    Fragment.Alike R (r.fragment s) (r.fragment s) := by
  rw [Returning.fragment]
  split
  · exact .text _ .nil
  · exact columnList_alike s r.columns

/-- Orders of two runs. -/
inductive OrderBy.Alike (R : Value → Value → Prop) : OrderBy → OrderBy → Prop where
  | mk (columns : List OrderByColumn) {e f : Option Expression} :
      Option.Rel (Expression.Alike R) e f → OrderBy.Alike R ⟨columns, e⟩ ⟨columns, f⟩

namespace OrderBy

theorem Alike.isEmpty {o q : OrderBy} (h : OrderBy.Alike R o q) : o.isEmpty = q.isEmpty := by
  cases h with
  | mk columns he => rw [OrderBy.isEmpty, OrderBy.isEmpty, Expression.all_isEmpty_alike he]

theorem Alike.merge {o q o' q' : OrderBy} (h : OrderBy.Alike R o q) (h' : OrderBy.Alike R o' q') :
    OrderBy.Alike R (o.merge o') (q.merge q') := by
  cases h with
  | mk columns he =>
    cases h' with
    | mk columns' he' => exact .mk _ (orElse_alike he' he)

theorem Alike.fragment (s : Scope) (hnull : KeepsNull R) {o q : OrderBy} (h : OrderBy.Alike R o q) :
    Fragment.Alike R (o.fragment s) (q.fragment s) := by
  cases h with
  | mk columns he =>
    cases he with
    | some hef => exact hef.fragment s hnull
    | none =>
      refine joined_alike_of_forall "," _ (fun c => ?_) columns
      refine (c.column.fragment_alike s).append ?_
      cases c.desc with
      | true => exact .text _ .nil
      | false => exact .nil

end OrderBy

/-- Named queries of two runs. -/
inductive Cte.Alike (R : Value → Value → Prop) : Cte → Cte → Prop where
  | mk (name : String) (columns : List String) {e f : Expression} :
      Expression.Alike R e f → Cte.Alike R ⟨name, columns, e⟩ ⟨name, columns, f⟩

theorem Cte.Alike.fragment (s : Scope) (hnull : KeepsNull R) {c d : Cte} (h : Cte.Alike R c d) :
    Fragment.Alike R (c.fragment s) (d.fragment s) := by
  cases h with
  | mk name columns he =>
    rw [Cte.fragment, Cte.fragment]
    refine .text _ (Fragment.Alike.append ?_ ((he.fragment s hnull).enclosed _ _))
    split
    · exact .nil
    · exact (identList_alike s _).enclosed _ _

/-- Queries before the statements of two runs. -/
inductive With.Alike (R : Value → Value → Prop) : With → With → Prop where
  | mk (recursive : Bool) {cs ds : List Cte} {e f : Option Expression} :
      List.Forall₂ (Cte.Alike R) cs ds → Option.Rel (Expression.Alike R) e f →
        With.Alike R ⟨recursive, cs, e⟩ ⟨recursive, ds, f⟩

namespace With

theorem name_isEmpty_alike {c d : Cte} (h : Cte.Alike R c d) : c.name.isEmpty = d.name.isEmpty := by
  cases h with
  | mk name columns he => rfl

theorem Alike.isEmpty {v w : With} (h : With.Alike R v w) : v.isEmpty = w.isEmpty := by
  cases h with
  | mk recursive hs he =>
    cases he with
    | some hef => exact hef.isEmpty
    | none => exact all_eq_of_forall₂ (fun _ _ hc => name_isEmpty_alike hc) hs

theorem Alike.merge {v w v' w' : With} (h : With.Alike R v w) (h' : With.Alike R v' w') :
    With.Alike R (v.merge v') (w.merge w') := by
  cases h with
  | mk recursive hs he =>
    cases h' with
    | mk recursive' hs' he' =>
      rw [With.merge, With.merge]
      -- The branches ask only which of the two has an expression in the place of its queries.
      simp only [isSome_alike he, isSome_alike he']
      split
      · exact .mk _ .nil he'
      · split
        · exact .mk _ hs he
        · exact .mk _ (List.rel_append hs hs') .none

theorem Alike.fragment (s : Scope) (hnull : KeepsNull R) {v w : With} (h : With.Alike R v w) :
    Fragment.Alike R (v.fragment s) (w.fragment s) := by
  cases h with
  | mk recursive hs he =>
    cases he with
    | some hef => exact hef.fragment s hnull
    | none =>
      -- Queries without a name are left out in both runs.
      have hnamed := filter_forall₂ (p := fun c => !c.name.isEmpty)
        (fun _ _ hc => by rw [name_isEmpty_alike hc]) hs
      refine Fragment.Alike.append ?_
        (.joined "," (List.rel_map (fun _ _ hc => hc.fragment s hnull) hnamed))
      split
      · exact .text _ .nil
      · exact .nil

end With

end RecordSql
