/-
  RecordSql.Proofs.ConditionOrder

  In which order the conditions of a clause are written.  An alternative of one
  condition is joined to what stands before it by OR, so it is not to stand in
  front of others: the first condition that is none is to be moved there
  (`Where.settled`).

  The clause chooses that condition before the empty ones are left out, and
  exchanges it with the first one.  So it may put an empty condition in front,
  and the alternative is first all the same (`Where.HidesFront`); and the
  alternative that it exchanges is carried over the other ones that were
  skipped (`Where.PassesOver`).  In all other cases the order is the settled one
  (`Where.written_eq_settled_iff`), and what is written does not depend on the
  empty conditions between the others.
-/

import Mathlib.Data.List.Rotate
import Mathlib.Data.List.TakeDrop
import Mathlib.Data.List.TakeWhile
import RecordSql.Proofs.Marks

namespace RecordSql

/-- Two fragments are the same, but for a pair of parentheses around one of them. -/
def Fragment.SameInside (f g : Fragment) : Prop :=
  f = g ∨ f = Fragment.enclosed "(" g ")" ∨ g = Fragment.enclosed "(" f ")"

namespace Where

variable {s : Scope} {e : Expression} {es ors rest ws : List Expression}

/-! ## Orders of conditions -/

/-- The alternatives of one condition that stand before all others. -/
def skipped (es : List Expression) : List Expression := es.takeWhile (·.isLoneOr)

/-- The conditions from the first on that is no such alternative. -/
def others (es : List Expression) : List Expression := es.dropWhile (·.isLoneOr)

/-- The conditions that write something. -/
def kept (es : List Expression) : List Expression := es.filter (!·.isEmpty)

/-- The order that the conditions are to have: the first that is no alternative of one condition stands
in front, and the others stand as they are. -/
def settled (es : List Expression) : List Expression :=
  match others es with
  | [] => es
  | found :: after => found :: (skipped es ++ after)

/-- The conditions begin with an alternative of one condition, although there are others. -/
structure BeginsStray (ws : List Expression) : Prop where
  first : ∃ o ∈ ws.head?, o.isLoneOr = true
  later : ∃ e ∈ ws, e.isLoneOr = false

/-- The condition that is put in front is empty, and an alternative of one is what is written first. -/
structure HidesFront (es : List Expression) : Prop where
  front : ∃ e ∈ (others es).head?, e.isEmpty = true
  stray : BeginsStray (kept es)

/-- The condition that is put in front stands behind two different alternatives that are written, one of
them the very first. -/
def PassesOver (es : List Expression) : Prop :=
  others es ≠ [] ∧ ∃ o, (skipped es).head? = some o ∧ o.isEmpty = false
    ∧ ∃ a ∈ (skipped es).tail, a.isEmpty = false ∧ a ≠ o

/-- Neither happens to the conditions. -/
structure InOrder (es : List Expression) : Prop where
  shows : ¬ HidesFront es
  keeps : ¬ PassesOver es

/-! ## Where the alternatives end -/

theorem isLoneOr_of_mem_skipped : ∀ o ∈ skipped es, o.isLoneOr = true := by
  intro o ho
  exact List.mem_takeWhile_imp ho

theorem eq_of_others (h : others es = e :: rest) : es = skipped es ++ e :: rest := by
  rw [← h]
  exact List.takeWhile_append_dropWhile.symm

theorem isLoneOr_of_others_nil (h : others es = []) : ∀ o ∈ es, o.isLoneOr = true := by
  rw [others, List.dropWhile_eq_nil_iff] at h
  exact h

theorem isLoneOr_of_others_cons (h : others es = e :: rest) : e.isLoneOr = false := by
  have hhead := List.head?_dropWhile_not (fun e : Expression => e.isLoneOr) es
  rw [show es.dropWhile (fun e => e.isLoneOr) = e :: rest from h] at hhead
  simpa using hhead

theorem others_append (hors : ∀ o ∈ ors, o.isLoneOr = true) (he : e.isLoneOr = false) :
    others (ors ++ e :: rest) = e :: rest := by
  rw [others, List.dropWhile_append_of_pos hors, List.dropWhile_cons_of_neg (by simp [he])]

theorem skipped_append (hors : ∀ o ∈ ors, o.isLoneOr = true) (he : e.isLoneOr = false) :
    skipped (ors ++ e :: rest) = ors := by
  rw [skipped, List.takeWhile_append_of_pos hors, List.takeWhile_cons_of_neg (by simp [he]),
    List.append_nil]

theorem settled_append (hors : ∀ o ∈ ors, o.isLoneOr = true) (he : e.isLoneOr = false) :
    settled (ors ++ e :: rest) = e :: (ors ++ rest) := by
  rw [settled, others_append hors he, skipped_append hors he]

/-- The order of conditions that do not begin with a stray alternative is settled. -/
theorem settled_eq_self (h : ¬ BeginsStray ws) : settled ws = ws := by
  rw [settled]
  split
  · rfl
  · next e rest hothers =>
    have hws := eq_of_others hothers
    have he := isLoneOr_of_others_cons hothers
    cases hskipped : skipped ws with
    | nil =>
      rw [hskipped] at hws
      exact hws.symm
    | cons o ors =>
      -- Then the first is an alternative, and `e` is a later condition that is none.
      exfalso
      apply h
      have hmem : o ∈ skipped ws := by
        rw [hskipped]
        exact List.mem_cons_self
      have ho : o.isLoneOr = true := isLoneOr_of_mem_skipped o hmem
      refine ⟨⟨o, ?_, ho⟩, ⟨e, ?_, he⟩⟩
      · rw [hws, hskipped]
        rfl
      · rw [hws]
        simp

/-- In a settled order no alternative is first, if there are others. -/
theorem not_beginsStray_settled (ws : List Expression) : ¬ BeginsStray (settled ws) := by
  rintro ⟨⟨o, ho, hlone⟩, ⟨d, hd, hother⟩⟩
  rw [settled] at ho hd
  split at ho
  · next hothers =>
    rw [hothers] at hd
    rw [isLoneOr_of_others_nil hothers d hd] at hother
    cases hother
  · next e rest hothers =>
    cases ho
    rw [isLoneOr_of_others_cons hothers] at hlone
    cases hlone

/-! ## The order that is written -/

theorem kept_append (es ds : List Expression) : kept (es ++ ds) = kept es ++ kept ds :=
  List.filter_append ..

theorem isLoneOr_of_mem_kept (h : ∀ o ∈ es, o.isLoneOr = true) : ∀ o ∈ kept es, o.isLoneOr = true :=
  fun o ho => h o (List.mem_filter.mp ho).1

theorem reordered_of_others_nil (h : others es = []) : reordered es = es := by
  cases es with
  | nil => rfl
  | cons first es =>
    have hlone := isLoneOr_of_others_nil h
    have hfirst : first.isLoneOr = true := hlone first List.mem_cons_self
    have hrest : es.dropWhile (·.isLoneOr) = [] := by
      rw [List.dropWhile_eq_nil_iff]
      exact fun o ho => hlone o (List.mem_cons_of_mem first ho)
    rw [reordered, if_pos hfirst, List.span_eq_takeWhile_dropWhile, hrest]

/-- The alternative that is exchanged comes to stand behind the other ones that were skipped. -/
theorem reordered_of_others_cons (h : others es = e :: rest) :
    reordered es = e :: ((skipped es).rotate 1 ++ rest) := by
  cases es with
  | nil => cases h
  | cons first es =>
    cases hfirst : first.isLoneOr with
    | false =>
      rw [others, List.dropWhile_cons_of_neg (by simp [hfirst])] at h
      cases h
      rw [reordered, hfirst, skipped, List.takeWhile_cons_of_neg (by simp [hfirst])]
      rfl
    | true =>
      rw [others, List.dropWhile_cons_of_pos hfirst] at h
      rw [reordered, if_pos hfirst, List.span_eq_takeWhile_dropWhile, h, skipped,
        List.takeWhile_cons_of_pos hfirst, List.rotate_cons_succ, List.rotate_zero,
        List.append_assoc]
      rfl

theorem reordered_perm (es : List Expression) : (reordered es).Perm es := by
  cases h : others es with
  | nil =>
    rw [reordered_of_others_nil h]
  | cons e rest =>
    have hrotated : ((skipped es).rotate 1 ++ rest).Perm (skipped es ++ rest) :=
      (List.rotate_perm _ 1).append_right rest
    have hfront : (e :: ((skipped es).rotate 1 ++ rest)).Perm (skipped es ++ e :: rest) :=
      (hrotated.cons e).trans List.perm_middle.symm
    rw [reordered_of_others_cons h]
    exact hfront.trans (.of_eq (eq_of_others h).symm)

theorem append_singleton_eq_cons_iff {α : Type} {a : α} {l : List α} :
    l ++ [a] = a :: l ↔ ∀ b ∈ l, b = a := by
  induction l with
  | nil => simp
  | cons b l ih =>
    rw [List.cons_append, List.cons.injEq, List.forall_mem_cons]
    constructor
    · rintro ⟨rfl, h⟩
      exact ⟨rfl, ih.mp h⟩
    · rintro ⟨rfl, h⟩
      exact ⟨rfl, ih.mpr h⟩

/-- Carrying the first alternative over the others changes nothing if it is not written, or if all that
are written are the same. -/
theorem kept_rotate_iff : kept (ors.rotate 1) = kept ors
    ↔ ∀ o, ors.head? = some o → o.isEmpty = false → ∀ a ∈ ors.tail, a.isEmpty = false → a = o := by
  cases ors with
  | nil => simp
  | cons o ors =>
    rw [List.rotate_cons_succ, List.rotate_zero, kept_append, List.head?_cons, List.tail_cons]
    cases ho : o.isEmpty with
    | true =>
      have hdropped : kept [o] = [] := by simp [kept, ho]
      have hrest : kept (o :: ors) = kept ors := by simp [kept, ho]
      rw [hdropped, hrest, List.append_nil]
      simp [ho]
    | false =>
      have hwritten : kept [o] = [o] := by simp [kept, ho]
      have hrest : kept (o :: ors) = o :: kept ors := by simp [kept, ho]
      rw [hwritten, hrest, append_singleton_eq_cons_iff]
      simp [kept, ho]

theorem not_passesOver_iff (h : others es = e :: rest) :
    ¬ PassesOver es ↔ kept ((skipped es).rotate 1) = kept (skipped es) := by
  rw [kept_rotate_iff, PassesOver, h]
  constructor
  · intro hnone o ho hwritten a ha hwritten'
    by_contra hne
    exact hnone ⟨List.cons_ne_nil _ _, o, ho, hwritten, a, ha, hwritten', hne⟩
  · rintro hall ⟨-, o, ho, hwritten, a, ha, hwritten', hne⟩
    exact hne (hall o ho hwritten a ha hwritten')

section Split

variable (hothers : others es = e :: rest)

include hothers

theorem kept_eq_append : kept es = kept (skipped es) ++ kept (e :: rest) := by
  rw [← kept_append, ← eq_of_others hothers]

theorem written_eq_append :
    kept (reordered es) = kept [e] ++ (kept ((skipped es).rotate 1) ++ kept rest) := by
  rw [reordered_of_others_cons hothers, ← List.singleton_append, kept_append, kept_append]

/-- A condition that is put in front and written stands in front of the others in their order, unless an
alternative is carried over another. -/
theorem written_eq_settled_iff_of_shown (hwritten : e.isEmpty = false) :
    kept (reordered es) = settled (kept es) ↔ InOrder es := by
  have hfront : kept [e] = [e] := by simp [kept, hwritten]
  have hrest : kept (e :: rest) = e :: kept rest := by simp [kept, hwritten]
  have hshows : ¬ HidesFront es := by
    rintro ⟨⟨d, hd, hhidden⟩, -⟩
    rw [hothers] at hd
    cases hd
    rw [hwritten] at hhidden
    cases hhidden
  rw [written_eq_append hothers, kept_eq_append hothers, hfront, hrest,
    settled_append (isLoneOr_of_mem_kept isLoneOr_of_mem_skipped) (isLoneOr_of_others_cons hothers),
    List.singleton_append, List.cons_inj_right, List.append_cancel_right_eq,
    ← not_passesOver_iff hothers]
  exact ⟨fun h => ⟨hshows, h⟩, fun h => h.keeps⟩

/-- Where the condition that is put in front is empty, a stray alternative stays one. -/
theorem beginsStray_written (hempty : e.isEmpty = true) (h : BeginsStray (kept es)) :
    BeginsStray (kept (reordered es)) := by
  have hfront : kept [e] = [] := by simp [kept, hempty]
  have hrest : kept (e :: rest) = kept rest := by simp [kept, hempty]
  have hrotated : (kept ((skipped es).rotate 1)).Perm (kept (skipped es)) :=
    (List.rotate_perm _ 1).filter _
  obtain ⟨⟨o, ho, hlone⟩, ⟨d, hd, hother⟩⟩ := h
  constructor
  · rw [written_eq_append hothers, hfront, List.nil_append]
    rw [kept_eq_append hothers, hrest] at ho
    cases hfirst : kept ((skipped es).rotate 1) with
    | nil =>
      rw [hfirst] at hrotated
      rw [← hrotated.nil_eq] at ho
      exact ⟨o, ho, hlone⟩
    | cons a as =>
      have ha : a ∈ kept (skipped es) := by
        apply hrotated.mem_iff.mp
        rw [hfirst]
        exact List.mem_cons_self
      exact ⟨a, rfl, isLoneOr_of_mem_kept isLoneOr_of_mem_skipped a ha⟩
  · exact ⟨d, ((reordered_perm es).filter _).mem_iff.mpr hd, hother⟩

theorem written_eq_settled_iff_of_hidden (hempty : e.isEmpty = true) :
    kept (reordered es) = settled (kept es) ↔ InOrder es := by
  have hfront : kept [e] = [] := by simp [kept, hempty]
  have hrest : kept (e :: rest) = kept rest := by simp [kept, hempty]
  have hhides : HidesFront es ↔ BeginsStray (kept es) := by
    refine ⟨fun h => h.stray, fun h => ⟨⟨e, ?_, hempty⟩, h⟩⟩
    rw [hothers]
    rfl
  by_cases hstray : BeginsStray (kept es)
  · -- An alternative is first of what is written, and none is in a settled order.
    refine iff_of_false (fun heq => ?_) fun h => h.shows (hhides.mpr hstray)
    apply not_beginsStray_settled (kept es)
    rw [← heq]
    exact beginsStray_written hothers hempty hstray
  · rw [settled_eq_self hstray, written_eq_append hothers, kept_eq_append hothers, hfront, hrest,
      List.nil_append, List.append_cancel_right_eq, ← not_passesOver_iff hothers]
    exact ⟨fun h => ⟨fun hh => hstray (hhides.mp hh), h⟩, fun h => h.keeps⟩

end Split

/-- What is written is in the settled order exactly if no empty condition hides the front and no
alternative is carried over another. -/
theorem written_eq_settled_iff (es : List Expression) :
    kept (reordered es) = settled (kept es) ↔ InOrder es := by
  cases hothers : others es with
  | nil =>
    -- All conditions are alternatives, and they stay as they are.
    have hlone := isLoneOr_of_mem_kept (isLoneOr_of_others_nil hothers)
    have hstray : ¬ BeginsStray (kept es) := by
      rintro ⟨-, d, hd, hother⟩
      rw [hlone d hd] at hother
      cases hother
    rw [reordered_of_others_nil hothers, settled_eq_self hstray]
    exact iff_of_true rfl ⟨fun h => hstray h.stray, fun h => h.1 hothers⟩
  | cons e rest =>
    cases hempty : e.isEmpty with
    | false => exact written_eq_settled_iff_of_shown hothers hempty
    | true => exact written_eq_settled_iff_of_hidden hothers hempty

/-! ## The text of the conditions -/

/-- Conditions side by side: each but the first after AND, or after OR if it is an alternative of one
condition, and in parentheses where the connectives would tear it. -/
def sideBySide (s : Scope) (ws : List Expression) : Fragment :=
  (Grouping.group .and).linked Word.fragment (ws.length == 1) (Form.items (Form.fragment s) false ws)

theorem sideBySide_singleton (s : Scope) (e : Expression) : sideBySide s [e] = e.fragment s := rfl

/-- What a connective joins are the conditions that write something. -/
theorem connected_eq_sideBySide (s : Scope) (es : List Expression) :
    Child.connected " AND " (Expression.children s es) = sideBySide s (kept es) :=
  (Grouping.connected_eq_joined (c := .and)).trans
    (Grouping.joined_items Word.fragment (Form.fragment s) (.group .and) es)

/-- A conjunction is written as its conditions side by side, in parentheses if there is more than one. -/
theorem fragment_and (s : Scope) (es : List Expression) : (Expression.and es).fragment s
    = Fragment.parenthesized (1 < (kept es).length) (sideBySide s (kept es)) := by
  have hpresent : (Child.present (Expression.children s es)).length = (kept es).length := by
    rw [Grouping.present_children_eq (c := .and), Expression.children_eq_map, List.length_map]
    rfl
  show Child.grouped " AND " (Expression.children s es) = _
  rw [Child.grouped, connected_eq_sideBySide, hpresent]

theorem isEmpty_and_iff : (Expression.and es).isEmpty = true ↔ kept es = [] := by
  rw [Expression.isEmpty, kept, List.filter_eq_nil_iff]
  induction es with
  | nil => simp [Expression.allEmpty]
  | cons e es ih => simp [Expression.allEmpty, ih]

theorem flattened_cases (w : Where) :
    w.flattened = w.conditions
      ∨ ∃ es, w.conditions = [.and es] ∧ w.flattened = es ∧ ∀ e ∈ es, e.isLoneOr = false := by
  rw [flattened]
  split
  · next es hconditions =>
    split
    · exact .inl rfl
    · next hnone =>
      refine .inr ⟨es, hconditions, rfl, fun e he => ?_⟩
      cases hlone : e.isLoneOr with
      | false => rfl
      | true =>
        exfalso
        apply hnone
        rw [List.any_eq_true]
        refine ⟨e, he, ?_⟩
        cases e <;> first | rfl | cases hlone
  · exact .inl rfl

/-- The conditions of a clause are written side by side; those of a conjunction that stands alone may be
written without its parentheses. -/
theorem fragment_eq_sideBySide (s : Scope) (w : Where) :
    w.fragment s = sideBySide s (kept (reordered w.conditions))
      ∨ ∃ e, w.conditions = [e] ∧ e.isEmpty = false
        ∧ sideBySide s (kept (reordered w.conditions)) = Fragment.enclosed "(" (w.fragment s) ")" := by
  rw [fragment, connected_eq_sideBySide]
  obtain heq | ⟨es, hconditions, heq, hnone⟩ := flattened_cases w
  · rw [heq]
    exact .inl rfl
  · -- None of its conditions is an alternative, so they stay in their order.
    have horder : reordered es = es := by
      cases es with
      | nil => rfl
      | cons e es => rw [reordered, hnone e List.mem_cons_self, if_neg Bool.false_ne_true]
    have hsingle : reordered [Expression.and es] = [.and es] := rfl
    rw [heq, horder, hconditions, hsingle]
    cases hempty : (Expression.and es).isEmpty with
    | true =>
      have hkept : kept [Expression.and es] = [] := by simp [kept, hempty]
      rw [isEmpty_and_iff.mp hempty, hkept]
      exact .inl rfl
    | false =>
      have hkept : kept [Expression.and es] = [.and es] := by simp [kept, hempty]
      rw [hkept, sideBySide_singleton, fragment_and]
      by_cases hseveral : 1 < (kept es).length
      · rw [decide_eq_true hseveral]
        exact .inr ⟨_, rfl, hempty, rfl⟩
      · rw [decide_eq_false hseveral]
        exact .inl rfl

/-- Conditions that are written in the same order have the same text, but for one pair of parentheses. -/
theorem sameInside_of_written_eq {v w : Where} (hkept : kept v.conditions = kept w.conditions)
    (hwritten : kept (reordered v.conditions) = kept (reordered w.conditions)) :
    (v.fragment s).SameInside (w.fragment s) := by
  obtain hv | ⟨e, hv, he, hvtext⟩ := fragment_eq_sideBySide s v
  · obtain hw | ⟨_, _, _, hwtext⟩ := fragment_eq_sideBySide s w
    · left
      rw [hv, hw, hwritten]
    · right
      left
      rw [hv, hwritten, hwtext]
  · obtain hw | ⟨d, hw, hd, _⟩ := fragment_eq_sideBySide s w
    · right
      right
      rw [hw, ← hwritten, hvtext]
    · -- Both clauses have one condition, and it is the same.
      left
      have hsame : v.conditions = w.conditions := by
        simpa [hv, hw, kept, he, hd] using hkept
      rw [fragment, fragment, flattened, flattened, hsame]

/-- A clause writes each condition that is not empty once, side by side, but for the parentheses of a
conjunction that stands alone. They are in the settled order exactly if no empty condition hides the
front and no alternative of one condition is carried over another; and clauses of which this holds have
the same text, but for one pair of parentheses, if they differ in empty conditions only. -/
theorem conditions_settled_iff (s : Scope) (w : Where) :
    (kept (reordered w.conditions)).Perm (kept w.conditions)
    ∧ (w.fragment s).SameInside (sideBySide s (kept (reordered w.conditions)))
    ∧ (kept (reordered w.conditions) = settled (kept w.conditions) ↔ InOrder w.conditions)
    ∧ ∀ v : Where, kept v.conditions = kept w.conditions → InOrder v.conditions →
      InOrder w.conditions → (v.fragment s).SameInside (w.fragment s) := by
  refine ⟨(reordered_perm _).filter _, ?_, written_eq_settled_iff _, ?_⟩
  · obtain heq | ⟨_, _, _, heq⟩ := fragment_eq_sideBySide s w
    · exact .inl heq
    · exact .inr (.inr heq)
  · intro v hkept hv hw
    apply sameInside_of_written_eq hkept
    rw [(written_eq_settled_iff _).mpr hv, (written_eq_settled_iff _).mpr hw, hkept]

/-- New, as an alternative to what stands before it. -/
def orNew : Expression := .or [.compare .eq (.named "mark") (.value (.text "new"))]

/-- Of age. -/
def ofAge : Expression := .compare .gte (.named "age") (.value (.int 18))

/-- An empty text that stands before the condition hides it, and the alternative is written first and
joined by AND. Behind the condition the empty text makes no difference. -/
theorem conditions_settled_iff_hiddenFront :
    let st : Statement := { dialect := .postgres }
    let w : Where := ⟨[orNew, .sql "" [], ofAge]⟩
    let v : Where := ⟨[ofAge, .sql "" [], orNew]⟩
    let u : Where := ⟨[ofAge, orNew]⟩
    (HidesFront w.conditions ∧ kept (reordered w.conditions) ≠ settled (kept w.conditions)
      ∧ (st.write (w.fragment st.scope)).output.sql = "\"mark\" = $1 AND \"age\" >= $2"
      ∧ (st.write (sideBySide st.scope (settled (kept w.conditions)))).output.sql
        = "\"age\" >= $1 OR \"mark\" = $2")
    ∧ kept v.conditions = kept u.conditions ∧ InOrder v.conditions ∧ InOrder u.conditions
      ∧ (v.fragment st.scope).SameInside (u.fragment st.scope) := by
  intro st w v u
  have hhides : HidesFront w.conditions :=
    ⟨⟨.sql "" [], rfl, rfl⟩, ⟨orNew, rfl, rfl⟩, ofAge, List.mem_cons_of_mem _ List.mem_cons_self, rfl⟩
  -- A condition that is not empty is in front, and no alternative is skipped.
  have horder (es : List Expression) : InOrder (ofAge :: es) := by
    constructor
    · rintro ⟨⟨_, ⟨⟩, hempty⟩, -⟩
      cases hempty
    · rintro ⟨-, _, hskipped, -⟩
      cases hskipped
  obtain ⟨-, -, hsettled, -⟩ := conditions_settled_iff st.scope w
  obtain ⟨-, -, -, hsame⟩ := conditions_settled_iff st.scope u
  exact ⟨⟨hhides, fun heq => (hsettled.mp heq).shows hhides, by decide, by decide⟩, rfl, horder _,
    horder _, hsame v rfl (horder _) (horder _)⟩

end Where

end RecordSql
