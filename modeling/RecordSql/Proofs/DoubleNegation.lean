/-
  RecordSql.Proofs.DoubleNegation

  Negations of one condition inside each other.  How a negation is written
  depends on whether what it negates has a negated form, and on two tests of
  emptiness that change places from one negation to the next.  Over two
  negations these choices cancel: they count as empty exactly if the
  condition does (`Expression.isEmpty_not_not`), and otherwise they are
  written as the condition (`Expression.fragment_not_not`).

  An odd number of negations is an even number of them over a single one.
  That one may count as empty although the condition does not, as it does for
  a membership among no values; then nothing is written of it either
  (`Expression.fragment_not_of_isEmpty`), so the two still agree.
-/

import RecordSql.Proofs.Emptiness

namespace RecordSql

namespace Expression

variable {s : Scope} {e : Expression}

/-- An expression under a number of negations, each of what stands under it alone. -/
def negations : Nat → Expression → Expression
  | 0, e => e
  | n + 1, e => .not [negations n e]

/-- The innermost negation may be counted first. -/
theorem negations_not (n : Nat) (e : Expression) :
    negations n (.not [e]) = negations (n + 1) e := by
  induction n with
  | zero => rfl
  | succ n ih => rw [negations, ih]; rfl

/-! ## Two negations -/

/-- Two negations count as empty exactly if what they negate does. -/
theorem isEmpty_not_not (e : Expression) : (Expression.not [.not [e]]).isEmpty = e.isEmpty := by
  -- The outer one asks whether the negated form of the inner one is empty, and that whether `e` is.
  show (allEmpty [e] && true) = e.isEmpty
  rw [allEmpty, allEmpty, Bool.and_true, Bool.and_true]

/-- What undoes a negation writes its condition, if that is not empty. -/
theorem doublyNegated_singleton (s : Scope) (e : Expression) :
    Child.doublyNegated (children s [e]) = if e.isEmpty then [] else e.fragment s := by
  cases hempty : e.isEmpty with
  | true =>
    have hall : allEmpty [e] = true := by rw [allEmpty, hempty]; rfl
    exact grouped_of_allEmpty _ hall
  | false =>
    have hpresent : Child.present (children s [e]) = children s [e] :=
      present_children fun d hd => List.mem_singleton.mp hd ▸ hempty
    rw [Child.doublyNegated, Child.grouped, Child.connected, hpresent]
    rfl

/-- Two negations are written as what they negate, if that is not empty. -/
theorem fragment_not_not (s : Scope) (e : Expression) :
    (Expression.not [.not [e]]).fragment s = if e.isEmpty then [] else e.fragment s := by
  have hall : [Expression.not [e]].all isNegatable = true := rfl
  cases hempty : e.isEmpty with
  | true =>
    have hnone : allEmptyNegation [.not [e]] = true := by
      rw [allEmptyNegation, isEmptyNegation, allEmpty, hempty]
      rfl
    exact negated_of_allEmptyNegation hall hnone
  | false =>
    have hkept : ∀ d ∈ [Expression.not [e]], d.isEmptyNegation = false := by
      intro d hd
      rw [List.mem_singleton.mp hd, isEmptyNegation, allEmpty, hempty, Bool.false_and]
    have hforms := negated_children_of_isNegatable (s := s) (List.all_eq_true.mp hall) hkept
    have hundone := doublyNegated_singleton s e
    rw [hempty] at hundone
    calc (Expression.not [.not [e]]).fragment s
        = (Expression.not [e]).negatedFragment s := hforms
      _ = e.fragment s := hundone

/-- A negation that counts as empty writes nothing, if what it negates does not count as empty. -/
theorem fragment_not_of_isEmpty (he : e.isEmpty = false)
    (hempty : (Expression.not [e]).isEmpty = true) : (Expression.not [e]).fragment s = [] := by
  rw [isEmpty] at hempty
  cases hall : [e].all isNegatable with
  | true =>
    rw [if_pos hall] at hempty
    exact negated_of_allEmptyNegation hall hempty
  | false =>
    -- Without a negated form the word NOT is written, and `e` would have to be empty.
    rw [hall, if_neg Bool.false_ne_true, allEmpty, he] at hempty
    cases hempty

/-! ## Any number of negations -/

theorem isEmpty_negations_even (n : Nat) (e : Expression) :
    (negations (2 * n) e).isEmpty = e.isEmpty := by
  induction n with
  | zero => rfl
  | succ n ih => exact (isEmpty_not_not _).trans ih

/-- An even number of negations writes what stands under them, unless that counts as empty and leaves
something all the same. -/
theorem fragment_negations_even (n : Nat) (h : e.isEmpty = true → e.fragment s = []) :
    (negations (2 * n) e).fragment s = e.fragment s := by
  induction n with
  | zero => rfl
  | succ n ih =>
    have hstep : (negations (2 * (n + 1)) e).fragment s
        = if (negations (2 * n) e).isEmpty then [] else (negations (2 * n) e).fragment s :=
      fragment_not_not s _
    rw [hstep, isEmpty_negations_even, ih]
    split
    · next hempty => exact (h hempty).symm
    · rfl

end Expression

/-- An even number of negations of an expression that is not empty leaves a statement as the
expression does, and an odd number as one negation does: text, values and errors. -/
theorem Statement.negations_cancel (st : Statement) {e : Expression} (he : e.isEmpty = false)
    (n : Nat) :
    st.writeExpression (e.negations (2 * n)) = st.writeExpression e
      ∧ st.writeExpression (e.negations (2 * n + 1)) = st.writeExpression (.not [e]) := by
  constructor
  · have heven : (e.negations (2 * n)).fragment st.scope = e.fragment st.scope :=
      Expression.fragment_negations_even n fun hempty => by
        rw [he] at hempty
        cases hempty
    rw [writeExpression, heven, writeExpression]
  · have hodd : (e.negations (2 * n + 1)).fragment st.scope
        = (Expression.not [e]).fragment st.scope := by
      rw [← Expression.negations_not]
      exact Expression.fragment_negations_even n (Expression.fragment_not_of_isEmpty he)
    rw [writeExpression, hodd, writeExpression]

/-- A membership among no values is written as it is under six negations. Under seven nothing is
written, as nothing is under one: no row is excluded. -/
theorem Statement.negations_cancel_noValues :
    let st : Statement := { dialect := .mysql, output := { sql := "ON " } }
    let e : Expression := .member (.qualified "u" "id") []
    e.isEmpty = false ∧ (Expression.not [e]).isEmpty = true
      ∧ (st.writeExpression (e.negations 6)).output.sql = "ON `u`.`id` IN (NULL)"
      ∧ (st.writeExpression (e.negations 7)).output.sql = "ON " := by
  intro st e
  have he : e.isEmpty = false := rfl
  obtain ⟨heven, hodd⟩ := negations_cancel st he 3
  refine ⟨he, rfl, ?_, ?_⟩
  · rw [heven]
    decide
  · rw [hodd]
    rfl

end RecordSql
