/-
  RecordSql.Proofs.Negation

  What the two forms of a condition say: comparisons with scalars under
  conjunctions, alternatives and negations of any conditions, to any depth.

  A group is read as the chain that is written, in which an alternative of one
  condition stands behind OR even in a conjunction, and so does any alternative
  under the word NOT.  `asserts` and `denies` are what the form and the negated
  form are read as (`Condition.isFactor`).
-/

import RecordSql.Proofs.Chains

namespace RecordSql

open Reading

namespace Expression

/-- Comparisons with scalars under conjunctions, alternatives and negations of one condition or
more. -/
inductive Condition : Expression → Prop where
  | compare (op : Comparison) (column : Column) (v : Value) :
      Condition (.compare op column (.value v))
  | member (column : Column) (v : Value) (vs : List Value) :
      Condition (.member column ((v :: vs).map .value))
  | and {es : List Expression} : es ≠ [] → (∀ e ∈ es, Condition e) → Condition (.and es)
  | or {es : List Expression} : es ≠ [] → (∀ e ∈ es, Condition e) → Condition (.or es)
  | not {es : List Expression} : es ≠ [] → (∀ e ∈ es, Condition e) → Condition (.not es)

/-! ## What is written between conditions -/

/-- What joins a condition to those before it in a group. -/
def beside (c : Connective) (e : Expression) : Connective := if e.isLoneOr then .or else c

/-- What joins a condition to those before it under the word NOT. -/
def underNot : Expression → Connective
  | .or _ => .or
  | _ => .and

theorem beside_or (e : Expression) : beside .or e = .or := ite_self _

/-! ## What the forms say -/

mutual
/-- Whether the text of a condition is true under an assignment of its comparisons. -/
def asserts (α : Atom → Bool) : Expression → Bool
  | .and es => chained (assertions α (beside .and) es)
  | .or es => chained (assertions α (beside .or) es)
  | .not es =>
    if es.all isNegatable then allDeny α es else !chained (assertions α underNot es)
  | e => e.comparison?.any α

/-- Whether the text of its negated form is. -/
def denies (α : Atom → Bool) : Expression → Bool
  | .not es => chained (assertions α (beside (if es.all isNegatable then .or else .and)) es)
  | e => !e.comparison?.any α

/-- What several conditions say, each with its connective. -/
def assertions (α : Atom → Bool) (connective : Expression → Connective) :
    List Expression → List (Connective × Bool)
  | [] => []
  | e :: es => (connective e, asserts α e) :: assertions α connective es

/-- Whether the negated forms of all conditions are true. -/
def allDeny (α : Atom → Bool) : List Expression → Bool
  | [] => true
  | e :: es => denies α e && allDeny α es
end

theorem assertions_eq (α : Atom → Bool) (connective : Expression → Connective)
    (es : List Expression) : assertions α connective es = links connective (asserts α) es := by
  induction es with
  | nil => rfl
  | cons e es ih => rw [assertions, ih]; rfl

theorem allDeny_eq (α : Atom → Bool) (es : List Expression) :
    allDeny α es = es.all (denies α) := by
  induction es with
  | nil => rfl
  | cons e es ih => rw [allDeny, ih, List.all_cons]

theorem chained_assertions (α : Atom → Bool) (connective : Expression → Connective) (e : Expression)
    (es : List Expression) :
    chained (assertions α connective (e :: es)) = chain (asserts α e) (links connective (asserts α) es) := by
  rw [assertions, chained, assertions_eq]

/-! ## The texts of groups -/

namespace Condition

theorem isEmpty_eq_false {e : Expression} (h : Condition e) :
    e.isEmpty = false ∧ e.isEmptyNegation = false := by
  induction h with
  | compare op column v => exact ⟨rfl, rfl⟩
  | member column v vs => exact ⟨rfl, rfl⟩
  | and hne _ ih =>
    have hempty := allEmpty_eq_false hne fun e he => (ih e he).1
    exact ⟨hempty, hempty⟩
  | or hne _ ih =>
    have hempty := allEmpty_eq_false hne fun e he => (ih e he).1
    exact ⟨hempty, hempty⟩
  | @not es hne _ ih =>
    have hempty := allEmpty_eq_false hne fun e he => (ih e he).1
    refine ⟨?_, hempty⟩
    rw [Expression.isEmpty]
    split
    · exact allEmptyNegation_eq_false hne fun e he => (ih e he).2
    · exact hempty

/-- Only raw SQL is put in parentheses beside other conditions. -/
theorem needsParens {e : Expression} (h : Condition e) (forms : Forms) :
    (Child.mk e forms).needsParens = false := by
  cases h with
  | @and es _ hes =>
    match es with
    | [] => rfl
    | [e] =>
      have he := hes e (List.mem_singleton_self e)
      cases he <;> rfl
    | e :: _ :: _ => cases e <;> rfl
  | @or es _ hes =>
    match es with
    | [] => rfl
    | [e] =>
      have he := hes e (List.mem_singleton_self e)
      cases he <;> rfl
    | e :: _ :: _ => cases e <;> rfl
  | _ => rfl

end Condition

section Groups

variable {s : Scope} {e : Expression} {es : List Expression}

theorem continued_conditions (c : Connective) (h : ∀ e ∈ es, Condition e) :
    Child.continued c.text (children s es) = continuation (fragment s) (beside c) es := by
  induction es with
  | nil => rfl
  | cons e es ih =>
    obtain ⟨he, hes⟩ := List.forall_mem_cons.mp h
    have hconnective : (if e.isLoneOr then " OR " else c.text) = (beside c e).text := by
      rw [beside]
      split <;> rfl
    rw [children, Child.continued, he.needsParens, ih hes, Child.isLoneOr, hconnective]
    rfl

/-- Conditions in a group, each after its connective. -/
theorem grouped_conditions (c : Connective) (h : ∀ d ∈ e :: es, Condition d) :
    Child.grouped c.text (children s (e :: es))
      = Fragment.parenthesized (1 < (e :: es).length)
          (e.fragment s ++ continuation (fragment s) (beside c) es) := by
  obtain ⟨he, hes⟩ := List.forall_mem_cons.mp h
  have hpresent : Child.present (children s (e :: es)) = children s (e :: es) :=
    present_children fun d hd => (h d hd).isEmpty_eq_false.1
  have hconnected : Child.connected c.text (children s (e :: es))
      = e.fragment s ++ continuation (fragment s) (beside c) es := by
    rw [Child.connected, hpresent, ← continued_conditions c hes]
    cases es with
    | nil => exact (List.append_nil _).symm
    | cons d es =>
      show Fragment.parenthesized _ _ ++ _ = _
      rw [he.needsParens]
      rfl
  rw [Child.grouped, hpresent, hconnected, children_eq_map, List.length_map]

/-- Conditions under the word NOT, each after its connective. -/
theorem notList_conditions (h : ∀ d ∈ e :: es, Condition d) :
    Child.notList (children s (e :: es))
      = e.fragment s ++ continuation (fragment s) underNot es := by
  induction es generalizing e with
  | nil =>
    have he := h e (List.mem_singleton_self e)
    cases he <;> rfl
  | cons d es ih =>
    obtain ⟨he, hes⟩ := List.forall_mem_cons.mp h
    have hwhole : Child.notList (children s (e :: d :: es))
        = e.fragment s ++ .text (underNot d).text :: Child.notList (children s (d :: es)) := by
      cases he <;> cases d <;> rfl
    rw [hwhole, ih hes]
    rfl

end Groups

/-! ## What the forms are read as -/

section Reads

variable {s : Scope} {e : Expression} {es : List Expression}

/-- A group of conditions is read as a chain. -/
theorem isFactor_grouped (c : Connective) (hne : es ≠ []) (h : ∀ e ∈ es, Condition e)
    (ih : ∀ e ∈ es, IsFactor s (e.fragment s) e.comparisons (asserts · e)) :
    IsFactor s (Child.grouped c.text (children s es)) (comparisonsOf es)
      (fun α => chained (assertions α (beside c) es)) := by
  cases es with
  | nil => exact absurd rfl hne
  | cons e es =>
    rw [grouped_conditions c h, comparisonsOf_eq]
    simp only [chained_assertions]
    exact isFactor_group (beside c) ih

/-- Negated forms are joined by AND. -/
theorem isFactor_negated (hne : es ≠ []) (h : ∀ e ∈ es, Condition e)
    (hall : es.all isNegatable = true)
    (ih : ∀ e ∈ es, IsFactor s (e.negatedFragment s) e.comparisons (denies · e)) :
    IsFactor s (Child.negated (children s es)) (comparisonsOf es) (fun α => allDeny α es) := by
  rw [negated_children_of_isNegatable (List.all_eq_true.mp hall)
    fun e he => (h e he).isEmpty_eq_false.2, comparisonsOf_eq]
  cases es with
  | nil => exact absurd rfl hne
  | cons e es =>
    have hjoined : Fragment.joined " AND " ((e :: es).map (negatedFragment s))
        = e.negatedFragment s ++ continuation (negatedFragment s) (fun _ => .and) es := by
      rw [List.map_cons, Fragment.joined_cons, List.flatMap_map]
      rfl
    rw [hjoined]
    refine (isFactor_group (fun _ => .and) ih).congr fun α _ => ?_
    rw [allDeny_eq, links, chain_and, List.all_cons]

/-- Conditions under the word NOT are a chain that is negated. -/
theorem isFactor_underNot (hne : es ≠ []) (h : ∀ e ∈ es, Condition e)
    (hall : es.all isNegatable = false)
    (ih : ∀ e ∈ es, IsFactor s (e.fragment s) e.comparisons (asserts · e)) :
    IsFactor s (Child.negated (children s es)) (comparisonsOf es)
      (fun α => !chained (assertions α underNot es)) := by
  have hmixed : ¬(children s es).all (·.expr.isNegatable) = true := by
    rw [children_eq_map, List.all_map]
    exact Bool.eq_false_iff.mp hall
  rw [Child.negated, if_neg hmixed]
  cases es with
  | nil => exact absurd rfl hne
  | cons e es =>
    rw [notList_conditions h, children_eq_map, List.length_map, comparisonsOf_eq]
    simp only [chained_assertions]
    exact (isFactor_group underNot ih).not

/-- Both forms of a condition are read as what they say. -/
theorem Condition.isFactor (h : Condition e) :
    IsFactor s (e.fragment s) e.comparisons (asserts · e)
      ∧ (e.isNegatable = true →
          IsFactor s (e.negatedFragment s) e.comparisons (denies · e)) := by
  induction h with
  | compare op column v =>
    obtain ⟨hform, hnegated⟩ := (Negatable.compare op column v).isCondition (s := s)
    exact ⟨hform.isFactor, fun _ => hnegated.isFactor⟩
  | member column v vs =>
    obtain ⟨hform, hnegated⟩ := (Negatable.member column v vs).isCondition (s := s)
    exact ⟨hform.isFactor, fun _ => hnegated.isFactor⟩
  | and hne hes ih =>
    refine ⟨isFactor_grouped .and hne hes fun e he => (ih e he).1, fun hnegatable => ?_⟩
    exact Bool.noConfusion hnegatable
  | or hne hes ih =>
    refine ⟨isFactor_grouped .or hne hes fun e he => (ih e he).1, fun hnegatable => ?_⟩
    exact Bool.noConfusion hnegatable
  | @not es hne hes ih =>
    have hforms : ∀ e ∈ es, IsFactor s (e.fragment s) e.comparisons (asserts · e) :=
      fun e he => (ih e he).1
    -- The negated form of a NOT has neither the word nor negated parts.
    have hnegation : (Expression.not es).negatedFragment s
        = Child.grouped (if es.all isNegatable then Connective.or else .and).text
          (children s es) := by
      have hall : (children s es).all (·.expr.isNegatable) = es.all isNegatable := by
        rw [children_eq_map, List.all_map]
        rfl
      show Child.doublyNegated (children s es) = _
      rw [Child.doublyNegated, hall]
      cases es.all isNegatable <;> rfl
    constructor
    · show IsFactor s (Child.negated (children s es)) (comparisonsOf es) _
      cases hall : es.all isNegatable with
      | true =>
        have hnegatable := List.all_eq_true.mp hall
        refine (isFactor_negated hne hes hall fun e he => (ih e he).2 (hnegatable e he)).congr ?_
        intro α _
        rw [asserts, if_pos hall]
      | false =>
        refine (isFactor_underNot hne hes hall hforms).congr fun α _ => ?_
        rw [asserts, hall]
        rfl
    · intro _
      rw [hnegation]
      exact isFactor_grouped _ hne hes hforms

end Reads

end Expression

end RecordSql
