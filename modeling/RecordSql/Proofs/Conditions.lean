/-
  RecordSql.Proofs.Conditions

  Structured conditions keep their meaning when they are written.  These are
  comparisons with scalars, conjunctions and alternatives of them to any
  depth, and negations of comparisons and of such negations.

  A negation is written by the opposites of what it negates, so the induction
  is over both forms of a negatable condition at once
  (`Negatable.isCondition`): what negates several conditions joins their
  opposites by AND, and what negates that joins the conditions by OR.  The
  other conditions have one form only (`Structured.isCondition`).
-/

import RecordSql.Proofs.Reading

namespace RecordSql

namespace Reading

/-! ## Comparisons of expressions -/

/-- The operator of a comparison with a value. -/
def Operator.ofComparison : Comparison → Operator
  | .eq => .equal
  | .neq => .unequal
  | .gt => .greater
  | .gte => .atLeast
  | .lt => .less
  | .lte => .atMost
  | .like => .like

/-- What a comparison with a scalar asks: equality with null is a test for null. -/
def Atom.ofComparison (op : Comparison) (column : Column) (v : Value) : Atom :=
  match op.wantsEqual?, v.isNull with
  | some wanted, true => .null column wanted
  | _, _ => .compare column (.ofComparison op) v

/-- What a membership asks: among one value, for equality. -/
def Atom.ofMember (column : Column) : List Value → Atom
  | [v] => .compare column .equal v
  | vs => .among column true vs

end Reading

open Reading

namespace Expression

/-! ## Structured conditions -/

/-- Comparisons with scalars and negations of them: the conditions with a negated form. -/
inductive Negatable : Expression → Prop where
  | compare (op : Comparison) (column : Column) (v : Value) :
      Negatable (.compare op column (.value v))
  | member (column : Column) (v : Value) (vs : List Value) :
      Negatable (.member column ((v :: vs).map .value))
  | not {es : List Expression} : es ≠ [] → (∀ e ∈ es, Negatable e) → Negatable (.not es)

/-- Conditions made of negatable ones by conjunction and alternative. -/
inductive Structured : Expression → Prop where
  | negatable {e : Expression} : Negatable e → Structured e
  | and {es : List Expression} : es ≠ [] → (∀ e ∈ es, Structured e) → Structured (.and es)
  | or {es : List Expression} : 2 ≤ es.length → (∀ e ∈ es, Structured e) → Structured (.or es)

/-- What a comparison with scalars asks. -/
def comparison? : Expression → Option Atom
  | .compare op column (.value v) => some (.ofComparison op column v)
  | .member column args => (Arg.values? args).map (.ofMember column)
  | _ => none

mutual
/-- Whether a condition holds under an assignment of its comparisons. -/
def holds (α : Atom → Bool) : Expression → Bool
  | .and es => (truths α es).all id
  | .or es => (truths α es).any id
  | .not es => !(truths α es).any id
  | e => e.comparison?.any α

/-- Which of several conditions hold. -/
def truths (α : Atom → Bool) : List Expression → List Bool
  | [] => []
  | e :: es => holds α e :: truths α es
end

mutual
/-- The comparisons of a condition from left to right. -/
def comparisons : Expression → List Atom
  | .and es => comparisonsOf es
  | .or es => comparisonsOf es
  | .not es => comparisonsOf es
  | e => e.comparison?.toList

/-- The comparisons of several conditions. -/
def comparisonsOf : List Expression → List Atom
  | [] => []
  | e :: es => comparisons e ++ comparisonsOf es
end

theorem truths_eq (α : Atom → Bool) (es : List Expression) : truths α es = es.map (holds α) := by
  induction es with
  | nil => rfl
  | cons e es ih => rw [truths, ih, List.map_cons]

theorem comparisonsOf_eq (es : List Expression) : comparisonsOf es = es.flatMap comparisons := by
  induction es with
  | nil => rfl
  | cons e es ih => rw [comparisonsOf, ih, List.flatMap_cons]

/-! ## Children -/

theorem children_eq_map (s : Scope) (es : List Expression) :
    children s es = es.map fun e => ⟨e, e.forms s⟩ := by
  induction es with
  | nil => rfl
  | cons e es ih => rw [children, ih, List.map_cons]

/-- A condition that is written beside others as it is, joined by their connective. -/
structure Bare (e : Expression) : Prop where
  isEmpty : e.isEmpty = false
  isLoneOr : e.isLoneOr = false
  needsParens : ∀ forms, (Child.mk e forms).needsParens = false

theorem present_children {s : Scope} {es : List Expression} (h : ∀ e ∈ es, e.isEmpty = false) :
    Child.present (children s es) = children s es := by
  rw [Child.present, List.filter_eq_self, children_eq_map]
  intro c hc
  obtain ⟨e, he, rfl⟩ := List.mem_map.mp hc
  show (!e.isEmpty) = true
  rw [h e he, Bool.not_false]

theorem continued_children {s : Scope} {connective : String} {e : Expression} (he : e.Bare)
    {es : List Expression} (h : ∀ e ∈ es, e.Bare) :
    e.fragment s ++ Child.continued connective (children s es)
      = Fragment.joined connective ((e :: es).map (fragment s)) := by
  induction es generalizing e with
  | nil => exact List.append_nil _
  | cons d ds ih =>
    obtain ⟨hd, hds⟩ := List.forall_mem_cons.mp h
    have hrest := ih hd hds
    have hwhole : Fragment.parenthesized (Child.mk d (d.forms s)).needsParens
        (d.forms s).positive = d.fragment s := by
      rw [hd.needsParens]
      rfl
    rw [children, Child.continued, hwhole, Child.isLoneOr, hd.isLoneOr, List.map_cons,
      List.map_cons]
    show _ = e.fragment s ++ Piece.text connective
      :: Fragment.joined connective ((d :: ds).map (fragment s))
    rw [← hrest]
    rfl

/-- Such conditions are joined as they are. -/
theorem connected_children {s : Scope} {connective : String} {es : List Expression}
    (h : ∀ e ∈ es, e.Bare) :
    Child.connected connective (children s es)
      = Fragment.joined connective (es.map (fragment s)) := by
  rw [Child.connected, present_children fun e he => (h e he).isEmpty]
  match es with
  | [] => rfl
  | [e] => rfl
  | e :: d :: ds =>
    obtain ⟨he, hds⟩ := List.forall_mem_cons.mp h
    rw [← continued_children he hds]
    show Fragment.parenthesized _ _ ++ _ = _
    rw [he.needsParens]
    rfl

theorem grouped_children {s : Scope} {connective : String} {es : List Expression}
    (h : ∀ e ∈ es, e.Bare) :
    Child.grouped connective (children s es)
      = Fragment.parenthesized (1 < es.length)
          (Fragment.joined connective (es.map (fragment s))) := by
  rw [Child.grouped, connected_children h, present_children fun e he => (h e he).isEmpty,
    children_eq_map, List.length_map]

/-! ## The forms of negatable conditions -/

/-- The negated form, for the conditions that have one. -/
def negatedFragment (s : Scope) (e : Expression) : Fragment := (e.forms s).negative.getD []

theorem allEmpty_eq_false {es : List Expression} (hne : es ≠ [])
    (h : ∀ e ∈ es, e.isEmpty = false) : allEmpty es = false := by
  cases es with
  | nil => exact absurd rfl hne
  | cons e es => rw [allEmpty, h e (List.mem_cons_self ..), Bool.false_and]

theorem allEmptyNegation_eq_false {es : List Expression} (hne : es ≠ [])
    (h : ∀ e ∈ es, e.isEmptyNegation = false) : allEmptyNegation es = false := by
  cases es with
  | nil => exact absurd rfl hne
  | cons e es => rw [allEmptyNegation, h e (List.mem_cons_self ..), Bool.false_and]

theorem all_isNegatable {es : List Expression} (h : ∀ e ∈ es, e.isNegatable = true) :
    es.all isNegatable = true := List.all_eq_true.mpr h

namespace Negatable

theorem isNegatable {e : Expression} (h : Negatable e) : e.isNegatable = true := by
  cases h <;> rfl

/-- Both forms of a negatable condition write something. -/
theorem isEmpty_eq_false {e : Expression} (h : Negatable e) :
    e.isEmpty = false ∧ e.isEmptyNegation = false := by
  induction h with
  | compare op column v => exact ⟨rfl, rfl⟩
  | member column v vs => exact ⟨rfl, rfl⟩
  | @not es hne hes ih =>
    have hall : es.all Expression.isNegatable = true :=
      all_isNegatable fun e he => (hes e he).isNegatable
    refine ⟨?_, allEmpty_eq_false hne fun e he => (ih e he).1⟩
    rw [Expression.isEmpty, if_pos hall]
    exact allEmptyNegation_eq_false hne fun e he => (ih e he).2

theorem bare {e : Expression} (h : Negatable e) : e.Bare := by
  refine ⟨h.isEmpty_eq_false.1, ?_, fun forms => ?_⟩
  · cases h <;> rfl
  · cases h <;> rfl

end Negatable

/-- What negates conditions that all have a negated form joins these forms. -/
theorem negated_children_of_isNegatable {s : Scope} {es : List Expression}
    (hall : ∀ e ∈ es, e.isNegatable = true) (hkept : ∀ e ∈ es, e.isEmptyNegation = false) :
    Child.negated (children s es)
      = Fragment.parenthesized (1 < es.length)
          (Fragment.joined " AND " (es.map (negatedFragment s))) := by
  have hall : (children s es).all (·.expr.isNegatable) = true := by
    rw [children_eq_map, List.all_map]
    exact all_isNegatable hall
  have hkept : (children s es).filter (!·.expr.isEmptyNegation) = children s es := by
    rw [List.filter_eq_self, children_eq_map]
    intro c hc
    obtain ⟨e, he, rfl⟩ := List.mem_map.mp hc
    show (!e.isEmptyNegation) = true
    rw [hkept e he, Bool.not_false]
  rw [Child.negated, if_pos hall, hkept]
  show Fragment.parenthesized (1 < (children s es).length)
    (Fragment.joined " AND " ((children s es).map fun c => c.forms.negative.getD [])) = _
  rw [children_eq_map, List.length_map, List.map_map]
  rfl

theorem negated_children {s : Scope} {es : List Expression} (h : ∀ e ∈ es, Negatable e) :
    Child.negated (children s es)
      = Fragment.parenthesized (1 < es.length)
          (Fragment.joined " AND " (es.map (negatedFragment s))) :=
  negated_children_of_isNegatable (fun e he => (h e he).isNegatable)
    fun e he => (h e he).isEmpty_eq_false.2

theorem doublyNegated_children {s : Scope} {es : List Expression} (h : ∀ e ∈ es, Negatable e) :
    Child.doublyNegated (children s es)
      = Fragment.parenthesized (1 < es.length)
          (Fragment.joined " OR " (es.map (fragment s))) := by
  have hall : (children s es).all (·.expr.isNegatable) = true := by
    rw [children_eq_map, List.all_map]
    exact all_isNegatable fun e he => (h e he).isNegatable
  rw [Child.doublyNegated, if_pos hall, grouped_children fun e he => (h e he).bare]

/-! ## What negatable conditions are read as -/

/-- A comparison with a scalar is written as its atom, and negated as the opposite of that. -/
theorem comparisonFragment_scalar (s : Scope) (op : Comparison) (column : Column) (negated : Bool)
    (v : Value) :
    column.fragment s ++ comparisonFragment op negated v.isNull { whole := [.bound v] }
      = ((if negated then Atom.opposite else id) (.ofComparison op column v)).fragment s := by
  rw [Atom.ofComparison]
  -- Equality and inequality test for null; the other comparisons bind it.
  cases v.isNull with
  | true => cases op <;> cases negated <;> rfl
  | false => cases op <;> cases negated <;> rfl

theorem slots_values (s : Scope) (vs : List Value) :
    Arg.slots s (vs.map .value) = vs.map fun v => { whole := [.bound v] } := by
  induction vs with
  | nil => rfl
  | cons v vs ih =>
    rw [List.map_cons, Arg.slots, ih]
    rfl

/-- A membership among scalars is written as its atom, and negated as the opposite of that. -/
theorem memberFragment_scalars (s : Scope) (column : Column) (negated : Bool) (v : Value)
    (vs : List Value) :
    memberFragment (column.fragment s) negated ((v :: vs).map .value)
        (Arg.slots s ((v :: vs).map .value))
      = ((if negated then Atom.opposite else id) (.ofMember column (v :: vs))).fragment s := by
  rw [slots_values]
  cases vs with
  | nil => cases negated <;> rfl
  | cons w vs =>
    -- Several values are listed; one alone was compared by equality.
    have hitems : ((v :: w :: vs).map fun v : Value => ({ whole := [.bound v] } : Slot)).map
        (·.whole) = (v :: w :: vs).map fun v => [.bound v] := by
      rw [List.map_map]
      rfl
    show column.fragment s ++ amongFragment (!negated) (List.map Slot.whole _) = _
    rw [hitems]
    cases negated <;> rfl

theorem values?_map_value (vs : List Value) : Arg.values? (vs.map .value) = some vs := by
  induction vs with
  | nil => rfl
  | cons v vs ih =>
    rw [List.map_cons, Arg.values?, ih]
    rfl

/-- A comparison that is written as an atom and as its opposite is read as them. -/
theorem isCondition_of_comparison {s : Scope} {e : Expression} {a : Atom}
    (ha : e.comparison? = some a) (hcomparisons : e.comparisons = e.comparison?.toList)
    (hholds : (e.holds ·) = e.comparison?.any) (hfragment : e.fragment s = a.fragment s)
    (hnegated : e.negatedFragment s = a.opposite.fragment s) :
    IsCondition s (e.fragment s) e.comparisons (e.holds ·)
      ∧ IsCondition s (e.negatedFragment s) e.comparisons (fun α => !e.holds α) := by
  have hvalue : ∀ α, e.holds α = α a := by
    intro α
    rw [congrFun hholds α, ha]
    rfl
  rw [hcomparisons, ha, hfragment, hnegated]
  simp only [hvalue]
  exact ⟨isCondition_atom a, isCondition_opposite a⟩

theorem Negatable.isCondition {s : Scope} {e : Expression} (h : Negatable e) :
    IsCondition s (e.fragment s) e.comparisons (e.holds ·)
      ∧ IsCondition s (e.negatedFragment s) e.comparisons (fun α => !e.holds α) := by
  induction h with
  | compare op column v =>
    exact isCondition_of_comparison rfl rfl rfl (comparisonFragment_scalar s op column false v)
      (comparisonFragment_scalar s op column true v)
  | member column v vs =>
    have hcomparison : comparison? (.member column ((v :: vs).map .value))
        = some (.ofMember column (v :: vs)) := by
      rw [comparison?, values?_map_value]
      rfl
    exact isCondition_of_comparison hcomparison rfl rfl (memberFragment_scalars s column false v vs)
      (memberFragment_scalars s column true v vs)
  | @not es hne hes ih =>
    have hcomparisons : comparisons (.not es) = es.flatMap comparisons := by
      rw [comparisons, comparisonsOf_eq]
    have hholds : ∀ α, holds α (.not es) = !(es.map (holds α)).any id := by
      intro α
      rw [holds, truths_eq]
    rw [hcomparisons]
    constructor
    · -- None of the conditions: the opposite of each.
      show IsCondition s (Child.negated (children s es)) _ _
      rw [negated_children hes]
      refine (isCondition_group .and hne fun e he => (ih e he).2).congr fun α _ => ?_
      rw [hholds]
      show (es.map fun e => !e.holds α).all id = _
      rw [List.all_map, List.any_map, List.not_any_eq_all_not]
      rfl
    · -- The opposite of that: one of them.
      show IsCondition s (Child.doublyNegated (children s es)) _ _
      rw [doublyNegated_children hes]
      refine (isCondition_group .or hne fun e he => (ih e he).1).congr fun α _ => ?_
      rw [hholds, Bool.not_not]
      rfl

/-! ## What structured conditions are read as -/

theorem Structured.bare {e : Expression} (h : Structured e) : e.Bare := by
  induction h with
  | negatable h => exact h.bare
  | @and es hne hes ih =>
    refine ⟨allEmpty_eq_false hne fun e he => (ih e he).isEmpty, rfl, fun forms => ?_⟩
    -- Only raw SQL under a conjunction of its own would need parentheses.
    match es with
    | [] => rfl
    | [e] =>
      have he := hes e (List.mem_singleton_self e)
      cases he with
      | negatable h => cases h <;> rfl
      | and => rfl
      | or => rfl
    | e :: _ :: _ => cases e <;> rfl
  | @or es htwo hes ih =>
    have hne : es ≠ [] := List.ne_nil_of_length_pos (by omega)
    have hempty : allEmpty es = false := allEmpty_eq_false hne fun e he => (ih e he).isEmpty
    -- One alternative alone would join what stands before it by OR.
    match es, htwo with
    | e :: _ :: _, _ => exact ⟨hempty, rfl, fun forms => by cases e <;> rfl⟩

theorem Structured.isCondition {s : Scope} {e : Expression} (h : Structured e) :
    IsCondition s (e.fragment s) e.comparisons (e.holds ·) := by
  induction h with
  | negatable h => exact h.isCondition.1
  | @and es hne hes ih =>
    show IsCondition s (Child.grouped " AND " (children s es)) _ _
    rw [grouped_children fun e he => (hes e he).bare, comparisons, comparisonsOf_eq]
    refine (isCondition_group .and hne ih).congr fun α _ => ?_
    rw [holds, truths_eq]
    rfl
  | @or es htwo hes ih =>
    have hne : es ≠ [] := List.ne_nil_of_length_pos (by omega)
    show IsCondition s (Child.grouped " OR " (children s es)) _ _
    rw [grouped_children fun e he => (hes e he).bare, comparisons, comparisonsOf_eq]
    refine (isCondition_group .or hne ih).congr fun α _ => ?_
    rw [holds, truths_eq]
    rfl

/-! ## The conditions of a clause -/

/-- The conditions `ds` joined by AND say what `e` says. -/
structure Conjuncts (e : Expression) (ds : List Expression) : Prop where
  ne_nil : ds ≠ []
  structured : ∀ d ∈ ds, Structured d
  comparisons : ds.flatMap comparisons = e.comparisons
  holds : ∀ α, (ds.map (holds α)).all id = e.holds α

theorem Structured.conjuncts_singleton {e : Expression} (h : Structured e) : Conjuncts e [e] where
  ne_nil := List.cons_ne_nil e []
  structured _ hd := List.mem_singleton.mp hd ▸ h
  comparisons := List.flatMap_singleton ..
  holds _ := Bool.and_true _

/-- What a WHERE clause of one condition joins: the condition, or the parts of a conjunction. -/
theorem Structured.conjuncts_flattened {e : Expression} (h : Structured e) :
    Conjuncts e (Where.mk [e]).flattened := by
  have halone : Conjuncts e [e] := h.conjuncts_singleton
  cases h with
  | negatable h => cases h <;> exact halone
  | or htwo hes => exact halone
  | @and es hne hes =>
    have hparts : Conjuncts (.and es) es := by
      refine ⟨hne, hes, ?_, fun α => ?_⟩
      · rw [Expression.comparisons, comparisonsOf_eq]
      · rw [Expression.holds, truths_eq]
    -- A conjunction with an alternative in it stays whole.
    show Conjuncts (.and es) (if _ then [.and es] else es)
    split
    · exact halone
    · exact hparts

/-- Where no condition is a lone alternative, the order stays. -/
theorem reordered_eq_self {es : List Expression} (h : ∀ e ∈ es, e.Bare) :
    Where.reordered es = es := by
  cases es with
  | nil => rfl
  | cons e es =>
    rw [Where.reordered, (h e (List.mem_cons_self ..)).isLoneOr]
    rfl

theorem Structured.isText_where {s : Scope} {e : Expression} (h : Structured e) :
    IsText s ((Where.mk [e]).fragment s) e.comparisons (e.holds ·) := by
  have hconjuncts := h.conjuncts_flattened
  have hbare : ∀ d ∈ (Where.mk [e]).flattened, d.Bare :=
    fun d hd => (hconjuncts.structured d hd).bare
  have htext := isText_joined (s := s) .and hconjuncts.ne_nil
    fun d hd => (hconjuncts.structured d hd).isCondition
  rw [Where.fragment, reordered_eq_self hbare, connected_children hbare, ← hconjuncts.comparisons]
  simp only [← hconjuncts.holds]
  exact htext

/-! ## What is written -/

/-- From `st` to `st'` a text was written whose tokens are read as the formula, and which means what
the condition means. -/
structure ReadBack (e : Expression) (st st' : Statement) (ts : List Token) (φ : Formula) :
    Prop where
  written : st' = st.write (spelled st.scope ts)
  parse : parse ts = some φ
  /-- Each comparison of the condition stands in the text, itself or its opposite, in order. -/
  comparisons : List.Forall₂ Atom.OnOneSide (atoms ts) e.comparisons
  eval : ∀ α, Complementary α → φ.eval α = e.holds α
  /-- Its values are bound, besides those of the table wherever a column mentions it. -/
  values : (spelled st.scope ts).values = e.comparisons.flatMap Atom.values
    ∧ (st.tableFragment.values = [] →
        st'.output.values = st.output.values ++ e.comparisons.flatMap Atom.values)

theorem readBack_of_isText {e : Expression} {st : Statement} {f : Fragment}
    (h : IsText st.scope f e.comparisons (e.holds ·)) :
    ∃ ts φ, e.ReadBack st (st.write f) ts φ := by
  obtain ⟨ts, φ, ⟨hfragment, hatoms, heval⟩, hparse⟩ := h.parse
  have hvalues : (spelled st.scope ts).values = e.comparisons.flatMap Atom.values := by
    rw [values_spelled, flatMap_values_eq hatoms]
  refine ⟨ts, φ, ⟨by rw [hfragment], hparse, hatoms, heval, hvalues, fun htable => ?_⟩⟩
  rw [Statement.write_output, Output.append_values, Statement.resolved,
    Fragment.values_withTable _ htable, hfragment, hvalues]

/-- A structured condition is read back from what is written for it, by itself and as the condition
of a WHERE clause. -/
theorem structured_read_back {e : Expression} (h : Structured e) (st : Statement) :
    (∃ ts φ, e.ReadBack st (st.writeExpression e) ts φ)
      ∧ ∃ ts φ, e.ReadBack st
          (st.write ((Clause.Body.conditions ⟨[e]⟩).fragment st.scope)) ts φ :=
  ⟨readBack_of_isText h.isCondition.isText, readBack_of_isText h.isText_where⟩

/-- An owner or an age between two bounds, said by negations, and one of three names. -/
def ownerOrAge : Expression :=
  .and
    [ .or
        [ .compare .neq (.named "owner") (.value .null)
        , .not
            [ .compare .gt (.named "age") (.value (.int 60))
            , .not [.compare .gte (.named "age") (.value (.int 18))] ] ]
    , .member (.named "name") ([.text "ann", .text "bob", .text "eve"].map .value) ]

/-- Its text has parentheses around the alternative and around the negations in it. It does not hold
where all of null, equal, greater, at least, like and among do. -/
theorem structured_read_back_ownerOrAge :
    let st : Statement := { dialect := .postgres }
    Structured ownerOrAge ∧ Complementary Atom.affirms
      ∧ (st.writeExpression ownerOrAge).output.sql
        = "((\"owner\" IS NOT NULL OR (\"age\" <= $1 AND \"age\" >= $2)) AND \"name\" IN ($3,$4,$5))"
      ∧ ∃ ts φ, ownerOrAge.ReadBack st (st.writeExpression ownerOrAge) ts φ
        ∧ φ.eval Atom.affirms = false := by
  intro st
  have hage (op : Comparison) (n : Int64) :
      Negatable (.compare op (.named "age") (.value (.int n))) := .compare ..
  have hadult : Negatable (.not [.compare .gte (.named "age") (.value (.int 18))]) :=
    .not (List.cons_ne_nil _ _) (List.forall_mem_singleton.mpr (hage .gte 18))
  have hnone : Negatable (.not [.compare .gt (.named "age") (.value (.int 60)),
      .not [.compare .gte (.named "age") (.value (.int 18))]]) :=
    .not (List.cons_ne_nil _ _)
      (List.forall_mem_cons.mpr ⟨hage .gt 60, List.forall_mem_singleton.mpr hadult⟩)
  have howner : Structured (.compare .neq (.named "owner") (.value .null)) :=
    .negatable (.compare ..)
  have hname : Structured
      (.member (.named "name") ([.text "ann", .text "bob", .text "eve"].map .value)) :=
    .negatable (.member ..)
  have h : Structured ownerOrAge :=
    .and (List.cons_ne_nil _ _) (List.forall_mem_cons.mpr
      ⟨.or (Nat.le_refl 2) (List.forall_mem_cons.mpr
          ⟨howner, List.forall_mem_singleton.mpr (.negatable hnone)⟩),
        List.forall_mem_singleton.mpr hname⟩)
  obtain ⟨ts, φ, hread⟩ := (structured_read_back h st).1
  refine ⟨h, complementary_affirms, by decide, ts, φ, hread, ?_⟩
  rw [hread.eval _ complementary_affirms]
  rfl

end Expression

end RecordSql
