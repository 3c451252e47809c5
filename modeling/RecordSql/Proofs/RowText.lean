/-
  RecordSql.Proofs.RowText

  Texts that single out rows, by the values in their columns and by columns
  that are equal.  A text is given by its syntax tree.  There is one type of
  trees for each level on which parentheses, AND and OR bind, so that a tree
  is determined by its text: `Term` for a test or what stands in parentheses,
  `Conjunction` for terms with AND between them, and `Alternatives` for
  conjunctions with OR between them.

  What such a text means depends on which columns of a row have which values
  (`Facts`).  Fragments are related to the trees they are the texts of
  (`IsTerm`, `IsConjunction`, `IsAlternatives`), and lists of them are joined
  as a printer joins them (`isConjunction_joined`, `isAlternatives_joined`).

  The conditions of a WHERE clause are joined by AND, with two exceptions: an
  alternative of one condition is joined by OR, and one of no condition is
  left out.
-/

import RecordSql.Proofs.Conditions

namespace RecordSql

namespace RowText

/-! ## Tests -/

/-- What is known of the columns of a row. -/
structure Facts where
  hasValue : Column → Value → Bool
  sameAs : Column → Column → Bool

/-- A test of a row. -/
inductive Test where
  | value (column : Column) (v : Value)
  | columns (column other : Column)
  /-- The column has one of the values. -/
  | among (column : Column) (vs : List Value)

namespace Test

def holds (F : Facts) : Test → Bool
  | .value column v => F.hasValue column v
  | .columns column other => F.sameAs column other
  | .among column vs => vs.any (F.hasValue column)

/-- The text of a test. No column is among no values. -/
def fragment (s : Scope) : Test → Fragment
  | .value column v => column.fragment s ++ [.text " = ", .bound v]
  | .columns column other => column.fragment s ++ .text " = " :: other.fragment s
  | .among column [] => column.fragment s ++ [.text " IN (NULL)"]
  | .among column (v :: vs) =>
    column.fragment s
      ++ Fragment.enclosed " IN (" (Fragment.joined "," ((v :: vs).map fun v => [.bound v])) ")"

end Test

/-! ## Trees -/

mutual
/-- A test, or a text in parentheses. -/
inductive Term where
  | test (t : Test)
  | group (text : Alternatives)

/-- Terms with AND between them. -/
inductive Conjunction where
  | single (t : Term)
  | and (c : Conjunction) (t : Term)

/-- Conjunctions with OR between them. -/
inductive Alternatives where
  | single (c : Conjunction)
  | or (text : Alternatives) (c : Conjunction)
end

mutual
def Term.fragment (s : Scope) : Term → Fragment
  | .test t => t.fragment s
  | .group text => Fragment.enclosed "(" (text.fragment s) ")"

def Conjunction.fragment (s : Scope) : Conjunction → Fragment
  | .single t => t.fragment s
  | .and c t => c.fragment s ++ .text " AND " :: t.fragment s

def Alternatives.fragment (s : Scope) : Alternatives → Fragment
  | .single c => c.fragment s
  | .or text c => text.fragment s ++ .text " OR " :: c.fragment s
end

mutual
def Term.holds (F : Facts) : Term → Bool
  | .test t => t.holds F
  | .group text => text.holds F

def Conjunction.holds (F : Facts) : Conjunction → Bool
  | .single t => t.holds F
  | .and c t => c.holds F && t.holds F

def Alternatives.holds (F : Facts) : Alternatives → Bool
  | .single c => c.holds F
  | .or text c => text.holds F || c.holds F
end

/-! ## What a fragment means -/

/-- The fragment is the text of a term that holds where `m` says so. -/
def IsTerm (s : Scope) (f : Fragment) (m : Facts → Bool) : Prop :=
  ∃ t : Term, t.fragment s = f ∧ ∀ F, t.holds F = m F

def IsConjunction (s : Scope) (f : Fragment) (m : Facts → Bool) : Prop :=
  ∃ c : Conjunction, c.fragment s = f ∧ ∀ F, c.holds F = m F

def IsAlternatives (s : Scope) (f : Fragment) (m : Facts → Bool) : Prop :=
  ∃ text : Alternatives, text.fragment s = f ∧ ∀ F, text.holds F = m F

section Means

variable {s : Scope} {f g : Fragment} {m n : Facts → Bool}

theorem isTerm_test (t : Test) : IsTerm s (t.fragment s) t.holds := ⟨.test t, rfl, fun _ => rfl⟩

theorem IsTerm.isConjunction (h : IsTerm s f m) : IsConjunction s f m := by
  obtain ⟨t, hfragment, hholds⟩ := h
  exact ⟨.single t, hfragment, hholds⟩

theorem IsConjunction.isAlternatives (h : IsConjunction s f m) : IsAlternatives s f m := by
  obtain ⟨c, hfragment, hholds⟩ := h
  exact ⟨.single c, hfragment, hholds⟩

theorem IsAlternatives.isTerm (h : IsAlternatives s f m) :
    IsTerm s (Fragment.enclosed "(" f ")") m := by
  obtain ⟨text, rfl, hholds⟩ := h
  exact ⟨.group text, rfl, hholds⟩

theorem IsConjunction.and (h : IsConjunction s f m) (h' : IsTerm s g n) :
    IsConjunction s (f ++ .text " AND " :: g) (fun F => m F && n F) := by
  obtain ⟨c, rfl, hc⟩ := h
  obtain ⟨t, rfl, ht⟩ := h'
  exact ⟨.and c t, rfl, fun F => congrArg₂ (· && ·) (hc F) (ht F)⟩

theorem IsAlternatives.or (h : IsAlternatives s f m) (h' : IsConjunction s g n) :
    IsAlternatives s (f ++ .text " OR " :: g) (fun F => m F || n F) := by
  obtain ⟨text, rfl, htext⟩ := h
  obtain ⟨c, rfl, hc⟩ := h'
  exact ⟨.or text c, rfl, fun F => congrArg₂ (· || ·) (htext F) (hc F)⟩

/-! ## Lists -/

variable {ι : Type} {fragment : ι → Fragment} {meaning : Facts → ι → Bool}

theorem IsConjunction.joined (h : IsConjunction s f m) {is : List ι}
    (his : ∀ i ∈ is, IsTerm s (fragment i) (meaning · i)) :
    IsConjunction s (Fragment.joined " AND " (f :: is.map fragment))
      (fun F => m F && is.all (meaning F)) := by
  induction is generalizing f m with
  | nil =>
    simp only [List.all_nil, Bool.and_true]
    exact h
  | cons i is ih =>
    obtain ⟨hi, his⟩ := List.forall_mem_cons.mp his
    -- The first term counts as standing before the rest.
    have hrest := ih (h.and hi) his
    rw [Fragment.joined_cons] at hrest ⊢
    rw [List.append_assoc] at hrest
    simp only [List.all_cons, ← Bool.and_assoc]
    exact hrest

theorem IsAlternatives.joined (h : IsAlternatives s f m) {is : List ι}
    (his : ∀ i ∈ is, IsConjunction s (fragment i) (meaning · i)) :
    IsAlternatives s (Fragment.joined " OR " (f :: is.map fragment))
      (fun F => m F || is.any (meaning F)) := by
  induction is generalizing f m with
  | nil =>
    simp only [List.any_nil, Bool.or_false]
    exact h
  | cons i is ih =>
    obtain ⟨hi, his⟩ := List.forall_mem_cons.mp his
    have hrest := ih (h.or hi) his
    rw [Fragment.joined_cons] at hrest ⊢
    rw [List.append_assoc] at hrest
    simp only [List.any_cons, ← Bool.or_assoc]
    exact hrest

/-- Terms with AND between them hold where all of them do. -/
theorem isConjunction_joined (meaning : Facts → ι → Bool) {is : List ι} (hne : is ≠ [])
    (h : ∀ i ∈ is, IsTerm s (fragment i) (meaning · i)) :
    IsConjunction s (Fragment.joined " AND " (is.map fragment)) (fun F => is.all (meaning F)) := by
  cases is with
  | nil => exact absurd rfl hne
  | cons i is =>
    obtain ⟨hi, his⟩ := List.forall_mem_cons.mp h
    exact hi.isConjunction.joined his

/-- Conjunctions with OR between them hold where one of them does. -/
theorem isAlternatives_joined (meaning : Facts → ι → Bool) {is : List ι} (hne : is ≠ [])
    (h : ∀ i ∈ is, IsConjunction s (fragment i) (meaning · i)) :
    IsAlternatives s (Fragment.joined " OR " (is.map fragment))
      (fun F => is.any (meaning F)) := by
  cases is with
  | nil => exact absurd rfl hne
  | cons i is =>
    obtain ⟨hi, his⟩ := List.forall_mem_cons.mp h
    exact hi.isAlternatives.joined his

end Means

/-! ## Tests as expressions -/

namespace Test

/-- The expression that asks for a test. -/
def expression : Test → Expression
  | .value column v => .compare .eq column (.value v)
  | .columns column other => .compare .eq column (.column other)
  | .among column vs => .member column (vs.map .value)

/-- A test that is one comparison. Null is compared with nothing: columns are tested for being null
instead. -/
def Plain : Test → Prop
  | .value _ v => v.isNull = false
  | .columns .. => True
  | .among .. => False

theorem fragment_expression (s : Scope) {t : Test} (h : t.Plain) :
    t.expression.fragment s = t.fragment s := by
  cases t with
  | value column v =>
    have hnull : v.isNull = false := h
    show column.fragment s ++ comparisonFragment .eq false v.isNull _ = _
    rw [hnull]
    rfl
  | columns column other => rfl
  | among column vs => exact h.elim

/-- The test that a column has one of several values: for one value, that it has this value. -/
def ofMember (column : Column) : List Value → Test
  | [v] => .value column v
  | vs => .among column vs

theorem holds_ofMember (F : Facts) (column : Column) (vs : List Value) :
    (ofMember column vs).holds F = vs.any (F.hasValue column) := by
  match vs with
  | [] => rfl
  | [v] => exact (Bool.or_false _).symm
  | _ :: _ :: _ => rfl

theorem fragment_member (s : Scope) (column : Column) (vs : List Value) :
    (Expression.member column (vs.map .value)).fragment s = (ofMember column vs).fragment s := by
  match vs with
  | [] => rfl
  | [v] => rfl
  | v :: w :: vs => exact Expression.memberFragment_scalars s column false v (w :: vs)

/-- Tests stand beside others as they are. -/
theorem bare (t : Test) : t.expression.Bare := by
  cases t <;> exact ⟨rfl, rfl, fun _ => rfl⟩

end Test

end RowText

open RowText

/-! ## Conditions of a WHERE clause -/

namespace Expression

theorem allEmpty_append (es fs : List Expression) :
    allEmpty (es ++ fs) = (allEmpty es && allEmpty fs) := by
  induction es with
  | nil => rfl
  | cons e es ih => rw [List.cons_append, allEmpty, allEmpty, ih, Bool.and_assoc]

section Groups

variable {s : Scope} {ι : Type} {is : List ι} {e : ι → Expression}
  (meaning : Facts → ι → Bool)

theorem isTerm_and (hmany : 1 < is.length) (hbare : ∀ i ∈ is, (e i).Bare)
    (h : ∀ i ∈ is, IsTerm s ((e i).fragment s) (meaning · i)) :
    IsTerm s ((Expression.and (is.map e)).fragment s) (fun F => is.all (meaning F)) := by
  have hne : is ≠ [] := List.ne_nil_of_length_pos (by omega)
  show IsTerm s (Child.grouped " AND " (children s (is.map e))) _
  rw [grouped_children (List.forall_mem_map.mpr hbare), List.length_map, decide_eq_true hmany,
    List.map_map]
  exact (isConjunction_joined meaning hne h).isAlternatives.isTerm

theorem isTerm_or (hmany : 1 < is.length) (hbare : ∀ i ∈ is, (e i).Bare)
    (h : ∀ i ∈ is, IsTerm s ((e i).fragment s) (meaning · i)) :
    IsTerm s ((Expression.or (is.map e)).fragment s) (fun F => is.any (meaning F)) := by
  have hne : is ≠ [] := List.ne_nil_of_length_pos (by omega)
  show IsTerm s (Child.grouped " OR " (children s (is.map e))) _
  rw [grouped_children (List.forall_mem_map.mpr hbare), List.length_map, decide_eq_true hmany,
    List.map_map]
  exact (isAlternatives_joined meaning hne fun i hi => (h i hi).isConjunction).isTerm

/-- Several alternatives stand beside other conditions as they are. -/
theorem bare_or (hmany : 1 < is.length) (hbare : ∀ i ∈ is, (e i).Bare) :
    (Expression.or (is.map e)).Bare := by
  have hempty : (Expression.or (is.map e)).isEmpty = false :=
    allEmpty_eq_false (by cases is <;> simp at hmany ⊢) (List.forall_mem_map.mpr fun i hi =>
      (hbare i hi).isEmpty)
  match is, hmany with
  | i :: j :: is, _ =>
    refine ⟨hempty, rfl, fun forms => ?_⟩
    rw [List.map_cons]
    cases e i <;> rfl

end Groups

end Expression

namespace Where

variable {s : Scope} {es : List Expression}

/-- Only a conjunction that stands alone is taken apart. -/
theorem flattened_eq_self (h : ∀ children, es ≠ [.and children]) :
    (Where.mk es).flattened = es := by
  unfold flattened
  split
  · next children heq => exact absurd heq (h children)
  · rfl

/-- The text of conditions that stand beside others as they are. -/
theorem fragment_of_bare (h : ∀ children, es ≠ [.and children]) (hbare : ∀ e ∈ es, e.Bare) :
    (Where.mk es).fragment s = Fragment.joined " AND " (es.map (Expression.fragment s)) := by
  rw [fragment, flattened_eq_self h, Expression.reordered_eq_self hbare,
    Expression.connected_children hbare]

theorem continued_append (connective : String) (cs ds : List Child) :
    Child.continued connective (cs ++ ds)
      = Child.continued connective cs ++ Child.continued connective ds := by
  induction cs with
  | nil => rfl
  | cons c cs ih =>
    rw [List.cons_append, Child.continued, Child.continued, ih]
    simp only [List.cons_append, List.append_assoc]

theorem isEmpty_loneOr {d : Expression} (hd : d.Bare) : (Expression.or [d]).isEmpty = false := by
  rw [Expression.isEmpty, Expression.allEmpty, hd.isEmpty, Bool.false_and]

/-- An alternative of one condition that stands alone is that condition. -/
theorem fragment_loneOr {d : Expression} (hd : d.Bare) :
    (Where.mk [.or [d]]).fragment s = d.fragment s := by
  have hpresent : Child.present (Expression.children s [.or [d]])
      = Expression.children s [.or [d]] :=
    Expression.present_children fun c hc => List.mem_singleton.mp hc ▸ isEmpty_loneOr hd
  show Child.connected " AND " (Expression.children s [.or [d]]) = _
  rw [Child.connected, hpresent]
  show Child.grouped " OR " (Expression.children s [d]) = _
  rw [Expression.grouped_children (List.forall_mem_singleton.mpr hd)]
  rfl

/-- Beside others it is joined by OR, whatever the connective is. -/
theorem continued_loneOr (connective : String) {d : Expression} (hd : d.Bare)
    (hraw : ∀ sql args spread, d ≠ .raw sql args spread) :
    Child.continued connective (Expression.children s [.or [d]])
      = .text " OR " :: d.fragment s := by
  have hgrouped : ((Expression.or [d]).forms s).positive = d.fragment s := by
    show Child.grouped " OR " (Expression.children s [d]) = _
    rw [Expression.grouped_children (List.forall_mem_singleton.mpr hd)]
    rfl
  have hparens : (Child.mk (.or [d]) ((Expression.or [d]).forms s)).needsParens = false := by
    cases d with
    | raw sql args spread => exact absurd rfl (hraw sql args spread)
    | _ => rfl
  rw [Expression.children, Child.continued, hparens, hgrouped]
  exact congrArg (Piece.text " OR " :: ·) (List.append_nil _)

/-- The first condition stands as it is, and the others follow with their connectives. -/
theorem connected_cons (connective : String) {e : Expression} (he : e.Bare)
    (hes : ∀ d ∈ es, d.isEmpty = false) :
    Child.connected connective (Expression.children s (e :: es))
      = e.fragment s ++ Child.continued connective (Expression.children s es) := by
  have hpresent : Child.present (Expression.children s (e :: es))
      = Expression.children s (e :: es) :=
    Expression.present_children (List.forall_mem_cons.mpr ⟨he.isEmpty, hes⟩)
  rw [Child.connected, hpresent]
  cases es with
  | nil => exact (List.append_nil _).symm
  | cons d es =>
    show Fragment.parenthesized _ _ ++ _ = _
    rw [he.needsParens]
    rfl

/-- So in a WHERE clause it is an alternative to all that stands before it. -/
theorem fragment_append_loneOr (hne : es ≠ []) (hbare : ∀ e ∈ es, e.Bare) {d : Expression}
    (hd : d.Bare) (hraw : ∀ sql args spread, d ≠ .raw sql args spread) :
    (Where.mk (es ++ [.or [d]])).fragment s
      = Fragment.joined " AND " (es.map (Expression.fragment s))
        ++ .text " OR " :: d.fragment s := by
  cases es with
  | nil => exact absurd rfl hne
  | cons e es =>
    obtain ⟨he, hes⟩ := List.forall_mem_cons.mp hbare
    have hflattened : (Where.mk (e :: es ++ [.or [d]])).flattened = e :: es ++ [.or [d]] :=
      flattened_eq_self fun children => by simp
    have hreordered : reordered (e :: es ++ [.or [d]]) = e :: es ++ [.or [d]] := by
      rw [List.cons_append, reordered, he.isLoneOr]
      rfl
    have hrest : ∀ c ∈ es ++ [.or [d]], c.isEmpty = false := fun c hc => by
      rcases List.mem_append.mp hc with hc | hc
      · exact (hes c hc).isEmpty
      · exact List.mem_singleton.mp hc ▸ isEmpty_loneOr hd
    have hchildren : Expression.children s (es ++ [.or [d]])
        = Expression.children s es ++ Expression.children s [.or [d]] := by
      simp only [Expression.children_eq_map, List.map_append]
    rw [fragment, hflattened, hreordered, List.cons_append, connected_cons " AND " he hrest,
      hchildren, continued_append, ← List.append_assoc, Expression.continued_children he hes,
      continued_loneOr " AND " hd hraw]

/-- An alternative of no condition is left out. -/
theorem fragment_append_emptyOr (hbare : ∀ e ∈ es, e.Bare) :
    (Where.mk (es ++ [.or []])).fragment s
      = Fragment.joined " AND " (es.map (Expression.fragment s)) := by
  have hflattened : (Where.mk (es ++ [.or []])).flattened = es ++ [.or []] :=
    flattened_eq_self fun children heq => by
      have hlast := congrArg List.getLast? heq
      simp at hlast
  have hreordered : reordered (es ++ [.or []]) = es ++ [.or []] := by
    cases es with
    | nil => rfl
    | cons e es =>
      rw [List.cons_append, reordered, (hbare e (List.mem_cons_self ..)).isLoneOr]
      rfl
  have hpresent : Child.present (Expression.children s (es ++ [.or []]))
      = Child.present (Expression.children s es) := by
    simp only [Expression.children_eq_map, List.map_append, Child.present, List.filter_append]
    exact List.append_nil _
  rw [← Expression.connected_children hbare, fragment, hflattened, hreordered, Child.connected,
    Child.connected, hpresent]

end Where

end RecordSql
