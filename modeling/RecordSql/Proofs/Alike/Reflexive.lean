/-
  RecordSql.Proofs.Alike.Reflexive

  Everything is alike to itself if every scalar is related to itself.  So
  what holds of alike fragments of two runs can be read off one run: what is
  written without writers of its own records no errors but those of names
  that cannot be resolved (`Clause.isUnresolved_of_mem_faults`).
-/

import RecordSql.Proofs.Alike.Body

namespace RecordSql

variable {R : Value → Value → Prop}

/-! ## Expressions -/

mutual
theorem Arg.alike_refl (hR : ∀ v, R v v) : (a : Arg) → Arg.Alike R a a
  | .value v => .value (hR v)
  | .list items => .list (Arg.alike_refl_list hR items)
  | .column c => .column c
  | .table t => .table t
  | .expr e => .expr (Expression.alike_refl hR e)
  | .named name a => .named name (Arg.alike_refl hR a)
  | .map entries => .map (Arg.alike_refl_entries hR entries)

theorem Arg.alike_refl_list (hR : ∀ v, R v v) :
    (as : List Arg) → List.Forall₂ (Arg.Alike R) as as
  | [] => .nil
  | a :: as => .cons (Arg.alike_refl hR a) (Arg.alike_refl_list hR as)

theorem Arg.alike_refl_entries (hR : ∀ v, R v v) :
    (entries : List (String × Arg)) → List.Forall₂ (Arg.AlikeEntry R) entries entries
  | [] => .nil
  | (name, a) :: rest => .cons (.mk name (Arg.alike_refl hR a)) (Arg.alike_refl_entries hR rest)

theorem Branch.alike_refl_list (hR : ∀ v, R v v) :
    (bs : List Branch) → List.Forall₂ (Branch.Alike R) bs bs
  | [] => .nil
  | .mk condition result args :: rest =>
    .cons (.mk condition result (Arg.alike_refl_list hR args)) (Branch.alike_refl_list hR rest)

theorem Expression.alike_refl (hR : ∀ v, R v v) : (e : Expression) → Expression.Alike R e e
  | .compare op c a => .compare op c (Arg.alike_refl hR a)
  | .member c args => .member c (Arg.alike_refl_list hR args)
  | .raw sql args spread => .raw sql spread (Arg.alike_refl_list hR args)
  | .named sql args => .named sql (Arg.alike_refl_list hR args)
  | .and children => .and (Expression.alike_refl_list hR children)
  | .or children => .or (Expression.alike_refl_list hR children)
  | .not children => .not (Expression.alike_refl_list hR children)
  | .case branches none => .case (Branch.alike_refl_list hR branches)
  | .case branches (some (result, args)) =>
    .caseElse result (Branch.alike_refl_list hR branches) (Arg.alike_refl_list hR args)
  | .comma children => .comma (Expression.alike_refl_list hR children)

theorem Expression.alike_refl_list (hR : ∀ v, R v v) :
    (es : List Expression) → List.Forall₂ (Expression.Alike R) es es
  | [] => .nil
  | e :: es => .cons (Expression.alike_refl hR e) (Expression.alike_refl_list hR es)
end

/-! ## Clauses -/

theorem option_alike_refl {α : Type} {r : α → α → Prop} (h : ∀ a, r a a) (o : Option α) :
    Option.Rel r o o := by
  cases o with
  | none => exact .none
  | some a => exact .some (h a)

section Clauses

variable (hR : ∀ v, R v v)
include hR

theorem Where.alike_refl (w : Where) : Where.Alike R w w :=
  .mk (Expression.alike_refl_list hR w.conditions)

theorem Join.alike_refl (j : Join) : Join.Alike R j j :=
  .mk _ _ _ (Where.alike_refl hR j.on) (option_alike_refl (Expression.alike_refl hR) j.expression)

theorem Cte.alike_refl (c : Cte) : Cte.Alike R c c := .mk _ _ (Expression.alike_refl hR c.body)

theorem Assignment.alike_refl (a : Assignment) : Assignment.Alike R a a :=
  .mk _ (Arg.alike_refl hR a.value)

theorem Assignments.alike_refl (as : Assignments) : Assignments.Alike R as as :=
  .mk (List.forall₂_same.mpr fun a _ => Assignment.alike_refl hR a)

theorem Clause.Body.alike_refl (b : Clause.Body) : Clause.Body.Alike R b b := by
  have hoption := option_alike_refl (Expression.alike_refl (R := R) hR)
  cases b with
  | select b => exact .select (.mk _ _ _ (hoption b.expression))
  | fromTables b =>
    exact .fromTables (.mk _ _ (List.forall₂_same.mpr fun j _ => Join.alike_refl hR j))
  | conditions b => exact .conditions (Where.alike_refl hR b)
  | groupBy b => exact .groupBy (.mk _ (Expression.alike_refl_list hR b.having))
  | orderBy b => exact .orderBy (.mk _ (hoption b.expression))
  | limit b => exact .limit b
  | insert b => exact .insert b
  | values b =>
    exact .values (.mk _ (List.forall₂_same.mpr fun row _ => Arg.alike_refl_list hR row))
  | update b => exact .update b
  | set b => exact .set (Assignments.alike_refl hR b)
  | delete b => exact .delete b
  | returning b => exact .returning b
  | onConflict b =>
    exact .onConflict (.mk _ _ _ _ (Where.alike_refl hR b.condition)
      (Where.alike_refl hR b.targetCondition) (Assignments.alike_refl hR b.updates))
  | locking b => exact .locking b
  | queries b =>
    exact .queries (.mk _ (List.forall₂_same.mpr fun c _ => Cte.alike_refl hR c)
      (hoption b.expression))
  | asOfSystemTime b => exact .asOfSystemTime b
  | custom name e => exact .custom name (Expression.alike_refl hR e)

theorem Clause.alike_refl {c : Clause} (hc : c.writer = none) : Clause.Alike R c c := by
  have hoption := option_alike_refl (Expression.alike_refl (R := R) hR)
  refine ⟨⟨rfl, hoption _, hoption _, hoption _, ?_⟩, hc, hc⟩
  exact option_alike_refl (Clause.Body.alike_refl hR) c.body

end Clauses

/-! ## Errors -/

theorem keepsNull_eq : KeepsNull Eq := fun _ _ h => congrArg Value.isNull h

/-- An expression records no errors but those of names that cannot be resolved. -/
theorem Expression.isUnresolved_of_mem_faults {s : Scope} {e : Expression} {x : Error}
    (hx : x ∈ (e.fragment s).faults) : x.isUnresolved = true := by
  have he : Expression.Alike Eq e e := e.alike_refl fun _ => rfl
  exact (he.fragment s keepsNull_eq).isUnresolved_of_mem_faults x hx

/-- Neither does a clause without a writer of its own. -/
theorem Clause.isUnresolved_of_mem_faults {s : Scope} {c : Clause} (hc : c.writer = none)
    {x : Error} (hx : x ∈ (c.fragment s).faults) : x.isUnresolved = true := by
  have halike : Clause.Alike Eq c c := Clause.alike_refl (fun _ => rfl) hc
  exact (halike.fragment s keepsNull_eq).isUnresolved_of_mem_faults x hx

end RecordSql
