/-
  RecordSql.Proofs.TwoRuns

  Values never reach the text.  Two statements that differ in scalars only
  are taken through the same calls, with clauses that differ in scalars only;
  then both have the same text and the same errors, and the values that they
  bound correspond one to one.

  `Statement.Alike` is the invariant.  Every call keeps it
  (`Statement.Alike.call`), so every run does (`Statement.Alike.run`).
-/

import RecordSql.Proofs.Alike.Body
import RecordSql.Proofs.Dialects
import RecordSql.Proofs.Runs

namespace RecordSql

variable {R : Value → Value → Prop}

/-! ## The invariant -/

/-- What two runs have written. -/
structure Output.Alike (R : Value → Value → Prop) (o q : Output) : Prop where
  sql : o.sql = q.sql
  values : List.Forall₂ (Value.Alike R) o.values q.values
  errors : o.errors = q.errors
  endless : o.endless = q.endless

/-- Clauses of two runs under the same name. -/
def AlikeEntry (R : Value → Value → Prop) (p q : String × Clause) : Prop :=
  p.1 = q.1 ∧ Clause.Alike R p.2 q.2

/-- Statements of two runs: the same but for the scalars in their table expressions and clauses, and
for the values that they have bound. -/
structure Statement.Alike (R : Value → Value → Prop) (st st' : Statement) : Prop where
  dialect : st.dialect = st'.dialect
  schema : st.schema = st'.schema
  table : st.table = st'.table
  tableExpr : Option.Rel (Expression.Alike R) st.tableExpr st'.tableExpr
  clauses : List.Forall₂ (AlikeEntry R) st.clauses st'.clauses
  allowGlobalUpdate : st.allowGlobalUpdate = st'.allowGlobalUpdate
  output : Output.Alike R st.output st'.output

/-- Calls of two runs: the same builds, and clauses that are alike. -/
inductive Call.Alike (R : Value → Value → Prop) : Call → Call → Prop where
  | add {a b : Clause.Body} : Clause.Body.Alike R a b → Call.Alike R (.add a) (.add b)
  | build (names : List String) : Call.Alike R (.build names) (.build names)

/-! ## Writing -/

theorem Output.Alike.push {d : Dialect} (hd : d.Blind) {o q : Output} (h : Output.Alike R o q) {a b : Piece}
    (hab : Piece.Alike R a b) : Output.Alike R (o.push d a) (q.push d b) := by
  have hlength : o.values.length = q.values.length := h.values.length_eq
  cases hab with
  | text s =>
    refine { h with sql := ?_ }
    show o.sql ++ s = q.sql ++ s
    rw [h.sql]
  | @bound v w hv =>
    refine { h with sql := ?_, values := List.rel_append h.values (.cons hv .nil) }
    -- The placeholder tells how many values were bound, and not which.
    show o.sql ++ d.placeholder _ v = q.sql ++ d.placeholder _ w
    rw [h.sql, hlength, hd.placeholder_eq _ v w]
  | @fault e _ =>
    refine { h with errors := ?_ }
    show o.errors ++ [e] = q.errors ++ [e]
    rw [h.errors]
  | currentTable => exact { h with endless := rfl }

theorem Output.Alike.append {d : Dialect} (hd : d.Blind) {o q : Output} (h : Output.Alike R o q)
    {f g : Fragment} (hfg : Fragment.Alike R f g) :
    Output.Alike R (o.append d f) (q.append d g) :=
  List.rel_foldl (fun _ _ ho _ _ hp => ho.push hd hp) h hfg

namespace Statement.Alike

variable {st st' : Statement}

theorem scope (h : Statement.Alike R st st') : st.scope = st'.scope := by
  rw [Statement.scope, Statement.scope, h.dialect, h.schema]

theorem tableFragment (h : Statement.Alike R st st') (hnull : KeepsNull R) :
    Fragment.Alike R st.tableFragment st'.tableFragment := by
  have he := h.tableExpr
  rw [Statement.tableFragment, Statement.tableFragment, h.scope, h.table]
  generalize st.tableExpr = e, st'.tableExpr = f at he
  cases he with
  | some hef => exact hef.fragment _ hnull
  | none =>
    show Fragment.Alike R (if st'.table.isEmpty then _ else _) (if st'.table.isEmpty then _ else _)
    split
    · exact .fault rfl
    · exact .text _ .nil

theorem write (h : Statement.Alike R st st') (hnull : KeepsNull R) (hd : st.dialect.Blind)
    {f g : Fragment} (hfg : Fragment.Alike R f g) : Statement.Alike R (st.write f) (st'.write g) := by
  have hresolved : Fragment.Alike R (st.resolved f) (st'.resolved g) :=
    hfg.withTable (h.tableFragment hnull)
  refine { h with output := ?_ }
  show Output.Alike R (st.output.append st.dialect _) (st'.output.append st'.dialect _)
  rw [← h.dialect]
  exact h.output.append hd hresolved

/-! ## Clauses -/

theorem clause? (h : Statement.Alike R st st') (name : String) :
    Option.Rel (Clause.Alike R) (st.clause? name) (st'.clause? name) :=
  lookup_forall₂ h.clauses name

theorem setClause (name : String) {c d : Clause} (hcd : Clause.Alike R c d)
    {ps qs : List (String × Clause)} (h : List.Forall₂ (AlikeEntry R) ps qs) :
    List.Forall₂ (AlikeEntry R) (Statement.setClause name c ps)
      (Statement.setClause name d qs) := by
  induction h with
  | nil => exact .cons ⟨rfl, hcd⟩ .nil
  | @cons p q _ _ hpq hrest ih =>
    obtain ⟨key, old⟩ := p
    obtain ⟨key', old'⟩ := q
    obtain ⟨hkey, hold⟩ := hpq
    have hkey : key = key' := hkey
    rw [← hkey, Statement.setClause, Statement.setClause]
    split
    · exact .cons ⟨rfl, hcd⟩ hrest
    · exact .cons ⟨rfl, hold⟩ ih

theorem addClause (h : Statement.Alike R st st') {a b : Clause.Body}
    (hab : Clause.Body.Alike R a b) : Statement.Alike R (st.addClause a) (st'.addClause b) := by
  have hold : Clause.Alike R ((st.clause? a.name).getD {}) ((st'.clause? b.name).getD {}) := by
    have hlookup := h.clause? a.name
    rw [← hab.name]
    generalize st.clause? a.name = c, st'.clause? a.name = d at hlookup
    cases hlookup with
    -- A name that is not there yet starts from the empty clause in both runs.
    | none => exact .empty
    | some hcd => exact hcd
  refine { h with clauses := ?_ }
  show List.Forall₂ (AlikeEntry R) (Statement.setClause a.name _ st.clauses)
    (Statement.setClause b.name _ st'.clauses)
  rw [← hab.name] at hold ⊢
  exact setClause a.name (hold.add hab) h.clauses

theorem writes (h : Statement.Alike R st st') (name : String) :
    st.writes name = st'.writes name := by
  have hlookup := h.clause? name
  rw [Statement.writes, Statement.writes]
  generalize st.clause? name = c, st'.clause? name = d at hlookup
  cases hlookup with
  | none => rfl
  | some hcd =>
    rw [Option.any_some, Option.any_some, hcd.isEmpty]

/-! ## Builds -/

theorem clauseText (h : Statement.Alike R st st') (hnull : KeepsNull R)
    (hd : st.dialect.Blind) (name : String) :
    Fragment.Alike R (st.clauseText name) (st'.clauseText name) := by
  have hlookup := h.clause? name
  have hplain := hd.clauseWriter_eq name
  rw [Statement.clauseText, Statement.clauseText, h.output.sql]
  generalize st.clause? name = c, st'.clause? name = d at hlookup
  cases hlookup with
  | none => exact .nil
  | @some c d hcd =>
    show Fragment.Alike R (if c.isEmpty then _ else _) (if d.isEmpty then _ else _)
    rw [hcd.isEmpty]
    split
    · exact .nil
    · -- The gap depends on whether there is text yet, and that is the same.
      refine Fragment.Alike.append ?_ ?_
      · split
        · exact .nil
        · exact .text _ .nil
      · rw [Statement.clauseFragment, Statement.clauseFragment, ← h.dialect, hplain, h.scope]
        exact hcd.fragment _ hnull

theorem checkGlobalUpdate (h : Statement.Alike R st st') (names : List String) :
    Statement.Alike R (st.checkGlobalUpdate names) (st'.checkGlobalUpdate names) := by
  have hcondition : st.hasCondition = st'.hasCondition := h.writes "WHERE"
  rw [Statement.checkGlobalUpdate, Statement.checkGlobalUpdate, h.allowGlobalUpdate, hcondition]
  split
  · exact h
  · split
    · next name _ =>
      refine { h with output := { h.output with errors := ?_ } }
      rw [addError_eq, addError_eq]
      show st.output.errors ++ [_] = st'.output.errors ++ [_]
      rw [h.output.errors]
    · exact h

theorem writeClauses (h : Statement.Alike R st st') (hnull : KeepsNull R)
    (hd : st.dialect.Blind) (names : List String) :
    Statement.Alike R (names.foldl writeClause st) (names.foldl writeClause st') := by
  induction names generalizing st st' with
  | nil => exact h
  | cons name names ih =>
    have hstep : Statement.Alike R (st.writeClause name) (st'.writeClause name) := by
      rw [writeClause_eq, writeClause_eq]
      exact h.write hnull hd (h.clauseText hnull hd name)
    have hdialect : (st.writeClause name).dialect = st.dialect := by
      rw [writeClause_eq]
      rfl
    -- The names that follow are written in the same dialect.
    apply ih hstep
    rw [hdialect]
    exact hd

theorem build (h : Statement.Alike R st st') (hnull : KeepsNull R)
    (hd : st.dialect.Blind) (names : List String) :
    Statement.Alike R (st.build names) (st'.build names) := by
  apply (h.checkGlobalUpdate names).writeClauses hnull
  rw [(sameButOutput_checkGlobalUpdate st names).dialect]
  exact hd

/-! ## Runs -/

/-- What a call does to two statements that are alike. -/
theorem call (h : Statement.Alike R st st') (hnull : KeepsNull R)
    (hd : st.dialect.Blind) {c d : Call} (hcd : Call.Alike R c d) :
    Statement.Alike R (st.call c) (st'.call d) := by
  cases hcd with
  | add hab => exact h.addClause hab
  | build names => exact h.build hnull hd names

end Statement.Alike

theorem Statement.call_dialect (st : Statement) (c : Call) : (st.call c).dialect = st.dialect := by
  cases c with
  | add body => rfl
  | build names => exact (sameButOutput_build st names).dialect

namespace Statement.Alike

variable {st st' : Statement}

theorem run (h : Statement.Alike R st st') (hnull : KeepsNull R)
    (hd : st.dialect.Blind) {calls calls' : List Call}
    (hcalls : List.Forall₂ (Call.Alike R) calls calls') :
    Statement.Alike R (st.run calls) (st'.run calls') := by
  induction hcalls generalizing st st' with
  | nil => exact h
  | @cons c d _ _ hcd _ ih =>
    apply ih (h.call hnull hd hcd)
    rw [st.call_dialect c]
    exact hd

end Statement.Alike

/-- Scalars may be exchanged for any others that are null where they are: text and errors stay as
they are, and each value that is bound is exchanged in its place. -/
theorem Statement.run_text_independent_of_values (hnull : KeepsNull R) {st st' : Statement}
    (hd : st.dialect ∈ Dialect.builtIn) (h : Statement.Alike R st st') {calls calls' : List Call}
    (hcalls : List.Forall₂ (Call.Alike R) calls calls') :
    (st.run calls).output.sql = (st'.run calls').output.sql
      ∧ (st.run calls).output.errors = (st'.run calls').output.errors
      ∧ List.Forall₂ (Value.Alike R) (st.run calls).output.values
          (st'.run calls').output.values := by
  have hrun := h.run hnull (Dialect.blind_of_builtIn hd) hcalls
  exact ⟨hrun.output.sql, hrun.output.errors, hrun.output.values⟩

/-- Two scalars are null together. -/
def SameNull (v w : Value) : Prop := v.isNull = w.isNull

/-- Renames users that are picked by number, except those without an owner. -/
def renameUsers (name : Value) (ids : List Value) : List Call :=
  [ .add (.update {})
  , .add (.set ⟨[⟨.named "name", .value name⟩]⟩)
  , .add (.conditions
      ⟨[ .sql "id IN ?" [.list (ids.map .value)]
       , .not [.compare .eq (.named "owner") (.value .null)] ]⟩)
  , .build ["UPDATE", "SET", "WHERE"] ]

/-- Users in PostgreSQL, with nothing written yet. -/
def postgresUsers : Statement := { dialect := .postgres, table := "users" }

/-- A name that looks like SQL is bound in the place of another, and one array of numbers in the
place of the other. -/
theorem Statement.run_text_independent_of_values_renaming :
    let ann := postgresUsers.run (renameUsers (.text "ann") [.int 1, .int 2])
    let bob := postgresUsers.run
      (renameUsers (.text "'; DROP TABLE users; --") [.uint 3, .bool false])
    ann.output.sql = "UPDATE \"users\" SET \"name\"=$1 WHERE id IN $2 AND \"owner\" IS NOT NULL"
      ∧ ann.output.sql = bob.output.sql ∧ ann.output.errors = bob.output.errors
      ∧ List.Forall₂ (Value.Alike SameNull) ann.output.values bob.output.values := by
  have hnull : KeepsNull SameNull := fun _ _ h => h
  have hd : postgresUsers.dialect ∈ Dialect.builtIn := by simp [postgresUsers, Dialect.builtIn]
  have hst : Statement.Alike SameNull postgresUsers postgresUsers :=
    ⟨rfl, rfl, rfl, .none, .nil, rfl, ⟨rfl, .nil, rfl, rfl⟩⟩
  have hids : List.Forall₂ (Arg.Alike SameNull) [.list ([.int 1, .int 2].map .value)]
      [.list ([.uint 3, .bool false].map .value)] :=
    .cons (.list (.cons (.value rfl) (.cons (.value rfl) .nil))) .nil
  have howner : Expression.Alike SameNull (.not [.compare .eq (.named "owner") (.value .null)])
      (.not [.compare .eq (.named "owner") (.value .null)]) :=
    .not (.cons (.compare .eq _ (.value rfl)) .nil)
  have hcalls : List.Forall₂ (Call.Alike SameNull) (renameUsers (.text "ann") [.int 1, .int 2])
      (renameUsers (.text "'; DROP TABLE users; --") [.uint 3, .bool false]) :=
    .cons (.add (.update _))
      (.cons (.add (.set (.mk (.cons (.mk _ (.value rfl)) .nil))))
        (.cons (.add (.conditions (.mk (.cons (.raw _ false hids) (.cons howner .nil)))))
          (.cons (.build _) .nil)))
  exact ⟨by decide, run_text_independent_of_values hnull hd hst hcalls⟩

end RecordSql
