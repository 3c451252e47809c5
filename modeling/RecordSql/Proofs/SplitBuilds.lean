/-
  RecordSql.Proofs.SplitBuilds

  Builds that are split.  A build writes its clauses one after the other, each
  behind what is there already, so writing some names and then others comes to
  the same as writing all of them at once.  What tells the two apart is the
  guard against updates and deletions of every row, which looks at all names
  once or at each half.  Outputs are therefore compared apart from its errors
  (`Output.apartFromGuard`), and the induction over the names carries that two
  statements whose outputs agree so far go on to agree.

  A clause may be out of the statement for the time in which it is written
  (`Statement.writeTaken`).  Then code writes to a statement that is never
  complete.  Since the clause is put back before the next one is taken, the
  same is written, and under every name stands what stood there before.
-/

import RecordSql.Proofs.Additions

namespace RecordSql

/-- Whether an error is that of a missing condition. -/
def Error.isMissingWhere : Error → Bool
  | .missingWhere _ => true
  | _ => false

/-! ## Outputs apart from the guard -/

namespace Output

/-- The output without errors of missing conditions. -/
def apartFromGuard (o : Output) : Output :=
  { o with errors := o.errors.filter (!·.isMissingWhere) }

/-- Such errors do not change what a piece adds. -/
theorem push_apartFromGuard (d : Dialect) (o : Output) (p : Piece) :
    (o.apartFromGuard.push d p).apartFromGuard = (o.push d p).apartFromGuard := by
  cases p <;> simp [apartFromGuard, push]

theorem append_apartFromGuard (d : Dialect) (o : Output) (f : Fragment) :
    (o.apartFromGuard.append d f).apartFromGuard = (o.append d f).apartFromGuard := by
  induction f generalizing o with
  | nil => simp [apartFromGuard]
  | cons p f ih =>
    -- The errors are dropped after the piece, where it makes no difference that they were before.
    rw [append_cons, append_cons, ← ih (o.apartFromGuard.push d p), push_apartFromGuard,
      ih (o.push d p)]

/-- Outputs that agree apart from the guard go on to agree. -/
theorem append_congr (d : Dialect) {o q : Output} (h : q.apartFromGuard = o.apartFromGuard)
    (f : Fragment) : (q.append d f).apartFromGuard = (o.append d f).apartFromGuard := by
  rw [← append_apartFromGuard d q, h, append_apartFromGuard]

end Output

namespace Statement

/-- Two statements differ in nothing but what the guard has recorded. -/
structure SameButGuard (st st' : Statement) : Prop where
  rest : SameButOutput st st'
  output : st'.output.apartFromGuard = st.output.apartFromGuard

namespace SameButGuard

variable {st st' st'' : Statement}

theorem refl (st : Statement) : SameButGuard st st := ⟨.refl st, rfl⟩

theorem trans (h : SameButGuard st st') (h' : SameButGuard st' st'') : SameButGuard st st'' :=
  ⟨h.rest.trans h'.rest, h'.output.trans h.output⟩

theorem symm (h : SameButGuard st st') : SameButGuard st' st where
  rest := by
    have hrest := h.rest
    rw [SameButOutput] at *
    rw [hrest]
  output := h.output.symm

theorem sql (h : SameButGuard st st') : st'.output.sql = st.output.sql := by
  have hsql := congrArg Output.sql h.output
  exact hsql

theorem write (h : SameButGuard st st') (f : Fragment) :
    SameButGuard (st.write f) (st'.write f) where
  rest := by
    rw [h.rest]
    rfl
  output := by
    have hsame : st'.write f
        = { st' with output := st'.output.append st.dialect (st.resolved f) } := by
      rw [h.rest]
      rfl
    rw [hsame]
    exact Output.append_congr st.dialect h.output (st.resolved f)

/-- The gap before a clause looks at the text alone. -/
theorem clauseText (h : SameButGuard st st') (name : String) :
    st'.clauseText name = st.clauseText name := by
  have hsql := h.sql
  rw [h.rest]
  unfold Statement.clauseText
  rw [hsql]
  rfl

theorem writeClauses (h : SameButGuard st st') (names : List String) :
    SameButGuard (names.foldl writeClause st) (names.foldl writeClause st') := by
  induction names generalizing st st' with
  | nil => exact h
  | cons name names ih =>
    apply ih
    rw [writeClause_eq, writeClause_eq, h.clauseText]
    exact h.write _

end SameButGuard

/-- The guard records an error of a missing condition, or nothing. -/
theorem sameButGuard_checkGlobalUpdate (st : Statement) (names : List String) :
    SameButGuard st (st.checkGlobalUpdate names) := by
  refine ⟨sameButOutput_checkGlobalUpdate st names, ?_⟩
  rw [checkGlobalUpdate]
  split
  · rfl
  · split
    · simp [addError_eq, Output.apartFromGuard, Error.isMissingWhere]
    · rfl

/-- A build of all names and two builds, of some and of the others, write the same clauses. -/
theorem sameButGuard_build_append (st : Statement) (ns ms : List String) :
    SameButGuard (st.build (ns ++ ms)) ((st.build ns).build ms) := by
  -- The guard has looked at other names before the first clause, and looks again between the halves.
  have hfirst : SameButGuard (st.checkGlobalUpdate (ns ++ ms)) (st.checkGlobalUpdate ns) :=
    (sameButGuard_checkGlobalUpdate st _).symm.trans (sameButGuard_checkGlobalUpdate st _)
  have hbetween : SameButGuard (ns.foldl writeClause (st.checkGlobalUpdate (ns ++ ms)))
      ((st.build ns).checkGlobalUpdate ms) :=
    (hfirst.writeClauses ns).trans (sameButGuard_checkGlobalUpdate _ ms)
  have hfold : st.build (ns ++ ms)
      = ms.foldl writeClause (ns.foldl writeClause (st.checkGlobalUpdate (ns ++ ms))) :=
    List.foldl_append
  rw [hfold]
  exact hbetween.writeClauses ms

/-! ## Clauses that are out while they are written -/

/-- Takes the clause with a name out. -/
def withoutClause (st : Statement) (name : String) : Statement :=
  { st with clauses := st.clauses.filter (·.1 != name) }

/-- Writes the clause with a name while it is out of the statement, and puts it back. -/
def writeTaken (st : Statement) (name : String) : Statement :=
  match st.clause? name with
  | none => st
  | some c =>
    let rest := st.withoutClause name
    let gap : Fragment := if rest.output.sql.isEmpty then [] else [.text " "]
    let written := if c.isEmpty then rest else rest.write (gap ++ rest.clauseFragment name c)
    written.withClause name c

/-- Writes the named clauses in order, each while it is out of the statement. -/
def buildTaken (st : Statement) (names : List String) : Statement :=
  names.foldl writeTaken (st.checkGlobalUpdate names)

/-- Only the clause with that name is missing. -/
theorem clause?_withoutClause (st : Statement) (name other : String) :
    (st.withoutClause name).clause? other = if other = name then none else st.clause? other := by
  have hlookup (clauses : List (String × Clause)) :
      (clauses.filter (·.1 != name)).lookup other
        = if other = name then none else clauses.lookup other := by
    induction clauses with
    | nil => simp
    | cons entry clauses ih =>
      obtain ⟨key, c⟩ := entry
      by_cases hkey : key = name <;> by_cases hother : other = key <;> grind
  exact hlookup st.clauses

theorem clause?_withClause (st : Statement) (name other : String) (c : Clause) :
    (st.withClause name c).clause? other = if other = name then some c else st.clause? other := by
  have hlookup : (st.withClause name c).clause? other
      = if other == name then some c else st.clause? other := lookup_setClause ..
  rw [hlookup]
  simp

/-- A clause that was taken out and is put back stands where it stood. -/
theorem sameClauses_putBack {st : Statement} {name : String} {c : Clause}
    (hc : st.clause? name = some c) :
    SameClauses st ((st.withoutClause name).withClause name c) where
  clauses other := by
    rw [clause?_withClause, clause?_withoutClause]
    by_cases hother : other = name
    · rw [if_pos hother, hother, hc]
    · rw [if_neg hother, if_neg hother]
  rest := rfl

/-- While a clause is out the same is written, and in the end it stands where it stood. -/
theorem sameClauses_writeTaken (st : Statement) (name : String) :
    SameClauses (st.writeClause name) (st.writeTaken name) := by
  rw [writeClause, writeTaken]
  cases hc : st.clause? name with
  | none => exact ⟨fun _ => rfl, rfl⟩
  | some c =>
    have hback := sameClauses_putBack hc
    show SameClauses (if c.isEmpty then st else _)
      ((if c.isEmpty then st.withoutClause name else _).withClause name c)
    split
    · exact hback
    · -- Nothing that is written looks at the clauses.
      exact hback.write _

theorem SameClauses.trans {st st' st'' : Statement} (h : SameClauses st st')
    (h' : SameClauses st' st'') : SameClauses st st'' :=
  ⟨fun name => (h'.clauses name).trans (h.clauses name), h.rest.trans h'.rest⟩

/-- A build may take each clause out while it writes it. -/
theorem sameClauses_buildTaken (st : Statement) (names : List String) :
    SameClauses (st.build names) (st.buildTaken names) := by
  -- The induction is over the names, from the statement that the guard has left.
  suffices h : ∀ st' : Statement, SameClauses (names.foldl writeClause st')
      (names.foldl writeTaken st') from h _
  induction names with
  | nil => exact fun st' => ⟨fun _ => rfl, rfl⟩
  | cons name names ih =>
    intro st'
    exact ((sameClauses_writeTaken st' name).writeClauses names).trans (ih _)

/-! ## Builds in one go and in two -/

/-- Names may be built at once, or some of them first and the others after that: text, values and all
errors but those of the guard are the same, and writing ends in the one case if it does in the other.
A build leaves every clause under its name as it is. All this is so as well if each clause is out of
the statement while it is written. -/
theorem split_builds_write_the_same (st : Statement) (ns ms : List String) :
    ((st.build ns).build ms).output.sql = (st.build (ns ++ ms)).output.sql
      ∧ ((st.build ns).build ms).output.values = (st.build (ns ++ ms)).output.values
      ∧ ((st.build ns).build ms).output.errors.filter (!·.isMissingWhere)
        = (st.build (ns ++ ms)).output.errors.filter (!·.isMissingWhere)
      ∧ ((st.build ns).build ms).output.endless = (st.build (ns ++ ms)).output.endless
      ∧ (∀ name, (st.build ns).clause? name = st.clause? name)
      ∧ (st.buildTaken (ns ++ ms)).output = (st.build (ns ++ ms)).output
      ∧ ((st.buildTaken ns).buildTaken ms).output = ((st.build ns).build ms).output
      ∧ (∀ name, (st.buildTaken ns).clause? name = st.clause? name) := by
  have houtput := (sameButGuard_build_append st ns ms).output
  have hsql := congrArg Output.sql houtput
  have hvalues := congrArg Output.values houtput
  have herrors := congrArg Output.errors houtput
  have hendless := congrArg Output.endless houtput
  have hkept (name : String) : (st.build ns).clause? name = st.clause? name := by
    rw [clause?, clause?, (sameButOutput_build st ns).clauses]
  have htaken := sameClauses_buildTaken st ns
  -- The second build starts from the same clauses, in whatever order they were put back.
  have htwice : SameClauses ((st.build ns).build ms) ((st.buildTaken ns).buildTaken ms) :=
    (htaken.build ms).trans (sameClauses_buildTaken _ ms)
  exact ⟨hsql, hvalues, herrors, hendless, hkept, (sameClauses_buildTaken st _).output,
    htwice.output, fun name => (htaken.clauses name).trans (hkept name)⟩

/-- The guard looks at all names once, or once at each half. -/
example :
    let st : Statement := { dialect := .mysql, table := "users" }
    (st.build ["UPDATE", "DELETE"]).output.errors.length = 1
      ∧ ((st.build ["UPDATE"]).build ["DELETE"]).output.errors.length = 2 := by
  decide

end Statement

end RecordSql
