/-
  RecordSql.Proofs.Runs

  Runs of a statement: clauses are added and named clauses are written, in
  any order and as often as one likes.  What a call changes: adding a clause
  changes the clauses alone, and a build the output alone.
-/

import RecordSql.Proofs.Written

namespace RecordSql

/-- What is done with a statement. -/
inductive Call where
  | add (body : Clause.Body)
  | build (names : List String)

/-- A build of a run: the statement that it finds, and the names that it is asked to write. -/
structure Build where
  found : Statement
  names : List String

namespace Statement

/-- A statement after a call. -/
def call (st : Statement) : Call → Statement
  | .add body => st.addClause body
  | .build names => st.build names

/-- A statement after several calls. -/
def run (st : Statement) (calls : List Call) : Statement := calls.foldl call st

/-- The builds of a run. -/
def builds (st : Statement) : List Call → List Build
  | [] => []
  | .add body :: calls => (st.addClause body).builds calls
  | .build names :: calls => ⟨st, names⟩ :: (st.build names).builds calls

@[simp] theorem run_nil (st : Statement) : st.run [] = st := rfl

@[simp] theorem run_cons (st : Statement) (c : Call) (calls : List Call) :
    st.run (c :: calls) = (st.call c).run calls := rfl

/-- Whether the statement has a clause with a name that a build writes. -/
def writes (st : Statement) (name : String) : Bool := (st.clause? name).any (!·.isEmpty)

/-- The clause with a name as a build writes it: after a space unless it is the first text, and
nothing if there is nothing to write. -/
def clauseText (st : Statement) (name : String) : Fragment :=
  match st.clause? name with
  | none => []
  | some c =>
    if c.isEmpty then []
    else (if st.output.sql.isEmpty then [] else [.text " "]) ++ st.clauseFragment name c

@[simp] theorem write_nil (st : Statement) : st.write [] = st := rfl

/-- A build writes a clause by appending its text, and passes over what it does not write. -/
theorem writeClause_eq (st : Statement) (name : String) :
    st.writeClause name = st.write (st.clauseText name) := by
  rw [writeClause, clauseText]
  cases st.clause? name with
  | none => rfl
  | some c =>
    show (if c.isEmpty then st else _) = st.write (if c.isEmpty then [] else _)
    split
    · rfl
    · rfl

/-- Putting a clause under a name changes no other clause. -/
theorem lookup_setClause (name other : String) (c : Clause) (clauses : List (String × Clause)) :
    (setClause name c clauses).lookup other
      = if other == name then some c else clauses.lookup other := by
  induction clauses with
  | nil => rw [setClause, List.lookup_cons, List.lookup_nil]; cases other == name <;> rfl
  | cons entry clauses ih =>
    obtain ⟨key, old⟩ := entry
    rw [setClause]
    by_cases hkey : (key == name) = true
    · have hsame : key = name := by simpa using hkey
      rw [if_pos hkey, List.lookup_cons, List.lookup_cons, hsame]
      cases other == name <;> rfl
    · rw [if_neg hkey, List.lookup_cons, List.lookup_cons, ih]
      by_cases hother : (other == key) = true
      · -- The clause that is kept has another name than the one that is put.
        have hsame : other = key := by simpa using hother
        rw [hother, hsame]
        show some old = if (key == name) = true then some c else some old
        rw [if_neg hkey]
      · rw [Bool.not_eq_true] at hother
        rw [hother]

/-- Recording an error changes the errors alone. -/
theorem addError_eq (st : Statement) (e : Error) :
    st.addError e =
      { st with output := { st.output with errors := st.output.errors ++ [e] } } := rfl

/-! ## What a build leaves alone -/

/-- Two statements differ in nothing but their outputs. -/
def SameButOutput (st st' : Statement) : Prop := st' = { st with output := st'.output }

namespace SameButOutput

theorem refl (st : Statement) : SameButOutput st st := rfl

theorem trans {st st' st'' : Statement} (h : SameButOutput st st') (h' : SameButOutput st' st'') :
    SameButOutput st st'' := by
  rw [SameButOutput] at *
  rw [h', h]

theorem write (st : Statement) (f : Fragment) : SameButOutput st (st.write f) := rfl

theorem writes {st st' : Statement} (h : SameButOutput st st') (name : String) :
    st'.writes name = st.writes name := by
  rw [h]
  rfl

theorem clauses {st st' : Statement} (h : SameButOutput st st') : st'.clauses = st.clauses := by
  rw [h]

theorem dialect {st st' : Statement} (h : SameButOutput st st') : st'.dialect = st.dialect := by
  rw [h]

theorem allowGlobalUpdate {st st' : Statement} (h : SameButOutput st st') :
    st'.allowGlobalUpdate = st.allowGlobalUpdate := by
  rw [h]

end SameButOutput

theorem sameButOutput_checkGlobalUpdate (st : Statement) (names : List String) :
    SameButOutput st (st.checkGlobalUpdate names) := by
  rw [checkGlobalUpdate]
  -- The check writes an error at most.
  split
  · exact .refl st
  · split
    · exact .write st _
    · exact .refl st

theorem sameButOutput_writeClauses (st : Statement) (names : List String) :
    SameButOutput st (names.foldl writeClause st) := by
  induction names generalizing st with
  | nil => exact .refl st
  | cons name names ih =>
    have hstep : SameButOutput st (st.writeClause name) := by
      rw [writeClause_eq]
      exact .write st _
    exact hstep.trans (ih _)

/-- A build changes the output alone. -/
theorem sameButOutput_build (st : Statement) (names : List String) :
    SameButOutput st (st.build names) :=
  (sameButOutput_checkGlobalUpdate st names).trans (sameButOutput_writeClauses _ names)

end Statement

end RecordSql
