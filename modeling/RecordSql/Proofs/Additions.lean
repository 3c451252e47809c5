/-
  RecordSql.Proofs.Additions

  Clauses that are added to a statement one after the other, each in any case
  or only where there is none of its name.  An addition reads and writes the
  clause of its own name and nothing else (`Statement.clause?_addition`), so
  what stands under a name after all of them is what those of that name made
  of it (`Statement.clause?_addAll`).  How additions of different names are
  interleaved leaves no trace, in the clauses or in what is built from them.
-/

import Mathlib.Data.List.FinRange
import RecordSql.Proofs.Runs

namespace RecordSql

/-- A clause to be added: in any case, or only if there is none of its name. -/
structure Addition where
  body : Clause.Body
  ifAbsent : Bool := false

namespace Addition

/-- The name of the clause. -/
def name (a : Addition) : String := a.body.name

/-- What the addition makes of the clause with its name. -/
def result (a : Addition) (held : Option Clause) : Option Clause :=
  if a.ifAbsent && held.isSome then held else some ((held.getD {}).add a.body)

/-- The same additions with those of each name in the same order: they may be interleaved in another
way. -/
def Reordered (additions others : List Addition) : Prop :=
  ∀ name, additions.filter (·.name == name) = others.filter (·.name == name)

/-- Places are exchanged so that those of one name keep their order. -/
theorem reordered_of_places (additions : List Addition) {places : List (Fin additions.length)}
    (hperm : places.Perm (List.finRange additions.length))
    (horder : places.Pairwise fun i j =>
      (additions.get i).name = (additions.get j).name → i < j) :
    Reordered additions (places.map additions.get) := by
  intro name
  have hown : additions.filter (·.name == name)
      = ((List.finRange additions.length).map additions.get).filter (·.name == name) := by
    rw [List.map_get_finRange]
  rw [hown, List.filter_map, List.filter_map]
  -- Both are the places of that name in ascending order.
  have hplaces : (places.filter ((·.name == name) ∘ additions.get)).Pairwise (· < ·) := by
    refine (horder.filter _).imp_of_mem fun {i j} hi hj hlt => hlt ?_
    have hi := (List.mem_filter.mp hi).2
    have hj := (List.mem_filter.mp hj).2
    rw [Function.comp_apply, beq_iff_eq] at hi hj
    rw [hi, hj]
  have hall := (List.pairwise_lt_finRange additions.length).filter ((·.name == name) ∘ additions.get)
  exact congrArg (List.map additions.get)
    ((hperm.filter _).eq_of_pairwise (fun i j _ _ hij hji => absurd hij (lt_asymm hji))
      hplaces hall).symm

end Addition

namespace Statement

/-- A statement after an addition. -/
def addition (st : Statement) (a : Addition) : Statement :=
  if a.ifAbsent then st.addClauseIfAbsent a.body else st.addClause a.body

/-- A statement after several additions. -/
def addAll (st : Statement) (additions : List Addition) : Statement := additions.foldl addition st

/-! ## The clauses after additions -/

theorem clause?_addClause (st : Statement) (body : Clause.Body) (name : String) :
    (st.addClause body).clause? name
      = if body.name = name then some (((st.clause? name).getD {}).add body)
        else st.clause? name := by
  have hlookup : (st.addClause body).clause? name
      = if name == body.name then some (((st.clause? body.name).getD {}).add body)
        else st.clause? name := lookup_setClause ..
  rw [hlookup]
  by_cases hname : body.name = name
  · rw [hname, if_pos rfl, if_pos (beq_self_eq_true name)]
  · have hne : ¬(name == body.name) = true := fun h => hname (beq_iff_eq.mp h).symm
    rw [if_neg hname, if_neg hne]

/-- An addition changes the clause with its name alone, and that by what it was. -/
theorem clause?_addition (st : Statement) (a : Addition) (name : String) :
    (st.addition a).clause? name
      = if a.name = name then a.result (st.clause? name) else st.clause? name := by
  have hadded := clause?_addClause st a.body name
  rw [addition, addClauseIfAbsent, Addition.result]
  by_cases hname : a.name = name
  · have hsame : a.body.name = name := hname
    rw [if_pos hsame] at hadded
    rw [hsame, if_pos hname]
    cases a.ifAbsent with
    | false => exact hadded
    | true =>
      rw [if_pos rfl, Bool.true_and]
      split
      · rfl
      · exact hadded
  · have hother : ¬a.body.name = name := hname
    rw [if_neg hother] at hadded
    rw [if_neg hname]
    split
    · split
      · rfl
      · exact hadded
    · exact hadded

/-- Under a name stands what the additions of that name made of it, one after the other. -/
theorem clause?_addAll (st : Statement) (additions : List Addition) (name : String) :
    (st.addAll additions).clause? name
      = (additions.filter (·.name == name)).foldl (fun held a => a.result held)
          (st.clause? name) := by
  induction additions generalizing st with
  | nil => rfl
  | cons a additions ih =>
    have hrest : (st.addAll (a :: additions)).clause? name
        = ((st.addition a).addAll additions).clause? name := rfl
    rw [hrest, ih, clause?_addition, List.filter_cons]
    by_cases hname : a.name = name
    · rw [if_pos hname, if_pos (beq_iff_eq.mpr hname), List.foldl_cons]
    · rw [if_neg hname, if_neg fun h => hname (beq_iff_eq.mp h)]

/-! ## What is built from them -/

/-- Two statements differ in nothing but their clauses. -/
def SameButClauses (st st' : Statement) : Prop := st' = { st with clauses := st'.clauses }

theorem SameButClauses.trans {st st' st'' : Statement} (h : SameButClauses st st')
    (h' : SameButClauses st' st'') : SameButClauses st st'' := by
  rw [SameButClauses] at *
  rw [h', h]

theorem sameButClauses_addition (st : Statement) (a : Addition) :
    SameButClauses st (st.addition a) := by
  rw [addition, addClauseIfAbsent]
  split
  · split <;> rfl
  · rfl

/-- Additions change the clauses alone. -/
theorem sameButClauses_addAll (st : Statement) (additions : List Addition) :
    SameButClauses st (st.addAll additions) := by
  induction additions generalizing st with
  | nil => rfl
  | cons a additions ih => exact (sameButClauses_addition st a).trans (ih _)

/-- Two statements have the same clause under every name, and differ in nothing but the order in
which the clauses came. -/
structure SameClauses (st st' : Statement) : Prop where
  clauses : ∀ name, st'.clause? name = st.clause? name
  rest : SameButClauses st st'

/-- However additions of different names are interleaved, the clauses are the same. -/
theorem sameClauses_of_reordered (st : Statement) {additions others : List Addition}
    (h : Addition.Reordered additions others) :
    SameClauses (st.addAll additions) (st.addAll others) where
  clauses name := by rw [clause?_addAll, clause?_addAll, h name]
  rest := by
    have hother := sameButClauses_addAll st others
    rw [SameButClauses] at *
    rw [hother, sameButClauses_addAll st additions]

namespace SameClauses

variable {st st' : Statement}

theorem output (h : SameClauses st st') : st'.output = st.output := by rw [h.rest]

theorem write (h : SameClauses st st') (f : Fragment) : SameClauses (st.write f) (st'.write f) where
  clauses := h.clauses
  rest := by
    rw [h.rest]
    rfl

/-- A clause is looked up by its name, so it is written in the same way. -/
theorem clauseText (h : SameClauses st st') (name : String) :
    st'.clauseText name = st.clauseText name := by
  unfold Statement.clauseText
  rw [h.clauses name, h.rest]
  rfl

theorem checkGlobalUpdate (h : SameClauses st st') (names : List String) :
    SameClauses (st.checkGlobalUpdate names) (st'.checkGlobalUpdate names) := by
  have hguard : (st'.allowGlobalUpdate || st'.hasCondition)
      = (st.allowGlobalUpdate || st.hasCondition) := by
    rw [hasCondition, hasCondition, h.clauses, h.rest]
  rw [Statement.checkGlobalUpdate, Statement.checkGlobalUpdate, hguard]
  split
  · exact h
  · split
    · exact h.write _
    · exact h

theorem writeClauses (h : SameClauses st st') (names : List String) :
    SameClauses (names.foldl writeClause st) (names.foldl writeClause st') := by
  induction names generalizing st st' with
  | nil => exact h
  | cons name names ih =>
    apply ih
    rw [writeClause_eq, writeClause_eq, h.clauseText]
    exact h.write _

theorem build (h : SameClauses st st') (names : List String) :
    SameClauses (st.build names) (st'.build names) :=
  (h.checkGlobalUpdate names).writeClauses names

theorem addClause (h : SameClauses st st') (body : Clause.Body) :
    SameClauses (st.addClause body) (st'.addClause body) where
  clauses name := by rw [clause?_addClause, clause?_addClause, h.clauses]
  rest := by
    rw [h.rest]
    rfl

theorem run (h : SameClauses st st') (calls : List Call) :
    SameClauses (st.run calls) (st'.run calls) := by
  induction calls generalizing st st' with
  | nil => exact h
  | cons c calls ih =>
    apply ih
    cases c with
    | add body => exact h.addClause body
    | build names => exact h.build names

end SameClauses

/-- Additions of different names commute: however they are interleaved, as long as those of one name
keep their order, there is the same clause under every name, and whatever is built later is the same,
text, values and errors. -/
theorem additions_of_other_names_commute (st : Statement) {additions others : List Addition}
    (h : Addition.Reordered additions others) :
    (∀ name, (st.addAll others).clause? name = (st.addAll additions).clause? name)
      ∧ ∀ later : List Call,
        ((st.addAll others).run later).output = ((st.addAll additions).run later).output := by
  have hsame := sameClauses_of_reordered st h
  exact ⟨hsame.clauses, fun later => (hsame.run later).output⟩

/-- A query in pieces: two conditions, one of which comes in the place of what was there, the
columns to fall back on, groups that have conditions first and columns later, and a hint. -/
def pieces : List Addition :=
  [ ⟨.conditions ⟨[.compare .eq (.named "id") (.value (.int 1))]⟩, false⟩
  , ⟨.groupBy ⟨[], [.sql "COUNT(*) > ?" [.value (.int 2)]]⟩, false⟩
  , ⟨.custom "WHERE" (.sql "age > ?" [.value (.int 3)]), false⟩
  , ⟨.select { columns := [.named "name"] }, false⟩
  , ⟨.groupBy ⟨[.named "name"], []⟩, false⟩
  , ⟨.select { columns := [.named "id"] }, true⟩
  , ⟨.custom "HINT" (.sql "FAST" []), true⟩ ]

/-- The same query put together from its end. -/
theorem additions_of_other_names_commute_pieces :
    let names := ["SELECT", "WHERE", "GROUP BY", "HINT"]
    let st : Statement := { dialect := .mysql, table := "users" }
    let others := ([6, 3, 1, 4, 5, 0, 2] : List (Fin 7)).map pieces.get
    Addition.Reordered pieces others
      ∧ (st.addAll others).clause? "GROUP BY" = (st.addAll pieces).clause? "GROUP BY"
      ∧ ((st.addAll others).run [.build names]).output = ((st.addAll pieces).run [.build names]).output
      ∧ ((st.addAll others).run [.build names]).output.sql
        = "SELECT `name` WHERE age > ? GROUP BY `name` HAVING COUNT(*) > ? HINT FAST" := by
  intro names st others
  have hperm : ([6, 3, 1, 4, 5, 0, 2] : List (Fin 7)).Perm (List.finRange 7) := by decide
  have horder : ([6, 3, 1, 4, 5, 0, 2] : List (Fin 7)).Pairwise fun i j : Fin 7 =>
      (pieces.get i).name = (pieces.get j).name → i < j := by decide
  have hreordered : Addition.Reordered pieces others :=
    Addition.reordered_of_places pieces hperm horder
  obtain ⟨hclauses, houtput⟩ := additions_of_other_names_commute st hreordered
  exact ⟨hreordered, hclauses _, houtput _, by decide +kernel⟩

end Statement

end RecordSql
