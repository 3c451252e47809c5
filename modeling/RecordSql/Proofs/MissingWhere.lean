/-
  RecordSql.Proofs.MissingWhere

  When the guard against updates and deletions of every row reports.  A build
  is unguarded if it names UPDATE or DELETE while no condition is installed;
  a run reports exactly if one of its builds is (`Statement.run_reports_iff`).

  What the guard looks at is the clause that is installed, and what is written
  is what is named.  So a build that has a condition and is not asked to write
  it passes the guard, and these are the only runs that escape it.
-/

import RecordSql.Proofs.Alike.Reflexive
import RecordSql.Proofs.Placeholders
import RecordSql.Proofs.Runs

namespace RecordSql

/-! ## Errors of a missing condition -/

mutual
/-- Whether an error is that of a missing condition, or has it among its errors. -/
def Error.saysMissingWhere : Error → Bool
  | .missingWhere _ => true
  | .multiple errors => Error.oneSaysMissingWhere errors
  | _ => false

/-- Whether one of several errors is or has that of a missing condition. -/
def Error.oneSaysMissingWhere : List Error → Bool
  | [] => false
  | e :: es => e.saysMissingWhere || Error.oneSaysMissingWhere es
end

theorem Error.oneSaysMissingWhere_iff (es : List Error) :
    Error.oneSaysMissingWhere es = true ↔ ∃ e ∈ es, e.saysMissingWhere = true := by
  induction es with
  | nil => simp [Error.oneSaysMissingWhere]
  | cons e es ih => rw [Error.oneSaysMissingWhere, Bool.or_eq_true, ih, List.exists_mem_cons_iff]

/-- Names that cannot be resolved are another matter. -/
theorem Error.saysMissingWhere_of_isUnresolved {e : Error} (h : e.isUnresolved = true) :
    e.saysMissingWhere = false := by
  cases e with
  | unsupportedModel name => rfl
  | invalidField detail => rfl
  | _ => cases h

namespace Statement

/-- The statement ends in an error that says that a condition is missing. -/
def ReportsMissingWhere (st : Statement) : Prop :=
  ∃ e, st.finish = .error e ∧ e.saysMissingWhere = true

/-- It does so if one of the errors that it has recorded does. -/
theorem reportsMissingWhere_iff (st : Statement) :
    st.ReportsMissingWhere ↔ ∃ e ∈ st.output.errors, e.saysMissingWhere = true := by
  rw [ReportsMissingWhere, finish]
  match st.output.errors with
  | [] => simp [Error.aggregate]
  | [e] => simp [Error.aggregate]
  | e :: d :: es =>
    have hall : Error.saysMissingWhere (.multiple (e :: d :: es)) = true
        ↔ ∃ x ∈ e :: d :: es, x.saysMissingWhere = true := Error.oneSaysMissingWhere_iff _
    rw [← hall]
    simp [Error.aggregate]

/-- A statement with more errors reports what was reported before, or what is among these. -/
theorem reportsMissingWhere_of_append {st st' : Statement} {es : List Error}
    (h : st'.output.errors = st.output.errors ++ es) :
    st'.ReportsMissingWhere
      ↔ st.ReportsMissingWhere ∨ ∃ e ∈ es, e.saysMissingWhere = true := by
  rw [reportsMissingWhere_iff, reportsMissingWhere_iff, h]
  constructor
  · rintro ⟨e, he, hsays⟩
    rcases List.mem_append.mp he with he | he
    · exact .inl ⟨e, he, hsays⟩
    · exact .inr ⟨e, he, hsays⟩
  · rintro (⟨e, he, hsays⟩ | ⟨e, he, hsays⟩)
    · exact ⟨e, List.mem_append_left es he, hsays⟩
    · exact ⟨e, List.mem_append_right _ he, hsays⟩

/-! ## What a build records -/

/-- No clause has a writer of its own, and the dialect has none for any. -/
structure Plain (st : Statement) : Prop where
  dialect : ∀ name, st.dialect.clauseWriter name = none
  clauses : ∀ name c, st.clause? name = some c → c.writer = none

theorem Plain.of_sameButOutput {st st' : Statement} (hst : st.Plain) (h : SameButOutput st st') :
    st'.Plain where
  dialect name := by rw [h.dialect, hst.dialect]
  clauses name c hc := by
    rw [clause?, h.clauses] at hc
    exact hst.clauses name c hc

theorem Plain.addClause {st : Statement} (hst : st.Plain) (body : Clause.Body) :
    (st.addClause body).Plain where
  dialect := hst.dialect
  clauses name c hc := by
    have hlookup : (if name == body.name then some (((st.clause? body.name).getD {}).add body)
        else st.clause? name) = some c := (lookup_setClause ..).symm.trans hc
    split at hlookup
    · -- Adding a body leaves the writer of its clause as it is.
      obtain rfl := Option.some.inj hlookup
      cases hold : st.clause? body.name with
      | none => rfl
      | some old =>
        have hwriter : old.writer = none := hst.clauses _ old hold
        exact hwriter
    · exact hst.clauses name c hlookup

theorem isUnresolved_of_mem_tableFragment {st : Statement} {e : Error}
    (he : e ∈ st.tableFragment.faults) : e.isUnresolved = true := by
  rw [tableFragment] at he
  split at he
  · exact Expression.isUnresolved_of_mem_faults he
  · split at he
    · rw [List.mem_singleton.mp he]
      rfl
    · cases he

/-- The clauses of a plain statement record errors of names alone. -/
theorem Plain.isUnresolved_of_mem_clauseText {st : Statement} (hst : st.Plain) {name : String}
    {e : Error} (he : e ∈ (st.clauseText name).faults) : e.isUnresolved = true := by
  rw [clauseText] at he
  split at he
  · cases he
  · next c hc =>
    split at he
    · cases he
    · rw [Fragment.faults_append, clauseFragment, hst.dialect] at he
      rcases List.mem_append.mp he with hgap | he
      · split at hgap <;> cases hgap
      · exact Clause.isUnresolved_of_mem_faults (hst.clauses name c hc) he

end Statement

theorem Fragment.mem_faults_withTable {f table : Fragment} {e : Error}
    (h : e ∈ (f.withTable table).faults) : e ∈ f.faults ∨ e ∈ table.faults := by
  rw [mem_faults, withTable, List.mem_flatMap] at h
  obtain ⟨p, hp, he⟩ := h
  cases p with
  | currentTable => exact .inr (mem_faults.mpr he)
  | fault d =>
    have hsame : Piece.fault e = .fault d := List.mem_singleton.mp he
    rw [hsame.symm] at hp
    exact .inl (mem_faults.mpr hp)
  | text s => cases List.mem_singleton.mp he
  | bound v => cases List.mem_singleton.mp he

namespace Statement

/-- Writing clauses takes back no report, and in a plain statement it adds none. -/
theorem reportsMissingWhere_writeClauses (st : Statement) (names : List String) :
    (st.ReportsMissingWhere → (names.foldl writeClause st).ReportsMissingWhere)
      ∧ (st.Plain → (names.foldl writeClause st).ReportsMissingWhere → st.ReportsMissingWhere) := by
  induction names generalizing st with
  | nil => exact ⟨id, fun _ => id⟩
  | cons name names ih =>
    have herrors : (st.writeClause name).output.errors
        = st.output.errors ++ (st.resolved (st.clauseText name)).faults := by
      rw [writeClause_eq, write_output, Output.append_errors]
    have hsame : SameButOutput st (st.writeClause name) := by
      rw [writeClause_eq]
      exact .write st _
    have hstep := reportsMissingWhere_of_append herrors
    obtain ⟨hkeep, hadd⟩ := ih (st.writeClause name)
    refine ⟨fun h => hkeep (hstep.mpr (.inl h)), fun hst h => ?_⟩
    rcases hstep.mp (hadd (hst.of_sameButOutput hsame) h) with h | ⟨e, he, hsays⟩
    · exact h
    · -- The error would be one of a clause or of the table, and those say something else.
      have hunresolved : e.isUnresolved = true := by
        rcases Fragment.mem_faults_withTable he with he | he
        · exact hst.isUnresolved_of_mem_clauseText he
        · exact isUnresolved_of_mem_tableFragment he
      rw [Error.saysMissingWhere_of_isUnresolved hunresolved] at hsays
      cases hsays

end Statement

/-! ## The guard -/

namespace Build

/-- The build writes the clause with a name: it is asked to, and there is something to write. -/
def Writes (b : Build) (name : String) : Prop := name ∈ b.names ∧ b.found.writes name = true

/-- The build finds a clause with something to write, and is not asked to write it. -/
def LeavesOut (b : Build) (name : String) : Prop := name ∉ b.names ∧ b.found.writes name = true

/-- The build is asked to update or to delete. -/
def NamesChange (b : Build) : Prop := "UPDATE" ∈ b.names ∨ "DELETE" ∈ b.names

/-- The build is asked to update or to delete, and finds no condition. -/
def Unguarded (b : Build) : Prop := b.NamesChange ∧ b.found.writes "WHERE" = false

end Build

namespace Statement

theorem find?_change_isSome (names : List String) :
    (names.find? fun n => n == "UPDATE" || n == "DELETE").isSome = true
      ↔ "UPDATE" ∈ names ∨ "DELETE" ∈ names := by
  rw [List.find?_isSome]
  constructor
  · rintro ⟨n, hn, heq⟩
    rcases Bool.or_eq_true_iff.mp heq with heq | heq
    · exact .inl (eq_of_beq heq ▸ hn)
    · exact .inr (eq_of_beq heq ▸ hn)
  · rintro (h | h)
    · exact ⟨_, h, rfl⟩
    · exact ⟨_, h, rfl⟩

theorem reportsMissingWhere_checkGlobalUpdate {st : Statement}
    (hallow : st.allowGlobalUpdate = false) (names : List String) :
    (st.checkGlobalUpdate names).ReportsMissingWhere
      ↔ st.ReportsMissingWhere ∨ (Build.mk st names).Unguarded := by
  have hchange := find?_change_isSome names
  have hcondition : st.hasCondition = st.writes "WHERE" := rfl
  rw [checkGlobalUpdate, hallow, Bool.false_or, hcondition]
  -- With a condition the guard is silent; without one it looks for a change among the names.
  cases hwhere : st.writes "WHERE" with
  | true =>
    have hguarded : ¬ (Build.mk st names).Unguarded := by
      rintro ⟨_, hnone⟩
      rw [show st.writes "WHERE" = false from hnone] at hwhere
      cases hwhere
    rw [if_pos rfl, or_iff_left hguarded]
  | false =>
    rw [if_neg Bool.false_ne_true]
    split
    · next name hname =>
      have hunguarded : (Build.mk st names).Unguarded := by
        refine ⟨hchange.mp ?_, hwhere⟩
        rw [hname]
        rfl
      have herrors : (st.addError (.missingWhere name)).output.errors
          = st.output.errors ++ [.missingWhere name] := by
        rw [addError_eq]
      rw [reportsMissingWhere_of_append herrors]
      exact iff_of_true (.inr ⟨_, List.mem_singleton_self _, rfl⟩) (.inr hunguarded)
    · next hnone =>
      have hguarded : ¬ (Build.mk st names).Unguarded := by
        rintro ⟨hnames, _⟩
        have hfound := hchange.mpr hnames
        rw [hnone] at hfound
        cases hfound
      rw [or_iff_left hguarded]

/-- A build reports what was reported before, and that it is unguarded if it is; in a plain statement
it reports nothing else. -/
theorem reportsMissingWhere_build {st : Statement} (hallow : st.allowGlobalUpdate = false)
    (names : List String) :
    (st.ReportsMissingWhere ∨ (Build.mk st names).Unguarded →
        (st.build names).ReportsMissingWhere)
      ∧ (st.Plain → (st.build names).ReportsMissingWhere →
          st.ReportsMissingWhere ∨ (Build.mk st names).Unguarded) := by
  have hcheck := reportsMissingWhere_checkGlobalUpdate hallow names
  obtain ⟨hkeep, hadd⟩ := reportsMissingWhere_writeClauses (st.checkGlobalUpdate names) names
  refine ⟨fun h => hkeep (hcheck.mpr h), fun hst h => hcheck.mp (hadd ?_ h)⟩
  exact hst.of_sameButOutput (sameButOutput_checkGlobalUpdate st names)

/-! ## Runs -/

/-- Whatever writers there are, a run with an unguarded build reports. -/
theorem reportsMissingWhere_run_of_unguarded {st : Statement}
    (hallow : st.allowGlobalUpdate = false) (calls : List Call)
    (h : st.ReportsMissingWhere ∨ ∃ b ∈ st.builds calls, b.Unguarded) :
    (st.run calls).ReportsMissingWhere := by
  induction calls generalizing st with
  | nil =>
    rcases h with h | ⟨b, hb, _⟩
    · exact h
    · cases hb
  | cons c calls ih =>
    cases c with
    | add body =>
      -- Neither the errors nor the builds that follow change.
      have hadded : (st.addClause body).allowGlobalUpdate = false := hallow
      exact ih hadded h
    | build names =>
      have hallow' : (st.build names).allowGlobalUpdate = false :=
        (sameButOutput_build st names).allowGlobalUpdate.trans hallow
      have hbuild := (reportsMissingWhere_build hallow names).1
      -- What this build reports is there for the rest of the run.
      apply ih hallow'
      rcases h with h | ⟨b, hb, hunguarded⟩
      · exact .inl (hbuild (.inl h))
      · rcases List.mem_cons.mp hb with rfl | hb
        · exact .inl (hbuild (.inr hunguarded))
        · exact .inr ⟨b, hb, hunguarded⟩

/-- A run of a plain statement reports for no other reason. -/
theorem unguarded_of_reportsMissingWhere_run {st : Statement}
    (hallow : st.allowGlobalUpdate = false) (hst : st.Plain) (calls : List Call)
    (h : (st.run calls).ReportsMissingWhere) :
    st.ReportsMissingWhere ∨ ∃ b ∈ st.builds calls, b.Unguarded := by
  induction calls generalizing st with
  | nil => exact .inl h
  | cons c calls ih =>
    cases c with
    | add body =>
      have hadded : (st.addClause body).allowGlobalUpdate = false := hallow
      exact ih hadded (hst.addClause body) h
    | build names =>
      have hsame := sameButOutput_build st names
      have hallow' : (st.build names).allowGlobalUpdate = false :=
        hsame.allowGlobalUpdate.trans hallow
      rcases ih hallow' (hst.of_sameButOutput hsame) h with h | ⟨b, hb, hu⟩
      · rcases (reportsMissingWhere_build hallow names).2 hst h with h | hu
        · exact .inl h
        · exact .inr ⟨_, List.mem_cons_self .., hu⟩
      · exact .inr ⟨b, List.mem_cons_of_mem _ hb, hu⟩

/-- A run with an unguarded build reports that a condition is missing, and a plain statement reports
it for no other reason. Among the runs in which no condition is written, those escape the report
whose every build that is asked to update or to delete leaves out a condition that is there. -/
theorem run_reportsMissingWhere_iff {st : Statement} (hallow : st.allowGlobalUpdate = false)
    (calls : List Call) :
    ((∃ b ∈ st.builds calls, b.Unguarded) → (st.run calls).ReportsMissingWhere)
      ∧ (st.Plain → ¬ st.ReportsMissingWhere →
          ((st.run calls).ReportsMissingWhere ↔ ∃ b ∈ st.builds calls, b.Unguarded))
      ∧ (st.Plain → ¬ st.ReportsMissingWhere → (∀ b ∈ st.builds calls, ¬ b.Writes "WHERE") →
          (¬ (st.run calls).ReportsMissingWhere
            ↔ ∀ b ∈ st.builds calls, b.NamesChange → b.LeavesOut "WHERE")) := by
  have hreports : (∃ b ∈ st.builds calls, b.Unguarded) → (st.run calls).ReportsMissingWhere :=
    fun h => reportsMissingWhere_run_of_unguarded hallow calls (.inr h)
  have hexact : st.Plain → ¬ st.ReportsMissingWhere →
      ((st.run calls).ReportsMissingWhere ↔ ∃ b ∈ st.builds calls, b.Unguarded) :=
    fun hst hnew =>
      ⟨fun h => (unguarded_of_reportsMissingWhere_run hallow hst calls h).resolve_left hnew,
        hreports⟩
  refine ⟨hreports, hexact, fun hst hnew hnone => ?_⟩
  rw [hexact hst hnew]
  constructor
  · intro hguarded b hb hchange
    -- A guarded build finds a condition; that it does not write it means that it was not named.
    have hfound : b.found.writes "WHERE" = true := by
      rw [← Bool.not_eq_false]
      exact fun hwhere => hguarded ⟨b, hb, hchange, hwhere⟩
    exact ⟨fun hname => hnone b hb ⟨hname, hfound⟩, hfound⟩
  · rintro hleaves ⟨b, hb, hchange, hwhere⟩
    have hfound := (hleaves b hb hchange).2
    rw [hwhere] at hfound
    cases hfound

/-- A statement about users, with nothing written yet. -/
def ofUsers : Statement := { dialect := .mysql, table := "users" }

/-- A deletion of one user by number, built without its condition. -/
def deleteWithoutCondition : List Call :=
  [ .add (.delete {})
  , .add (.fromTables {})
  , .add (.conditions ⟨[.compare .eq (.named "id") (.value (.int 1))]⟩)
  , .build ["DELETE", "FROM"] ]

/-- It deletes every user and reports nothing. -/
theorem deleteWithoutCondition_escapes_report :
    ofUsers.allowGlobalUpdate = false ∧ ofUsers.Plain ∧ ¬ ofUsers.ReportsMissingWhere
      ∧ (∃ b ∈ ofUsers.builds deleteWithoutCondition, b.Writes "DELETE")
      ∧ (∀ b ∈ ofUsers.builds deleteWithoutCondition, ¬ b.Writes "WHERE")
      ∧ ¬ (ofUsers.run deleteWithoutCondition).ReportsMissingWhere
      ∧ (ofUsers.run deleteWithoutCondition).finish = .ok ("DELETE FROM `users`", []) := by
  have hd : ofUsers.dialect ∈ Dialect.builtIn := by simp [ofUsers, Dialect.builtIn]
  have hst : ofUsers.Plain :=
    { dialect := Dialect.clauseWriter_of_builtIn hd
      clauses := by
        intro name c hc
        cases hc }
  have hnew : ¬ ofUsers.ReportsMissingWhere := by
    rw [reportsMissingWhere_iff]
    rintro ⟨e, he, _⟩
    cases he
  have hbuild : ∀ b ∈ ofUsers.builds deleteWithoutCondition,
      b.names = ["DELETE", "FROM"] ∧ b.found.writes "WHERE" = true := by
    intro b hb
    rw [List.mem_singleton.mp hb]
    exact ⟨rfl, by decide⟩
  have hdelete : ∃ b ∈ ofUsers.builds deleteWithoutCondition, b.Writes "DELETE" :=
    ⟨_, List.mem_singleton_self _, by decide, by decide⟩
  have hleaves : ∀ b ∈ ofUsers.builds deleteWithoutCondition, b.LeavesOut "WHERE" := by
    intro b hb
    obtain ⟨hnames, hwrites⟩ := hbuild b hb
    refine ⟨?_, hwrites⟩
    rw [hnames]
    decide
  have hnone : ∀ b ∈ ofUsers.builds deleteWithoutCondition, ¬ b.Writes "WHERE" :=
    fun b hb hwrites => (hleaves b hb).1 hwrites.1
  have hescape := (run_reportsMissingWhere_iff rfl deleteWithoutCondition).2.2 hst hnew hnone
  have hsql : (ofUsers.run deleteWithoutCondition).output.sql = "DELETE FROM `users`" := by decide
  have hvalues : (ofUsers.run deleteWithoutCondition).output.values = [] := rfl
  have herrors : (ofUsers.run deleteWithoutCondition).output.errors = [] := rfl
  refine ⟨rfl, hst, hnew, hdelete, hnone, hescape.mpr fun b hb _ => hleaves b hb, ?_⟩
  rw [finish, herrors, hsql, hvalues]
  rfl

end Statement

end RecordSql
