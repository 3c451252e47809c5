/-
  RecordSql.Proofs.TableExpressions

  Writing with an expression in the place of the table.

  Wherever the table is mentioned, the pieces of the table expression are
  written instead, and these may mention the table again.  A writing takes one
  piece at a time (`Writing.step`), so that what it has in hand grows at each
  mention.  It ends exactly unless the table expression mentions the table and
  is come upon at all (`Writing.ends_iff`); there is then a mention in hand
  after every step.  A writing that ends leaves what the statement writes in
  one go (`Writing.st_of_done`).

  This goes for whatever a statement is asked to write
  (`Task.writing_ends_iff`).  A table expression that does not name the table
  is safe to write anywhere.
-/

import Mathlib.Data.List.Basic
import Mathlib.Logic.Function.Iterate
import Mathlib.Tactic.ByContra
import RecordSql.Proofs.Runs
import RecordSql.Proofs.TableMentions

namespace RecordSql

namespace Fragment

/-- A piece that is not the table mentions nothing. -/
theorem mentionsTable_singleton {p : Piece} (h : p ≠ .currentTable) : mentionsTable [p] = false := by
  cases p with
  | currentTable => exact absurd rfl h
  | _ => rfl

end Fragment

/-! ## Mentions of the table -/

namespace Statement

variable {st st' : Statement}

/-- The table of the statement is an expression that mentions the table. -/
def TableNamesItself (st : Statement) : Prop :=
  ∃ table, st.tableExpr = some table ∧ (table.fragment st.scope).mentionsTable = true

/-- The clause with a name mentions the table where it is written. -/
def mentionsTableIn (st : Statement) (name : String) : Bool :=
  (st.clause? name).any fun c => !c.isEmpty && (st.clauseFragment name c).mentionsTable

theorem tableNamesItself_iff : st.TableNamesItself ↔ st.tableFragment.mentionsTable = true := by
  constructor
  · rintro ⟨table, htable, hmentions⟩
    rw [tableFragment, htable]
    exact hmentions
  · intro hmentions
    by_contra hnot
    have hno := st.tableFragment_mentionsTable fun table htable =>
      Bool.eq_false_iff.mpr fun h => hnot ⟨table, htable, h⟩
    rw [hno] at hmentions
    cases hmentions

theorem mentionsTable_clauseText (st : Statement) (name : String) :
    (st.clauseText name).mentionsTable = st.mentionsTableIn name := by
  have hgap : Fragment.mentionsTable (if st.output.sql.isEmpty then [] else [.text " "]) = false := by
    split <;> rfl
  rw [clauseText, mentionsTableIn]
  cases st.clause? name with
  | none => rfl
  | some c =>
    dsimp only [Option.any_some]
    cases hempty : c.isEmpty with
    | true => rfl
    | false =>
      rw [if_neg Bool.false_ne_true, Fragment.mentionsTable_append, hgap]
      rfl

theorem SameButOutput.tableFragment (h : SameButOutput st st') : st'.tableFragment = st.tableFragment := by
  rw [h]
  rfl

theorem SameButOutput.mentionsTableIn (h : SameButOutput st st') (name : String) :
    st'.mentionsTableIn name = st.mentionsTableIn name := by
  rw [h]
  rfl

theorem endless_write (st : Statement) (f : Fragment) : (st.write f).output.endless = true
    ↔ st.output.endless = true ∨ st.tableFragment.mentionsTable = true ∧ f.mentionsTable = true := by
  rw [write_output, Output.append_endless, resolved, Fragment.mentionsTable_withTable, Bool.or_eq_true,
    Bool.and_eq_true, and_comm (a := f.mentionsTable = true)]

/-- The statement with one more piece written, which is not the table. -/
def push (st : Statement) (p : Piece) : Statement :=
  { st with output := st.output.push st.dialect p }

theorem sameButOutput_push (st : Statement) (p : Piece) : SameButOutput st (st.push p) := rfl

end Statement

/-! ## Steps -/

/-- A statement that is being written. -/
structure Writing where
  st : Statement
  /-- The pieces in hand. -/
  pieces : Fragment
  /-- The clauses to be written behind them. -/
  names : List String

namespace Writing

/-- One step: the first piece is written, or if it is the table, the pieces of the table are taken instead.
When no piece is left, the next clause is begun. -/
def step (w : Writing) : Writing :=
  match w.pieces, w.names with
  | .currentTable :: f, _ => { w with pieces := w.st.tableFragment ++ f }
  | p :: f, _ => { w with st := w.st.push p, pieces := f }
  | [], name :: names => { w with pieces := w.st.clauseText name, names }
  | [], [] => w

/-- Nothing is left to write. -/
def Done (w : Writing) : Prop := w.pieces = [] ∧ w.names = []

/-- Nothing is left after some number of steps. -/
def Ends (w : Writing) : Prop := ∃ n, (step^[n] w).Done

/-- The table is mentioned in what is left to write. -/
def Mentions (w : Writing) : Prop :=
  w.pieces.mentionsTable = true ∨ ∃ name ∈ w.names, w.st.mentionsTableIn name = true

/-- One writing comes to another after some number of steps. -/
def Reaches (w w' : Writing) : Prop := ∃ n, step^[n] w = w'

variable {st st' : Statement} {p : Piece} {f g : Fragment} {names : List String} {w w' w'' : Writing}

theorem step_table :
    step ⟨st, .currentTable :: f, names⟩ = ⟨st, st.tableFragment ++ f, names⟩ := rfl

theorem step_piece (h : p ≠ .currentTable) : step ⟨st, p :: f, names⟩ = ⟨st.push p, f, names⟩ := by
  cases p with
  | currentTable => exact absurd rfl h
  | _ => rfl

theorem step_clause {name : String} :
    step ⟨st, [], name :: names⟩ = ⟨st, st.clauseText name, names⟩ := rfl

theorem step_of_done (h : w.Done) : w.step = w := by
  obtain ⟨st, pieces, names⟩ := w
  obtain ⟨rfl, rfl⟩ := h
  rfl

theorem Reaches.refl (w : Writing) : w.Reaches w := ⟨0, rfl⟩

theorem Reaches.of_step (h : w.step.Reaches w') : w.Reaches w' := by
  obtain ⟨n, h⟩ := h
  exact ⟨n + 1, h⟩

theorem Reaches.trans (h : w.Reaches w') (h' : w'.Reaches w'') : w.Reaches w'' := by
  obtain ⟨n, rfl⟩ := h
  obtain ⟨m, rfl⟩ := h'
  exact ⟨m + n, Function.iterate_add_apply step m n w⟩

/-- A writing that is done stays as it is, so that it comes to one end only. -/
theorem eq_of_reaches_done (h : w.Reaches w') (hdone : w'.Done) {n : Nat} (hn : (step^[n] w).Done) :
    step^[n] w = w' := by
  obtain ⟨m, rfl⟩ := h
  have hstay : ∀ {v : Writing}, v.Done → ∀ k, step^[k] v = v := fun hv k =>
    Function.iterate_fixed (step_of_done hv) k
  rcases Nat.le_total n m with hle | hle
  · obtain ⟨k, rfl⟩ := Nat.exists_eq_add_of_le' hle
    rw [Function.iterate_add_apply, hstay hn]
  · obtain ⟨k, rfl⟩ := Nat.exists_eq_add_of_le' hle
    rw [Function.iterate_add_apply, hstay hdone]

/-! ## Writings that end -/

/-- Pieces in which the table is not mentioned are written one after the other. -/
theorem reaches_of_plain (h : f.mentionsTable = false) :
    Reaches ⟨st, f ++ g, names⟩ ⟨{ st with output := st.output.append st.dialect f }, g, names⟩ := by
  induction f generalizing st with
  | nil => exact .refl _
  | cons p f ih =>
    rw [Fragment.mentionsTable_cons, Bool.or_eq_false_iff] at h
    have hp : p ≠ .currentTable := by
      rintro rfl
      cases h.1
    refine .of_step ?_
    rw [List.cons_append, step_piece hp]
    exact ih h.2

/-- Pieces are written as a whole if they do not mention the table, or the table does not mention itself. -/
theorem reaches_write (h : st.tableFragment.mentionsTable = false ∨ f.mentionsTable = false) :
    Reaches ⟨st, f ++ g, names⟩ ⟨st.write f, g, names⟩ := by
  induction f generalizing st with
  | nil => exact .refl _
  | cons p f ih =>
    have hwrite : st.write (p :: f) = (st.write [p]).write f := st.write_append [p] f
    have hrest : Reaches ⟨st.write [p], f ++ g, names⟩ ⟨(st.write [p]).write f, g, names⟩ := by
      refine ih (h.imp id fun hf => ?_)
      rw [Fragment.mentionsTable_cons, Bool.or_eq_false_iff] at hf
      exact hf.2
    refine .of_step ?_
    rw [List.cons_append, hwrite]
    by_cases hp : p = .currentTable
    · subst hp
      -- Here is a mention, so it is the table that has none; its pieces are written one by one.
      have htable : st.tableFragment.mentionsTable = false := h.resolve_right Bool.noConfusion
      have hput : st.write [.currentTable]
          = { st with output := st.output.append st.dialect st.tableFragment } := by
        rw [Statement.write, Fragment.withTable, List.flatMap_singleton]
      rw [step_table]
      rw [hput] at hrest ⊢
      exact (reaches_of_plain htable).trans hrest
    · have hpush : st.push p = st.write [p] := by
        cases p with
        | currentTable => exact absurd rfl hp
        | _ => rfl
      rw [step_piece hp, hpush]
      exact hrest

/-- The clause that comes next is written after the pieces in hand. -/
theorem mentions_cons {name : String} : Mentions ⟨st, f, name :: names⟩
    ↔ f.mentionsTable = true ∨ Mentions ⟨st.write f, (st.write f).clauseText name, names⟩ := by
  have hsame : st.SameButOutput (st.write f) := .write st f
  simp only [Mentions, Statement.mentionsTable_clauseText, hsame.mentionsTableIn, List.exists_mem_cons_iff]

theorem reaches_pieces (h : st.tableFragment.mentionsTable = false ∨ ¬Mentions ⟨st, f, names⟩) :
    Reaches ⟨st, f, names⟩ ⟨st.write f, [], names⟩ := by
  have hwrite : Reaches ⟨st, f ++ [], names⟩ ⟨st.write f, [], names⟩ :=
    reaches_write (h.imp id fun hno => Bool.eq_false_iff.mpr fun hf => hno (.inl hf))
  rwa [List.append_nil] at hwrite

/-- What is left after all: the pieces in hand are written, and then the clauses. -/
def result (w : Writing) : Statement := w.names.foldl Statement.writeClause (w.st.write w.pieces)

/-- Without a mention in hand, or with a table that does not mention itself, everything is written. -/
theorem reaches_result (h : w.st.tableFragment.mentionsTable = false ∨ ¬w.Mentions) :
    w.Reaches ⟨w.result, [], []⟩ := by
  obtain ⟨st, f, names⟩ := w
  induction names generalizing st f with
  | nil => exact reaches_pieces h
  | cons name names ih =>
    have hsame : st.SameButOutput (st.write f) := .write st f
    refine (reaches_pieces h).trans (.of_step ?_)
    rw [step_clause]
    have hrest := ih (st.write f) ((st.write f).clauseText name) (by
      rw [hsame.tableFragment]
      exact h.imp id fun hno hmentions => hno (mentions_cons.mpr (.inr hmentions)))
    rwa [result, ← Statement.writeClause_eq] at hrest

/-! ## Writings that do not end -/

/-- If the table mentions itself, a mention in hand is never got rid of. -/
theorem mentions_step (htable : w.st.tableFragment.mentionsTable = true) (h : w.Mentions) :
    w.step.st.tableFragment.mentionsTable = true ∧ w.step.Mentions := by
  obtain ⟨st, pieces, names⟩ := w
  cases pieces with
  | cons p f =>
    by_cases hp : p = .currentTable
    · subst hp
      -- The mention is gone, and the pieces of the table bring another.
      refine ⟨htable, .inl ?_⟩
      rw [step_table, Fragment.mentionsTable_append, Bool.or_eq_true]
      exact .inl htable
    · have hsame : st.SameButOutput (st.push p) := st.sameButOutput_push p
      rw [step_piece hp]
      refine ⟨by rwa [hsame.tableFragment], ?_⟩
      obtain hpieces | ⟨name, hname, hclause⟩ := h
      · rw [Fragment.mentionsTable_cons, Fragment.mentionsTable_singleton hp, Bool.false_or] at hpieces
        exact .inl hpieces
      · exact .inr ⟨name, hname, by rwa [hsame.mentionsTableIn]⟩
  | nil =>
    obtain hpieces | ⟨name, hname, hclause⟩ := h
    · cases hpieces
    · cases names with
      | nil => cases hname
      | cons first names =>
        refine ⟨htable, ?_⟩
        rw [step_clause]
        rcases List.mem_cons.mp hname with rfl | hname
        · exact .inl (by rwa [Statement.mentionsTable_clauseText])
        · exact .inr ⟨name, hname, hclause⟩

theorem mentions_iterate (htable : w.st.tableFragment.mentionsTable = true) (h : w.Mentions) (n : Nat) :
    (step^[n] w).Mentions := by
  induction n generalizing w with
  | zero => exact h
  | succ n ih =>
    obtain ⟨htable', h'⟩ := mentions_step htable h
    exact ih htable' h'

theorem not_mentions_of_done (h : w.Done) : ¬w.Mentions := by
  obtain ⟨st, pieces, names⟩ := w
  obtain ⟨rfl, rfl⟩ := h
  rintro (hpieces | ⟨name, hname, -⟩)
  · cases hpieces
  · cases hname

/-- A writing ends exactly unless it comes upon a table that mentions itself. -/
theorem ends_iff : w.Ends ↔ w.st.tableFragment.mentionsTable = false ∨ ¬w.Mentions := by
  constructor
  · rintro ⟨n, hdone⟩
    by_contra hnot
    rw [not_or, Bool.not_eq_false, not_not] at hnot
    exact not_mentions_of_done hdone (mentions_iterate hnot.1 hnot.2 n)
  · intro h
    obtain ⟨n, hn⟩ := reaches_result h
    exact ⟨n, by rw [hn]; exact ⟨rfl, rfl⟩⟩

/-- A writing that ends leaves what the statement writes in one go. -/
theorem st_of_done {n : Nat} (h : (step^[n] w).Done) : (step^[n] w).st = w.result := by
  rw [eq_of_reaches_done (reaches_result (ends_iff.mp ⟨n, h⟩)) ⟨rfl, rfl⟩ h]

/-- The output of a statement tells that a writing does not end. -/
theorem endless_result (w : Writing) : w.result.output.endless = true
    ↔ w.st.output.endless = true ∨ w.st.tableFragment.mentionsTable = true ∧ w.Mentions := by
  obtain ⟨st, f, names⟩ := w
  induction names generalizing st f with
  | nil =>
    have hmentions : Mentions ⟨st, f, []⟩ ↔ f.mentionsTable = true :=
      or_iff_left fun ⟨_, hname, _⟩ => List.not_mem_nil hname
    rw [hmentions]
    exact st.endless_write f
  | cons name names ih =>
    have hsame : st.SameButOutput (st.write f) := .write st f
    have hrest := ih (st.write f) ((st.write f).clauseText name)
    rw [result, ← Statement.writeClause_eq, hsame.tableFragment, st.endless_write f, or_assoc,
      ← and_or_left, ← mentions_cons] at hrest
    exact hrest

end Writing

/-! ## Tasks of a statement -/

/-- What a statement can be asked to write. -/
inductive Task where
  | expression (e : Expression)
  /-- The negated form of an expression, if it has one. -/
  | negation (e : Expression)
  /-- The clauses with some names. -/
  | clauses (names : List String)

namespace Task

/-- The writing that the task sets off. -/
def writing (st : Statement) : Task → Writing
  | .expression e => ⟨st, e.fragment st.scope, []⟩
  | .negation e => ⟨st, (e.forms st.scope).negative.getD [], []⟩
  | .clauses names => ⟨st.checkGlobalUpdate names, [], names⟩

/-- The statement after the task. -/
def result (st : Statement) : Task → Statement
  | .expression e => st.writeExpression e
  | .negation e => (st.writeNegation e).2
  | .clauses names => st.build names

/-- The table is mentioned in what the task writes. -/
def MentionsTable (st : Statement) : Task → Prop
  | .expression e => (e.fragment st.scope).mentionsTable = true
  | .negation e => ∃ f, (e.forms st.scope).negative = some f ∧ f.mentionsTable = true
  | .clauses names => ∃ name ∈ names, st.mentionsTableIn name = true

variable (st : Statement) (task : Task)

theorem result_writing : (task.writing st).result = task.result st := by
  cases task with
  | expression e => rfl
  | negation e =>
    rw [writing, result, Statement.writeNegation]
    cases (e.forms st.scope).negative <;> rfl
  | clauses names => rfl

theorem mentions_writing : (task.writing st).Mentions ↔ task.MentionsTable st := by
  cases task with
  | expression e => exact or_iff_left fun ⟨_, hname, _⟩ => List.not_mem_nil hname
  | negation e =>
    refine (or_iff_left fun ⟨_, hname, _⟩ => List.not_mem_nil hname).trans ?_
    rw [writing, MentionsTable]
    cases (e.forms st.scope).negative with
    | none => exact iff_of_false Bool.noConfusion fun ⟨_, hnone, _⟩ => nomatch hnone
    | some f => simp only [Option.getD_some, Option.some.injEq, exists_eq_left']
  | clauses names =>
    have hsame := st.sameButOutput_checkGlobalUpdate names
    refine (or_iff_right Bool.noConfusion).trans ?_
    simp only [writing, MentionsTable, hsame.mentionsTableIn]

theorem tableFragment_writing : (task.writing st).st.tableFragment = st.tableFragment := by
  cases task with
  | expression e => rfl
  | negation e => rfl
  | clauses names => exact (st.sameButOutput_checkGlobalUpdate names).tableFragment

theorem endless_before : (task.writing st).st.output.endless = st.output.endless := by
  cases task with
  | expression e => rfl
  | negation e => rfl
  | clauses names =>
    rw [writing, Statement.checkGlobalUpdate]
    split
    · rfl
    · split <;> rfl

/-- **Writing with a table expression.** What a statement is asked to write comes to an end exactly unless
it mentions the table and the table is an expression that mentions the table itself; the statement that is
left then is the one that is written in one go. Otherwise no number of steps is enough, and the output of
the statement says so. With a table expression that does not name the table everything comes to an end. -/
theorem writing_ends_iff : ((task.writing st).Ends ↔ ¬(st.TableNamesItself ∧ task.MentionsTable st))
    ∧ (∀ n, (Writing.step^[n] (task.writing st)).Done →
        (Writing.step^[n] (task.writing st)).st = task.result st)
    ∧ ((task.result st).output.endless = true ↔ st.output.endless = true ∨ ¬(task.writing st).Ends)
    ∧ ∀ table, st.tableExpr = some table → table.namesTable = false → (task.writing st).Ends := by
  have hends : (task.writing st).Ends ↔ ¬(st.TableNamesItself ∧ task.MentionsTable st) := by
    rw [Writing.ends_iff, tableFragment_writing, mentions_writing, Statement.tableNamesItself_iff, not_and_or,
      Bool.not_eq_true]
  refine ⟨hends, fun n hdone => ?_, ?_, fun table htable hnames => hends.mpr ?_⟩
  · rw [Writing.st_of_done hdone, result_writing]
  · rw [hends, not_not, ← result_writing, Writing.endless_result, endless_before, tableFragment_writing,
      mentions_writing, Statement.tableNamesItself_iff]
  · rintro ⟨⟨table', htable', hmentions⟩, -⟩
    obtain rfl := Option.some.inj (htable.symm.trans htable')
    have hno := (Expression.mentionsTable_forms st.scope hnames).1
    exact Bool.eq_false_iff.mp hno hmentions

/-- The table of users, renamed by an expression that stands in its place, is never written; a view of
that name is. -/
theorem writing_ends_iff_users :
    let users : Statement := { dialect := .mysql, table := "users" }
    let selected := users.addClause (.fromTables {})
    let renamed := { selected with tableExpr := some (.raw "? u" [.table .current] false) }
    let viewed := { selected with tableExpr := some (.raw "active_users u" [] false) }
    ¬((Task.clauses ["FROM"]).writing renamed).Ends ∧ ((Task.clauses ["FROM"]).writing viewed).Ends := by
  intro users selected renamed viewed
  obtain ⟨hends, -, -, -⟩ := writing_ends_iff renamed (.clauses ["FROM"])
  obtain ⟨-, -, -, hsafe⟩ := writing_ends_iff viewed (.clauses ["FROM"])
  have hmentions : Task.MentionsTable renamed (.clauses ["FROM"]) :=
    ⟨"FROM", List.mem_cons_self, by decide⟩
  exact ⟨fun h => hends.mp h ⟨⟨_, rfl, by decide⟩, hmentions⟩, hsafe _ rfl rfl⟩

end Task

end RecordSql
