/-
  RecordSql.Proofs.Placeholders

  One placeholder for each value.  Whatever is built, an expression, its
  negated form, the body of a clause or a whole clause, the output only
  grows: what was written, bound or recorded stays, the new values and
  errors do not depend on it, and the new text is literal text with one
  placeholder for each new value between, numbered on from the values that
  were bound before.

  The literal text is made of words of SQL and of the names and the raw SQL in
  what is built, of which question marks with arguments are no part; the values
  are those in what is built.  So a question mark that stands for no value comes
  from such a name or text, and where they have none there are as many question
  marks as values.

  The statement may have a table expression, as long as that does not
  mention the table it stands for.
-/

import RecordSql.Proofs.QuotedNames
import RecordSql.Proofs.Sources.Clause

namespace RecordSql

/-! ## Counting question marks -/

/-- How often a character stands in several texts. -/
def countIn (c : Char) (texts : List String) : Nat := (texts.flatMap (·.toList)).count c

theorem count_interleaved_mark (position : Nat) {texts : List String} (h : texts ≠ []) :
    (interleaved (fun _ => "?") position texts).toList.count '?' + 1
      = texts.length + countIn '?' texts := by
  induction texts generalizing position with
  | nil => exact absurd rfl h
  | cons s rest ih =>
    by_cases hrest : rest = []
    · rw [hrest]
      simp [interleaved, countIn]
      omega
    · -- One literal and one placeholder before the rest.
      have hmark : "?".toList.count '?' = 1 := rfl
      have hcons : countIn '?' (s :: rest) = s.toList.count '?' + countIn '?' rest := by
        rw [countIn, List.flatMap_cons, List.count_append, countIn]
      have hih := ih (position + 1) hrest
      rw [interleaved_cons hrest, String.toList_append, String.toList_append, List.count_append,
        List.count_append, hmark, hcons, List.length_cons]
      omega

theorem countIn_eq_zero {c : Char} {texts : List String} :
    countIn c texts = 0 ↔ ∀ s ∈ texts, c ∉ s.toList := by
  rw [countIn, List.count_eq_zero]
  simp [List.mem_flatMap]

theorem Dialect.quotesPlainly_of_builtIn {d : Dialect} (h : d ∈ builtIn) : d.QuotesPlainly := by
  have hquote : d.quote ≠ '?' := by
    simp only [builtIn, List.mem_cons, List.not_mem_nil, or_false] at h
    rcases h with rfl | rfl | rfl | rfl <;> decide
  intro ident hident hmark
  rw [(usual_of_builtIn h).quoted_eq, Quoted.text, String.toList_ofList] at hmark
  rcases Quoted.mem_quoted hmark with hmark | hmark
  · exact hquote hmark.symm
  · exact hident hmark

/-! ## Building only appends -/

namespace Statement

/-- What the table of the statement is written from. -/
def tableSources (st : Statement) : List Source :=
  match st.tableExpr with
  | some e => e.sources st.scope
  | none => [.text st.table]

theorem drawnFrom_tableFragment (st : Statement) :
    st.tableFragment.DrawnFrom st.dialect st.tableSources := by
  cases hexpr : st.tableExpr with
  | some e =>
    have hfragment : st.tableFragment = e.fragment st.scope := by rw [tableFragment, hexpr]
    have hsources : st.tableSources = e.sources st.scope := by rw [tableSources, hexpr]
    rw [hfragment, hsources]
    exact e.drawnFrom
  | none =>
    have hsources : st.tableSources = [.text st.table] := by rw [tableSources, hexpr]
    rw [hsources, tableFragment, hexpr]
    dsimp only
    split
    · exact .singleton trivial
    · have hquoted : (st.scope.quoted st.table).DrawnFrom st.scope.dialect [.text st.table] :=
        Scope.drawnFrom_quoted (List.mem_singleton_self _)
      exact .singleton hquoted

/-- What it means that a way to build appends the fragment `f`, with the table of the statement in
its place, and that `f` is written from the given sources. -/
structure Appends (st : Statement) (build : Statement → Statement) (f : Fragment)
    (sources : List Source) : Prop where
  /-- Text, values and errors are added at the end, the same ones whatever the output is. -/
  output : ∀ o : Output,
    build { st with output := o } =
      { st with
        output :=
          { o with
            sql := o.sql ++ interleaved st.dialect.mark o.values.length (st.resolved f).literals
            values := o.values ++ (st.resolved f).values
            errors := o.errors ++ (st.resolved f).faults } }
  /-- There is a placeholder between each two literals, and one for each value. -/
  literals_length : (st.resolved f).literals.length = (st.resolved f).values.length + 1
  /-- Literals are made of words of SQL and of the names and texts that are given. -/
  literals : ∀ s ∈ (st.resolved f).literals, Literal st.dialect (st.tableSources ++ sources) s
  /-- Values are those that are given. -/
  values : ∀ v ∈ (st.resolved f).values, .value v ∈ st.tableSources ++ sources
  /-- Where placeholders are question marks, there are as many of these as there are values exactly
  if no literal has one. -/
  marks : st.dialect.name ≠ "postgres" → ∀ position,
    ((interleaved st.dialect.mark position (st.resolved f).literals).toList.count '?'
        = (st.resolved f).values.length
      ↔ ∀ s ∈ (st.resolved f).literals, '?' ∉ s.toList)
  /-- None has one if none is given: neither in a name nor in raw SQL, apart from those that
  arguments are put in the place of. -/
  unmarked : (∀ t, .text t ∈ st.tableSources ++ sources → '?' ∉ t.toList) →
    ∀ s ∈ (st.resolved f).literals, '?' ∉ s.toList

/-- A fragment that is drawn from the sources is appended, on a built-in dialect. -/
theorem appends_of_write {st : Statement} {build : Statement → Statement} {f : Fragment}
    {sources : List Source} (hd : st.dialect ∈ Dialect.builtIn)
    (ht : st.tableFragment.mentionsTable = false) (hf : f.DrawnFrom st.dialect sources)
    (hbuild : ∀ o : Output, build { st with output := o } = ({ st with output := o }).write f) :
    st.Appends build f sources := by
  have hdrawn : (st.resolved f).DrawnFrom st.dialect (st.tableSources ++ sources) :=
    hf.withTable st.drawnFrom_tableFragment
  exact {
    output := fun o => by
      have hwrite := ({ st with output := o } : Statement).write_eq f ht
      rw [hbuild o, hwrite, ← Dialect.marks_of_builtIn hd (o.values ++ (st.resolved f).values)]
      rfl
    literals_length := Fragment.literals_length _
    literals := hdrawn.literals
    values := hdrawn.values
    marks := fun hname position => by
      have hmark : st.dialect.mark = fun _ => "?" := by
        funext n
        rw [Dialect.mark, if_neg hname]
      -- Question marks are those of the literals and one for each placeholder between them.
      have hcount := count_interleaved_mark position (Fragment.literals_ne_nil (st.resolved f))
      have hlength := Fragment.literals_length (st.resolved f)
      rw [hmark, ← countIn_eq_zero]
      omega
    unmarked := fun hsources s hs =>
      (hdrawn.literals s hs).mark_notMem (Dialect.quotesPlainly_of_builtIn hd) hsources }

/-- Building an expression, the negated form of an expression, the body of a clause or a clause
without a writer of its own appends what is written of it, from its own names, texts and values and
those of the table. -/
theorem building_only_appends (st : Statement) (hd : st.dialect ∈ Dialect.builtIn)
    (ht : ∀ e, st.tableExpr = some e → (e.fragment st.scope).mentionsTable = false) :
    (∀ e : Expression,
        st.Appends (·.writeExpression e) (e.fragment st.scope) (e.sources st.scope))
      ∧ (∀ (e : Expression) (f : Fragment), (e.forms st.scope).negative = some f →
          st.Appends (fun s => (s.writeNegation e).2) f (e.sources st.scope))
      ∧ (∀ b : Clause.Body,
          st.Appends (·.write (b.fragment st.scope)) (b.fragment st.scope) (b.sources st.scope))
      ∧ (∀ (name : String) (c : Clause), c.writer = none →
          st.Appends (fun s => s.write (s.clauseFragment name c))
            (c.toParts.fragment st.scope) (c.toParts.sources st.scope)) := by
  have htable := st.tableFragment_mentionsTable ht
  refine ⟨fun e => ?_, fun e f hf => ?_, fun b => ?_, fun name c hc => ?_⟩
  · exact appends_of_write hd htable e.drawnFrom fun _ => rfl
  · -- The form that is written depends on the scope, which is the same whatever the output is.
    apply appends_of_write hd htable ((e.drawnFrom_forms st.scope).negative f hf)
    intro o
    have hscope : ({ st with output := o } : Statement).scope = st.scope := rfl
    rw [writeNegation, hscope, hf]
  · exact appends_of_write hd htable b.drawnFrom fun _ => rfl
  · -- No built-in dialect writes a clause itself, so without a writer the parts are written.
    apply appends_of_write hd htable c.toParts.drawnFrom
    intro o
    have hclause : ({ st with output := o } : Statement).clauseFragment name c
        = c.toParts.fragment st.scope := by
      rw [clauseFragment, Dialect.clauseWriter_of_builtIn hd, Clause.fragment, hc]
      rfl
    rw [hclause]

/-- A statement of PostgreSQL over a subquery with a value of its own, after one value was bound. -/
def overSubquery : Statement :=
  { dialect := .postgres
    tableExpr := some (.sql "(SELECT ?)" [.value (.int 7)])
    output := { sql := "SELECT $1", values := [.bool true] } }

/-- The subquery is numbered on from the value before it, and the comparison from the subquery. The
value that is a question mark is bound, so that none is left in the text. -/
theorem building_only_appends_over_subquery :
    let e : Expression := .compare .eq (.ofCurrentTable "a") (.value (.text "?"))
    overSubquery.dialect ∈ Dialect.builtIn
      ∧ (∀ e, overSubquery.tableExpr = some e →
          (e.fragment overSubquery.scope).mentionsTable = false)
      ∧ (overSubquery.writeExpression e).output
        = { sql := "SELECT $1(SELECT $2).\"a\" = $3"
            values := [.bool true, .int 7, .text "?"] }
      ∧ ∀ s ∈ (overSubquery.resolved (e.fragment overSubquery.scope)).literals, '?' ∉ s.toList := by
  intro e
  have hd : overSubquery.dialect ∈ Dialect.builtIn := by simp [overSubquery, Dialect.builtIn]
  have ht : ∀ e, overSubquery.tableExpr = some e →
      (e.fragment overSubquery.scope).mentionsTable = false := by
    intro e he
    cases he
    rfl
  have happends := (building_only_appends overSubquery hd ht).1 e
  have houtput := happends.output overSubquery.output
  refine ⟨hd, ht, congrArg Statement.output houtput, happends.unmarked ?_⟩
  -- The texts are the subquery without the mark of its argument, and the name of the column.
  have hsources : overSubquery.tableSources ++ e.sources overSubquery.scope
      = [.text "(SELECT )", .value (.int 7), .table, .text "a", .value (.text "?")] := rfl
  intro t ht
  rw [hsources] at ht
  simp only [List.mem_cons, List.not_mem_nil, or_false, Source.text.injEq, reduceCtorEq,
    false_or] at ht
  rcases ht with rfl | rfl <;> decide

end Statement

end RecordSql
