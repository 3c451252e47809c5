/-
  RecordSql.Proofs.TableMentions

  Where a mention of the table comes from.  An expression names the table by
  the columns and the tables in it (`Expression.namesTable`); texts, values and
  errors do not.  Without such a name the table is not among the sources of the
  expression, and so nothing that is written of it mentions the table, in neither
  of its forms (`Expression.mentionsTable_forms`).

  The other way round does not hold: an argument that is left over, without a
  placeholder for it, is not written.
-/

import RecordSql.Proofs.Sources.Expression

namespace RecordSql

/-! ## Names -/

/-- A column that is, or is of, the table of the statement. -/
def Column.namesTable (c : Column) : Bool := c.table == some .currentTable || c.name == .currentTable

/-- A table that is the table of the statement. -/
def Table.namesTable (t : Table) : Bool := t.name == .currentTable

mutual
/-- Whether the argument names the table. -/
def Arg.namesTable : Arg → Bool
  | .value _ => false
  | .list items => Arg.anyNamesTable items
  | .column c => c.namesTable
  | .table t => t.namesTable
  | .expr e => Expression.namesTable e
  | .named _ arg => Arg.namesTable arg
  | .map entries => Arg.entriesNameTable entries

/-- Whether one of several arguments names the table. -/
def Arg.anyNamesTable : List Arg → Bool
  | [] => false
  | a :: as => Arg.namesTable a || Arg.anyNamesTable as

/-- Whether one of several arguments by name names the table. -/
def Arg.entriesNameTable : List (String × Arg) → Bool
  | [] => false
  | (_, a) :: rest => Arg.namesTable a || Arg.entriesNameTable rest

/-- Whether a branch of a case distinction names the table. -/
def Branch.anyNamesTable : List Branch → Bool
  | [] => false
  | .mk _ _ args :: rest => Arg.anyNamesTable args || Branch.anyNamesTable rest

/-- Whether the expression names the table. -/
def Expression.namesTable : Expression → Bool
  | .compare _ column arg => column.namesTable || Arg.namesTable arg
  | .member column args => column.namesTable || Arg.anyNamesTable args
  | .raw _ args _ => Arg.anyNamesTable args
  | .named _ args => Arg.anyNamesTable args
  | .and children => Expression.anyNamesTable children
  | .or children => Expression.anyNamesTable children
  | .not children => Expression.anyNamesTable children
  | .case branches none => Branch.anyNamesTable branches
  | .case branches (some (_, args)) => Branch.anyNamesTable branches || Arg.anyNamesTable args
  | .comma children => Expression.anyNamesTable children

/-- Whether one of several expressions names the table. -/
def Expression.anyNamesTable : List Expression → Bool
  | [] => false
  | e :: es => Expression.namesTable e || Expression.anyNamesTable es
end

/-! ## Sources without the table -/

section Names

variable (s : Scope)

theorem Name.table_notMem_sources {name : Name} (h : name ≠ .currentTable) :
    Source.table ∉ name.sources s := by
  cases name with
  | currentTable => exact absurd rfl h
  | _ => simp [sources, Scope.keySources]

theorem Column.table_notMem_sources {c : Column} (h : c.namesTable = false) :
    Source.table ∉ c.sources s := by
  rw [namesTable, Bool.or_eq_false_iff, beq_eq_false_iff_ne, beq_eq_false_iff_ne] at h
  obtain ⟨htable, hname⟩ := h
  rw [sources, List.mem_append, List.mem_append, not_or, not_or]
  refine ⟨⟨fun hmem => ?_, Name.table_notMem_sources s hname⟩, by simp⟩
  obtain ⟨table, hqualified, hmem⟩ := List.mem_flatMap.mp hmem
  have hne : table ≠ .currentTable := by
    rintro rfl
    exact htable (Option.mem_toList.mp hqualified)
  exact Name.table_notMem_sources s hne hmem

theorem Table.table_notMem_sources {t : Table} (h : t.namesTable = false) :
    Source.table ∉ t.sources s := by
  rw [namesTable, beq_eq_false_iff_ne] at h
  rw [sources, List.mem_append, not_or]
  exact ⟨Name.table_notMem_sources s h, by simp⟩

theorem Arg.table_notMem_listSources (items : List Arg) : Source.table ∉ Arg.listSources items := by
  simp [Arg.listSources]

end Names

mutual
theorem Arg.table_notMem_sources (s : Scope) : (a : Arg) → a.namesTable = false →
    Source.table ∉ a.sources s
  | .value v, _ => by simp [Arg.sources]
  | .list items, h =>
    List.not_mem_append (Arg.table_notMem_listSources items) (Arg.table_notMem_allSources s items h)
  | .column c, h => c.table_notMem_sources s h
  | .table t, h => t.table_notMem_sources s h
  | .expr e, h => Expression.table_notMem_sources s e h
  | .named _ arg, h => Arg.table_notMem_sources s arg h
  | .map entries, h => Arg.table_notMem_entrySources s entries h

theorem Arg.table_notMem_allSources (s : Scope) : (args : List Arg) →
    Arg.anyNamesTable args = false → Source.table ∉ Arg.allSources s args
  | [], _ => List.not_mem_nil
  | a :: as, h => by
    rw [Arg.anyNamesTable, Bool.or_eq_false_iff] at h
    exact List.not_mem_append (Arg.table_notMem_sources s a h.1) (Arg.table_notMem_allSources s as h.2)

theorem Arg.table_notMem_entrySources (s : Scope) : (entries : List (String × Arg)) →
    Arg.entriesNameTable entries = false → Source.table ∉ Arg.entrySources s entries
  | [], _ => List.not_mem_nil
  | (_, a) :: rest, h => by
    rw [Arg.entriesNameTable, Bool.or_eq_false_iff] at h
    exact List.not_mem_append (Arg.table_notMem_sources s a h.1)
      (Arg.table_notMem_entrySources s rest h.2)

theorem Branch.table_notMem_allSources (s : Scope) : (branches : List Branch) →
    Branch.anyNamesTable branches = false → Source.table ∉ Branch.allSources s branches
  | [], _ => List.not_mem_nil
  | .mk _ _ args :: rest, h => by
    rw [Branch.anyNamesTable, Bool.or_eq_false_iff] at h
    exact List.not_mem_append (Arg.table_notMem_allSources s args h.1)
      (Branch.table_notMem_allSources s rest h.2)

theorem Expression.table_notMem_sources (s : Scope) : (e : Expression) → e.namesTable = false →
    Source.table ∉ e.sources s
  | .compare _ column arg, h => by
    rw [Expression.namesTable, Bool.or_eq_false_iff] at h
    exact List.not_mem_append (column.table_notMem_sources s h.1) (Arg.table_notMem_sources s arg h.2)
  | .member column args, h => by
    rw [Expression.namesTable, Bool.or_eq_false_iff] at h
    exact List.not_mem_append (column.table_notMem_sources s h.1)
      (Arg.table_notMem_allSources s args h.2)
  | .raw _ args _, h => List.not_mem_cons_of_ne_of_not_mem nofun (Arg.table_notMem_allSources s args h)
  | .named _ args, h => List.not_mem_cons_of_ne_of_not_mem nofun (Arg.table_notMem_allSources s args h)
  | .and children, h => Expression.table_notMem_allSources s children h
  | .or children, h => Expression.table_notMem_allSources s children h
  | .not children, h => Expression.table_notMem_allSources s children h
  | .case branches none, h =>
    List.not_mem_cons_of_ne_of_not_mem nofun (Branch.table_notMem_allSources s branches h)
  | .case branches (some (_, args)), h => by
    rw [Expression.namesTable, Bool.or_eq_false_iff] at h
    exact List.not_mem_cons_of_ne_of_not_mem nofun
      (List.not_mem_append (Branch.table_notMem_allSources s branches h.1)
        (Arg.table_notMem_allSources s args h.2))
  | .comma children, h => Expression.table_notMem_allSources s children h

theorem Expression.table_notMem_allSources (s : Scope) : (es : List Expression) →
    Expression.anyNamesTable es = false → Source.table ∉ Expression.allSources s es
  | [], _ => List.not_mem_nil
  | e :: es, h => by
    rw [Expression.anyNamesTable, Bool.or_eq_false_iff] at h
    exact List.not_mem_append (Expression.table_notMem_sources s e h.1)
      (Expression.table_notMem_allSources s es h.2)
end

/-- An expression that does not name the table mentions it in neither of its forms. -/
theorem Expression.mentionsTable_forms (s : Scope) {e : Expression} (h : e.namesTable = false) :
    (e.fragment s).mentionsTable = false
      ∧ ∀ f, (e.forms s).negative = some f → f.mentionsTable = false := by
  have hdrawn := e.drawnFrom_forms s
  have htable := e.table_notMem_sources s h
  exact ⟨hdrawn.positive.mentionsTable_eq_false htable,
    fun f hf => (hdrawn.negative f hf).mentionsTable_eq_false htable⟩

end RecordSql
