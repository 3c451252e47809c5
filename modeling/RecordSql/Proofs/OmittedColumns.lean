/-
  RecordSql.Proofs.OmittedColumns

  What is selected where columns are left out.  Of the columns of a schema
  those remain whose owner is read and that are not left out
  (`Layout.Remains`).  They are written in their order, each with the table of
  the statement in front of it.

  But a star stands for all columns, those that are left out among them, and
  there are two ways to come by one.  It is written in the place of the columns
  where none remains, and a column with the name of the star has no quotes.  In
  all other cases nothing but the columns that remain is selected.
-/

import RecordSql.Proofs.DanglingKeywords
import RecordSql.Proofs.Owners

namespace RecordSql

/-! ## The columns that remain -/

namespace Layout

/-- A column that remains when some are left out: it is none of them, and its owner is read. -/
structure Remains (l : Layout) (omits : List String) (column : String) : Prop where
  listed : column ∈ l.dbNames
  kept : column ∉ omits
  readable : ∃ position f, OwnerOf l.fields column position f ∧ f.readable = true

/-- The columns that remain, in their order. -/
def remaining (l : Layout) (omits : List String) : List String :=
  (l.columnsWhere (·.readable)).filter (!omits.contains ·)

variable {l : Layout} {omits : List String} {column : String}

theorem remaining_sublist (l : Layout) (omits : List String) :
    (l.remaining omits).Sublist l.dbNames :=
  List.filter_sublist.trans List.filter_sublist

theorem Assembled.mem_remaining_iff (h : l.Assembled) :
    column ∈ l.remaining omits ↔ l.Remains omits column := by
  rw [remaining, List.mem_filter, h.mem_columnsWhere_iff, Bool.not_eq_true',
    List.contains_eq_mem, decide_eq_false_iff_not]
  constructor
  · rintro ⟨⟨hlisted, hreadable⟩, hkept⟩
    exact ⟨hlisted, hkept, hreadable⟩
  · rintro ⟨hlisted, hkept, hreadable⟩
    exact ⟨⟨hlisted, hreadable⟩, hkept⟩

end Layout

/-! ## What is written of them -/

/-- A piece stands in one of the fragments that are joined, unless it is a separator. -/
theorem Fragment.mem_joined_iff {p : Piece} {separator : String} (hp : p ≠ .text separator)
    (fs : List Fragment) : p ∈ Fragment.joined separator fs ↔ ∃ f ∈ fs, p ∈ f := by
  induction fs with
  | nil => simp [joined]
  | cons f fs ih =>
    cases fs with
    | nil => simp [joined]
    | cons g fs =>
      have hstep :
          p ∈ joined separator (f :: g :: fs) ↔ p ∈ f ∨ p ∈ joined separator (g :: fs) := by
        rw [joined, List.mem_append, List.mem_cons, or_iff_right hp]
        exact fun h => List.cons_ne_nil _ _ h
      rw [hstep, ih, List.exists_mem_cons_iff _ f]

namespace Scope

/-- A column of the table of the statement, between quotes. -/
def ownColumn (s : Scope) (name : String) : Fragment := [.currentTable, .text ".", s.quoted name]

/-- Such a column as a selection writes it: the one with the name of the star has no quotes. -/
def selectedColumn (s : Scope) (name : String) : Fragment :=
  if name = "*" then [.currentTable, .text ".", .text "*"] else s.ownColumn name

theorem fragment_ofCurrentTable (s : Scope) (name : String) :
    (Column.ofCurrentTable name).fragment s = s.selectedColumn name := by
  have hstar : (Name.ident name == Name.ident "*") = decide (name = "*") := by
    by_cases hname : name = "*"
    · rw [hname]; rfl
    · rw [decide_eq_false hname]
      exact beq_false_of_ne fun h => hname (Name.ident.inj h)
  rw [selectedColumn]
  show [.currentTable, .text ".",
    if (Name.ident name == Name.ident "*") = true then .text name else s.quoted name] = _
  rw [hstar]
  by_cases hname : name = "*"
  · rw [if_pos (decide_eq_true hname), if_pos hname, hname]
  · rw [if_neg (by simpa using hname), if_neg hname]
    rfl

section Quoted

variable {s : Scope} (hs : ∀ ident, s.dialect.quoted ident ≠ "*")

include hs

theorem star_notMem_ownColumn (name : String) : Piece.text "*" ∉ s.ownColumn name := by
  have hquoted : Piece.text "*" ≠ s.quoted name := fun h => hs name (Piece.text.inj h).symm
  simp [ownColumn, hquoted]

theorem star_mem_selectedColumn_iff (name : String) :
    Piece.text "*" ∈ s.selectedColumn name ↔ name = "*" := by
  rw [selectedColumn]
  by_cases hname : name = "*"
  · rw [if_pos hname]
    exact iff_of_true (by simp) hname
  · rw [if_neg hname]
    exact iff_of_false (star_notMem_ownColumn hs name) hname

end Quoted

end Scope

namespace Select

/-- Several columns of the table of the statement, and a star in the place of none. -/
def selection (s : Scope) (names : List String) : Fragment :=
  if names = [] then [.text "*"] else Fragment.joined "," (names.map s.selectedColumn)

theorem remaining_eq_selection {s : Scope} {l : Layout} (h : s.schema = some l)
    (omits : List String) : remaining s omits = selection s (l.remaining omits) := by
  have hfragments : columnList s ((l.remaining omits).map Column.ofCurrentTable)
      = Fragment.joined "," ((l.remaining omits).map s.selectedColumn) := by
    rw [columnList, List.map_map]
    exact congrArg _ (List.map_congr_left fun name _ => s.fragment_ofCurrentTable name)
  rw [remaining, h, selection, ← hfragments]
  exact if_congr List.isEmpty_iff rfl rfl

section Quoted

variable {s : Scope} (hs : ∀ ident, s.dialect.quoted ident ≠ "*")

include hs

/-- There is a star for all columns where there are none, and for a column with that name. -/
theorem star_mem_selection_iff (names : List String) :
    Piece.text "*" ∈ selection s names ↔ names = [] ∨ "*" ∈ names := by
  rw [selection]
  by_cases hnames : names = []
  · rw [if_pos hnames]
    exact iff_of_true (List.mem_singleton_self _) (.inl hnames)
  · rw [if_neg hnames, or_iff_right hnames, Fragment.mem_joined_iff (by simp)]
    simp only [List.mem_map, exists_exists_and_eq_and, Scope.star_mem_selectedColumn_iff hs,
      exists_eq_right]

theorem star_notMem_ownColumns (names : List String) :
    Piece.text "*" ∉ Fragment.joined "," (names.map s.ownColumn) := by
  rw [Fragment.mem_joined_iff (by simp)]
  rintro ⟨f, hf, hstar⟩
  obtain ⟨name, -, rfl⟩ := List.mem_map.mp hf
  exact Scope.star_notMem_ownColumn hs name hstar

/-- Without a star, the columns have quotes. -/
theorem selection_eq_iff (names : List String) :
    selection s names = Fragment.joined "," (names.map s.ownColumn)
      ↔ names ≠ [] ∧ "*" ∉ names := by
  rw [← not_or, ← star_mem_selection_iff hs]
  constructor
  · intro h
    rw [h]
    exact star_notMem_ownColumns hs names
  · intro hstar
    rw [star_mem_selection_iff hs, not_or] at hstar
    obtain ⟨hnames, hstar⟩ := hstar
    rw [selection, if_neg hnames]
    refine congrArg _ (List.map_congr_left fun name hname => ?_)
    have hne : name ≠ "*" := fun h => hstar (h ▸ hname)
    rw [Scope.selectedColumn, if_neg hne]

end Quoted

end Select

namespace Statement

/-- Let a statement with a schema have a SELECT clause that has columns to leave out, and neither columns
nor an expression, in a dialect that writes it in the usual way and quotes no identifier as a star. The
columns that remain are written in their order, each with the table of the statement in front of it. But
where none remains a star is written, and the column with the name of the star has no quotes. So exactly
the columns that remain are selected, and none through a star, if and only if there is one and none has
that name. -/
theorem remaining_columns_selected_iff {catalog : Catalog} {ns : Naming} {ref : ModelRef}
    {table : Option String} {s : Schema} (h : Schema.parse catalog ns ref table = .ok s)
    {st : Statement} (hst : st.schema = some s.toLayout) {c : Select} (hcolumns : c.columns = [])
    (hexpression : c.expression = none) (homits : c.omits ≠ [])
    (hc : st.clause? "SELECT" = some (.holding (.select c)))
    (hwriter : st.dialect.clauseWriter "SELECT" = none)
    (hquoted : ∀ ident, st.dialect.quoted ident ≠ "*") :
    ∃ (names : List String) (selected : Fragment),
      names.Sublist s.dbNames ∧ (∀ column, column ∈ names ↔ s.Remains c.omits column)
      ∧ st.build ["SELECT"] = st.write (.text st.gap :: .text "SELECT " ::
          ((if c.distinct then [.text "DISTINCT "] else []) ++ selected))
      ∧ selected = Select.selection st.scope names
      ∧ (selected = Fragment.joined "," (names.map st.scope.ownColumn)
          ↔ (∃ column, s.Remains c.omits column) ∧ ¬ s.Remains c.omits "*")
      ∧ (Piece.text "*" ∈ selected
          ↔ (¬ ∃ column, s.Remains c.omits column) ∨ s.Remains c.omits "*") := by
  have hassembled : s.toLayout.Assembled := (Schema.assembled_of_parse h).1
  have hremains (column : String) :
      column ∈ s.remaining c.omits ↔ s.Remains c.omits column := hassembled.mem_remaining_iff
  have hsome : s.remaining c.omits ≠ [] ↔ ∃ column, s.Remains c.omits column := by
    rw [← exists_congr hremains]
    exact ⟨List.exists_mem_of_ne_nil _, fun ⟨_, hcolumn⟩ => List.ne_nil_of_mem hcolumn⟩
  refine ⟨s.remaining c.omits, _, s.remaining_sublist c.omits, hremains, ?_, rfl, ?_, ?_⟩
  · have hfragment : c.fragment st.scope = (if c.distinct then [.text "DISTINCT "] else [])
        ++ Select.selection st.scope (s.remaining c.omits) := by
      have hnone : ¬ (!c.columns.isEmpty) = true := by rw [hcolumns]; exact Bool.false_ne_true
      have hsome : (!c.omits.isEmpty) = true := by simpa using homits
      rw [Select.fragment, hexpression, ← Select.remaining_eq_selection hst]
      dsimp only
      rw [if_neg hnone, if_pos hsome]
    rw [build_singleton st (by decide) (by decide), writeClause_holding hc rfl hwriter]
    show st.write (.text st.gap :: ([.text "SELECT "] ++ c.fragment st.scope)) = _
    rw [hfragment]
    rfl
  · rw [Select.selection_eq_iff hquoted, hsome, hremains]
  · rw [Select.star_mem_selection_iff hquoted, ← hsome, hremains, not_not]

/-- An account has a secret that is not read. -/
def accounts : Catalog :=
  ⟨[ ( "Account",
      { name := "Account"
        fields :=
          [ { name := "ID", kind := .uint 64 }
          , { name := "Name", kind := .string }
          , { name := "Secret", kind := .string, tag := "->:false" } ] } ) ]⟩

/-- When the number and the name are left out nothing remains, and all columns are selected, the secret
among them. -/
theorem remaining_columns_selected_iff_accounts :
    ∃ s, Schema.parse accounts {} ⟨"Account", "Account"⟩ none = .ok s
      ∧ s.dbNames = ["id", "name", "secret"]
      ∧ (∀ column, ¬ s.Remains ["id", "name"] column)
      ∧ (((Statement.withSchema { dialect := .mysql } s.toLayout).addClause
          (.select { omits := ["id", "name"] })).build ["SELECT"]).output.sql = "SELECT *" := by
  have hparsed : ((Schema.parse accounts {} ⟨"Account", "Account"⟩ none).toOption.map fun s =>
      decide (s.dbNames = ["id", "name", "secret"]
        ∧ ∀ f ∈ s.fields, f.dbName = "secret" → f.readable = false))
      = some true := by decide +kernel
  obtain ⟨s, hs, hfacts⟩ := Option.map_eq_some_iff.mp hparsed
  obtain ⟨hnames, hsecret⟩ := of_decide_eq_true hfacts
  have hok : Schema.parse accounts {} ⟨"Account", "Account"⟩ none = .ok s := ok_of_toOption hs
  have hnone (column : String) : ¬ s.Remains ["id", "name"] column := by
    rintro ⟨hlisted, hkept, position, f, hf, hreadable⟩
    have hcolumn : column = "id" ∨ column = "name" ∨ column = "secret" := by
      simpa [hnames] using hlisted
    obtain rfl | rfl | rfl := hcolumn
    · exact hkept (by decide)
    · exact hkept (by decide)
    · have hunread := hsecret f (List.mem_of_getElem? hf.contends.field) hf.contends.column_eq
      rw [hreadable] at hunread
      cases hunread
  let st := (Statement.withSchema { dialect := .mysql } s.toLayout).addClause
    (.select { omits := ["id", "name"] })
  have hst : st.schema = some s.toLayout := rfl
  have hc : st.clause? "SELECT" = some (.holding (.select { omits := ["id", "name"] })) := rfl
  have hquoted : ∀ ident, st.dialect.quoted ident ≠ "*" :=
    (Dialect.usual_of_builtIn (by simp [st, Statement.withSchema, Statement.addClause,
      Statement.withClause, Dialect.builtIn])).quoted_ne_star
  obtain ⟨names, selected, -, hremain, hbuild, hselected, -, -⟩ :=
    remaining_columns_selected_iff hok hst rfl rfl (List.cons_ne_nil _ _) hc rfl hquoted
  have hempty : names = [] :=
    List.eq_nil_iff_forall_not_mem.mpr fun column hcolumn => hnone column ((hremain column).mp hcolumn)
  refine ⟨s, hok, hnames, hnone, ?_⟩
  show (st.build ["SELECT"]).output.sql = _
  rw [hbuild, hselected, hempty]
  rfl

end Statement

end RecordSql
