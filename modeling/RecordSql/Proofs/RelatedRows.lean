/-
  RecordSql.Proofs.RelatedRows

  The conditions on the rows related to some owners, whose keys are given.
  Related rows pass the tests that the references of a relationship ask for,
  constants and links to a join table, and have the values of one of the keys
  in the columns that are compared (`Relationship.selects`).

  What the WHERE clause of these conditions asks for is a case distinction on
  how many columns are compared with how many rows (`Relationship.asks`).  One
  column is a list of values, and several columns are an alternative of rows.
  An alternative of no row writes nothing, and one of a single row is joined
  by OR to the tests before it; so the clause asks for the related rows as
  long as neither happens (`Relationship.Intact`, `where_of_related_rows`).
-/

import RecordSql.Proofs.RowText
import RecordSql.Proofs.KeyFields
import RecordSql.Proofs.Cache.Calls

namespace RecordSql

open RowText

namespace Relationship

variable (r : Relationship)

/-! ## What related rows are asked -/

/-- What a reference asks of a related row: to pass a test, or to have a value that is given in a
column. -/
def demand (ref : Reference) : Test ⊕ Column :=
  let foreign : Column := .qualified r.targetTable ref.foreignKey.field.dbName
  let constant : Test := .value foreign (.text ref.primaryValue)
  if ref.ownPrimaryKey then .inr foreign
  else match ref.primaryKey with
    | none => .inl constant
    | some primary =>
      let key : Column := .qualified r.related.table primary.field.dbName
      if !ref.primaryValue.isEmpty then .inl constant
      else if r.joinTable.isSome then .inl (.columns foreign key)
      else .inr key

/-- The constant is empty, and is taken for none. -/
def isLeftOut (ref : Reference) : Bool :=
  !ref.ownPrimaryKey && ref.primaryKey.isNone && ref.primaryValue.isEmpty

/-- The tests that all related rows pass. -/
def tests : List Test := r.references.filterMap fun ref => (r.demand ref).getLeft?

/-- The tests among them that are written. -/
def writtenTests : List Test :=
  (r.references.filter (!isLeftOut ·)).filterMap fun ref => (r.demand ref).getLeft?

/-- The columns whose values are given. -/
def keyColumns : List Column := r.references.filterMap fun ref => (r.demand ref).getRight?

theorem queryPart_eq (ref : Reference) :
    r.queryPart ref
      = if isLeftOut ref then none else some ((r.demand ref).map Test.expression id) := by
  unfold queryPart demand isLeftOut
  cases ref.ownPrimaryKey with
  | true => rfl
  | false =>
    cases ref.primaryKey with
    | none => cases ref.primaryValue.isEmpty <;> rfl
    | some primary => cases ref.primaryValue.isEmpty <;> cases r.joinTable.isSome <;> rfl

/-- A constant that is left out is a test, not a column. -/
theorem getRight?_demand {ref : Reference} (h : isLeftOut ref = true) :
    (r.demand ref).getRight? = none := by
  rw [isLeftOut, Bool.and_eq_true, Bool.and_eq_true, Bool.not_eq_true'] at h
  obtain ⟨⟨hown, hprimary⟩, -⟩ := h
  rw [demand, hown, Option.isNone_iff_eq_none.mp hprimary]
  rfl

/-- The conditions are the tests that are written, followed by what the rows ask. -/
theorem queryConditions_eq (rows : List (List Value)) :
    r.queryConditions rows
      = r.writtenTests.map Test.expression ++ rowsCondition r.keyColumns rows := by
  unfold queryConditions writtenTests keyColumns
  dsimp only
  rw [List.filterMap_filterMap, List.filterMap_filterMap, List.map_filterMap,
    List.filterMap_filter]
  congr 2
  · funext ref
    rw [queryPart_eq]
    cases isLeftOut ref <;> cases r.demand ref <;> rfl
  · congr 1
    funext ref
    rw [queryPart_eq]
    cases h : isLeftOut ref with
    | false => cases r.demand ref <;> rfl
    | true => exact (r.getRight?_demand h).symm

/-! ## What the rows are -/

/-- The row has the given values, column by column. -/
def rowHolds (F : Facts) (columns : List Column) (row : List Value) : Bool :=
  (columns.zip row).all fun (column, v) => F.hasValue column v

/-- The related rows: they pass all tests and have the values of one of the given rows. -/
def selects (rows : List (List Value)) (F : Facts) : Bool :=
  r.tests.all (·.holds F) && rows.any (rowHolds F r.keyColumns)

/-- What the conditions ask for. Where several columns are compared, no row is asked for as if it
did not matter, and one row is an alternative to the tests. -/
def asks (rows : List (List Value)) (F : Facts) : Bool :=
  let passes := r.writtenTests.all (·.holds F)
  let hasRow := rows.any (rowHolds F r.keyColumns)
  match r.keyColumns, rows with
  | [], _ => passes
  | _ :: _ :: _, [] => passes
  | _ :: _ :: _, [_] => if r.writtenTests.isEmpty then hasRow else passes || hasRow
  | _, _ => passes && hasRow

/-- Nothing that is asked gets lost: every constant is written, and several columns are compared
with two rows or more, or with one row and nothing besides. -/
def Intact (rows : List (List Value)) : Prop :=
  (∀ ref ∈ r.references, isLeftOut ref = false)
    ∧ (r.keyColumns.length = 1
      ∨ (r.keyColumns.length = 0 ∧ r.tests.length ≠ 0 ∧ rows.length ≠ 0)
      ∨ (1 < r.keyColumns.length ∧ (1 < rows.length ∨ rows.length = 1 ∧ r.tests.length = 0)))

instance (rows : List (List Value)) : Decidable (r.Intact rows) :=
  inferInstanceAs (Decidable (_ ∧ _))

/-! ## One row -/

theorem conjunction_eq_and {es : List Expression} (h : 1 < es.length) :
    Expression.conjunction es = .and es := by
  match es, h with
  | e :: _ :: _, _ => cases e <;> rfl

variable {s : Scope} {columns : List Column} {row : List Value} {rows : List (List Value)}

/-- The condition that several columns have the values of a row. -/
def rowExpression (columns : List Column) (row : List Value) : Expression :=
  .conjunction ((columns.zip row).map fun (column, v) => .compare .eq column (.value v))

theorem rowExpression_eq_and (hmany : 1 < columns.length) (hlength : row.length = columns.length) :
    rowExpression columns row
      = .and ((columns.zip row).map fun p => (Test.value p.1 p.2).expression) := by
  rw [rowExpression, conjunction_eq_and]
  · rfl
  · rw [List.length_map, List.length_zip]
    omega

theorem isTerm_rowExpression (hmany : 1 < columns.length) (hlength : row.length = columns.length)
    (hnull : ∀ v ∈ row, v.isNull = false) :
    IsTerm s ((rowExpression columns row).fragment s) (rowHolds · columns row) := by
  rw [rowExpression_eq_and hmany hlength]
  refine Expression.isTerm_and (fun F (p : Column × Value) => F.hasValue p.1 p.2) ?_
    (fun p _ => Test.bare _) fun p hp => ?_
  · rw [List.length_zip]
    omega
  · have hplain : (Test.value p.1 p.2).Plain := hnull p.2 (List.of_mem_zip hp).2
    rw [Test.fragment_expression s hplain]
    exact isTerm_test _

theorem bare_rowExpression (hmany : 1 < columns.length) (hlength : row.length = columns.length) :
    (rowExpression columns row).Bare := by
  rw [rowExpression_eq_and hmany hlength]
  match columns, row, hmany, hlength with
  | _ :: _ :: _, _ :: _ :: _, _, _ => exact ⟨rfl, rfl, fun _ => rfl⟩

/-- Where one column is compared, each row is one value. -/
theorem any_heads (F : Facts) {column : Column} (hlength : ∀ row ∈ rows, row.length = 1) :
    (rows.filterMap List.head?).any (F.hasValue column) = rows.any (rowHolds F [column]) := by
  induction rows with
  | nil => rfl
  | cons row rows ih =>
    obtain ⟨hrow, hrows⟩ := List.forall_mem_cons.mp hlength
    obtain ⟨v, rfl⟩ := List.length_eq_one_iff.mp hrow
    have hone : rowHolds F [column] [v] = F.hasValue column v := Bool.and_true _
    rw [List.filterMap_cons, List.any_cons, hone, ← ih hrows]
    rfl

/-! ## The WHERE clause -/

/-- The tests are comparisons that stand beside others as they are. -/
theorem plain_writtenTests {t : Test} (ht : t ∈ r.writtenTests) : t.Plain := by
  obtain ⟨ref, -, href⟩ := List.mem_filterMap.mp ht
  unfold demand at href
  dsimp only at href
  split at href
  · cases href
  · split at href
    · cases href
      rfl
    · split at href
      · cases href
        rfl
      · split at href
        · cases href
          trivial
        · cases href

theorem bare_tests (ts : List Test) : ∀ e ∈ ts.map Test.expression, e.Bare :=
  List.forall_mem_map.mpr fun t _ => t.bare

theorem tests_ne_and (ts : List Test) (children : List Expression) :
    ts.map Test.expression ≠ [.and children] := by
  intro heq
  have hhead : (ts.map Test.expression).head? = some (.and children) := by rw [heq]; rfl
  rw [List.head?_map] at hhead
  obtain ⟨t, -, ht⟩ := Option.map_eq_some_iff.mp hhead
  cases t <;> cases ht

/-- Tests alone. -/
theorem isConjunction_tests {ts : List Test} (hne : ts ≠ []) (hts : ∀ t ∈ ts, t.Plain) :
    IsConjunction s (Fragment.joined " AND " ((ts.map Test.expression).map (Expression.fragment s)))
      (fun F => ts.all (·.holds F)) := by
  rw [List.map_map]
  refine isConjunction_joined Test.holds hne fun t ht => ?_
  rw [Function.comp_apply, Test.fragment_expression s (hts t ht)]
  exact isTerm_test t

/-- Tests and a condition after them. -/
theorem isConjunction_tests_append {ts : List Test} (hts : ∀ t ∈ ts, t.Plain) {e : Expression}
    {m : Facts → Bool} (hbare : e.Bare) (hand : ∀ children, e ≠ .and children)
    (h : IsTerm s (e.fragment s) m) :
    IsConjunction s ((Where.mk (ts.map Test.expression ++ [e])).fragment s)
      (fun F => ts.all (·.holds F) && m F) := by
  have hflat : ∀ children, ts.map Test.expression ++ [e] ≠ [.and children] := fun children heq => by
    have hlast := congrArg List.getLast? heq
    rw [List.getLast?_append, List.getLast?_singleton] at hlast
    exact hand children (Option.some.inj hlast)
  have hall : ∀ d ∈ ts.map Test.expression ++ [e], d.Bare := fun d hd => by
    rcases List.mem_append.mp hd with hd | hd
    · exact bare_tests ts d hd
    · exact List.mem_singleton.mp hd ▸ hbare
  rw [Where.fragment_of_bare hflat hall, List.map_append]
  cases ts with
  | nil =>
    simp only [List.all_nil, Bool.true_and]
    exact h.isConjunction
  | cons t ts =>
    have htests := isConjunction_tests (s := s) (List.cons_ne_nil t ts) hts
    have hjoined := htests.and h
    simp only [List.map_cons, List.cons_append, List.map_nil, Fragment.joined_cons,
      List.flatMap_append, List.flatMap_singleton, List.append_assoc] at hjoined ⊢
    exact hjoined

theorem allEmpty_tests_iff (ts : List Test) :
    Expression.allEmpty (ts.map Test.expression) = true ↔ ts = [] := by
  cases ts with
  | nil => exact ⟨fun _ => rfl, fun _ => rfl⟩
  | cons t ts =>
    rw [List.map_cons, Expression.allEmpty, t.bare.isEmpty, Bool.false_and]
    exact ⟨fun h => (Bool.false_ne_true h).elim, fun h => (List.cons_ne_nil t ts h).elim⟩

theorem allEmpty_rowsCondition_iff (hlength : ∀ row ∈ rows, row.length = columns.length) :
    Expression.allEmpty (rowsCondition columns rows) = true
      ↔ columns = [] ∨ 1 < columns.length ∧ rows = [] := by
  match columns, rows, hlength with
  | [], rows, _ => exact ⟨fun _ => .inl rfl, fun _ => rfl⟩
  | [column], rows, _ => simp [rowsCondition, Expression.allEmpty, Expression.isEmpty]
  | column :: other :: columns, [], _ => simp [rowsCondition, Expression.allEmpty, Expression.isEmpty]
  | column :: other :: columns, row :: rows, hlength =>
    have hrow : (rowExpression (column :: other :: columns) row).isEmpty = false :=
      (bare_rowExpression (by simp) (hlength row (List.mem_cons_self ..))).isEmpty
    have hwritten : Expression.allEmpty (rowsCondition (column :: other :: columns) (row :: rows))
        = false := by
      show (((rowExpression (column :: other :: columns) row).isEmpty && _) && true) = false
      rw [hrow]
      rfl
    simp [hwritten]

/-- The WHERE clause writes nothing exactly if no test is written and no row is. -/
theorem where_isEmpty_iff (hlength : ∀ row ∈ rows, row.length = r.keyColumns.length) :
    (Where.mk (r.queryConditions rows)).isEmpty = true
      ↔ r.writtenTests = [] ∧ (r.keyColumns = [] ∨ 1 < r.keyColumns.length ∧ rows = []) := by
  rw [queryConditions_eq, Where.isEmpty, Expression.allEmpty_append, Bool.and_eq_true,
    allEmpty_tests_iff, allEmpty_rowsCondition_iff hlength]

/-! ## One way to write it at a time -/

section Ways

variable {ts : List Test} (hts : ∀ t ∈ ts, t.Plain)
include hts

/-- No column is compared: the tests are all that is asked. -/
theorem where_tests (hne : ts ≠ []) :
    IsAlternatives s ((Where.mk (ts.map Test.expression)).fragment s)
      (fun F => ts.all (·.holds F)) := by
  rw [Where.fragment_of_bare (tests_ne_and ts) (bare_tests ts)]
  exact (isConjunction_tests hne hts).isAlternatives

/-- One column is compared with a list of values, which may be empty. -/
theorem where_tests_member (column : Column) (vs : List Value) :
    IsAlternatives s
      ((Where.mk (ts.map Test.expression ++ [.member column (vs.map .value)])).fragment s)
      (fun F => ts.all (·.holds F) && vs.any (F.hasValue column)) := by
  have hmember : IsTerm s ((Expression.member column (vs.map .value)).fragment s)
      (fun F => vs.any (F.hasValue column)) := by
    rw [Test.fragment_member]
    exact ⟨.test (.ofMember column vs), rfl, fun F => Test.holds_ofMember F column vs⟩
  exact (isConjunction_tests_append hts ⟨rfl, rfl, fun _ => rfl⟩ (fun _ h => by cases h)
    hmember).isAlternatives

/-- Several columns are compared with no row, which leaves the tests. -/
theorem where_tests_noRow (hne : ts ≠ []) :
    IsAlternatives s ((Where.mk (ts.map Test.expression ++ [.or []])).fragment s)
      (fun F => ts.all (·.holds F)) := by
  rw [Where.fragment_append_emptyOr (bare_tests ts)]
  exact (isConjunction_tests hne hts).isAlternatives

variable (hmany : 1 < columns.length)
include hmany

/-- Several columns are compared with one row, which is an alternative to the tests before it. -/
theorem where_tests_oneRow (hlength : row.length = columns.length)
    (hnull : ∀ v ∈ row, v.isNull = false) :
    IsAlternatives s
      ((Where.mk (ts.map Test.expression ++ [.or [rowExpression columns row]])).fragment s)
      (fun F => if ts.isEmpty then rowHolds F columns row
        else ts.all (·.holds F) || rowHolds F columns row) := by
  have hbare : (rowExpression columns row).Bare := bare_rowExpression hmany hlength
  have hrow : IsTerm s ((rowExpression columns row).fragment s) (rowHolds · columns row) :=
    isTerm_rowExpression hmany hlength hnull
  cases ts with
  | nil =>
    show IsAlternatives s ((Where.mk [.or [rowExpression columns row]]).fragment s) _
    rw [Where.fragment_loneOr hbare]
    exact hrow.isConjunction.isAlternatives
  | cons t ts =>
    have hraw : ∀ sql args spread, rowExpression columns row ≠ .raw sql args spread := by
      intro sql args spread h
      rw [rowExpression_eq_and hmany hlength] at h
      cases h
    rw [Where.fragment_append_loneOr (by simp) (bare_tests _) hbare hraw]
    have htests := isConjunction_tests (s := s) (List.cons_ne_nil t ts) hts
    exact htests.isAlternatives.or hrow.isConjunction

/-- Several columns are compared with several rows. -/
theorem where_tests_rows (hrows : 1 < rows.length)
    (hlength : ∀ row ∈ rows, row.length = columns.length)
    (hnull : ∀ row ∈ rows, ∀ v ∈ row, v.isNull = false) :
    IsAlternatives s
      ((Where.mk (ts.map Test.expression ++ [.or (rows.map (rowExpression columns))])).fragment s)
      (fun F => ts.all (·.holds F) && rows.any (rowHolds F columns)) := by
  have hbare : ∀ row ∈ rows, (rowExpression columns row).Bare := fun row hrow =>
    bare_rowExpression hmany (hlength row hrow)
  have hterm : IsTerm s ((Expression.or (rows.map (rowExpression columns))).fragment s)
      (fun F => rows.any (rowHolds F columns)) :=
    Expression.isTerm_or (fun F => rowHolds F columns) hrows hbare fun row hrow =>
      isTerm_rowExpression hmany (hlength row hrow) (hnull row hrow)
  exact (isConjunction_tests_append hts (Expression.bare_or hrows hbare) (fun _ h => by cases h)
    hterm).isAlternatives

end Ways

/-- What the WHERE clause asks for, if it asks for anything. -/
theorem where_asks (hlength : ∀ row ∈ rows, row.length = r.keyColumns.length)
    (hnull : ∀ row ∈ rows, ∀ v ∈ row, v.isNull = false)
    (hwritten : (Where.mk (r.queryConditions rows)).isEmpty = false) :
    IsAlternatives s ((Where.mk (r.queryConditions rows)).fragment s) (r.asks rows) := by
  have hts : ∀ t ∈ r.writtenTests, t.Plain := fun t ht => r.plain_writtenTests ht
  have hne : ¬(r.writtenTests = [] ∧ (r.keyColumns = [] ∨ 1 < r.keyColumns.length ∧ rows = [])) :=
    fun h => by rw [(r.where_isEmpty_iff hlength).mpr h] at hwritten; cases hwritten
  rw [queryConditions_eq]
  unfold asks
  generalize r.writtenTests = ts at *
  generalize r.keyColumns = columns at *
  match columns, rows with
  | [], rows =>
    have htests : ts ≠ [] := fun h => hne ⟨h, .inl rfl⟩
    rw [rowsCondition, List.append_nil]
    exact where_tests hts htests
  | [column], rows =>
    simp only [← any_heads _ hlength]
    exact where_tests_member hts column (rows.filterMap List.head?)
  | column :: other :: columns, [] =>
    have htests : ts ≠ [] := fun h => hne ⟨h, .inr ⟨by simp, rfl⟩⟩
    exact where_tests_noRow hts htests
  | column :: other :: columns, [row] =>
    simp only [List.any_cons, List.any_nil, Bool.or_false]
    exact where_tests_oneRow hts (by simp) (hlength row (List.mem_singleton_self row))
      (hnull row (List.mem_singleton_self row))
  | column :: other :: columns, first :: second :: rows =>
    exact where_tests_rows hts (by simp) (by simp) hlength hnull

/-! ## Relationships that are resolved -/

theorem keyColumns_ne_nil_of_mem {ref : Reference} (href : ref ∈ r.references) {column : Column}
    (h : r.demand ref = .inr column) : r.keyColumns ≠ [] :=
  List.ne_nil_of_mem (List.mem_filterMap.mpr ⟨ref, href, by rw [h]; rfl⟩)

/-- Without a join table at least one column is compared. -/
theorem keyColumns_ne_nil {p : Pairing} {position next : Nat} {r : Relationship}
    (h : p.relationship position next = .ok (r, none)) : r.keyColumns ≠ [] := by
  cases Pairing.madeAs_of_relationship h with
  | polymorphic _ hmade =>
    -- The related rows hold the key of the owner besides its type.
    obtain ⟨-, key, rfl, -⟩ := Pairing.polymorphic_ok hmade
    exact keyColumns_ne_nil_of_mem _ (List.mem_cons_of_mem _ List.mem_cons_self) rfl
  | guessed _ hguess =>
    obtain ⟨d, hrefs⟩ := Pairing.guess_ok hguess
    obtain ⟨_, _, -, hne, hpairs⟩ := Pairing.references?_ok hrefs
    obtain ⟨ref, href⟩ := List.exists_mem_of_ne_nil _ hne
    obtain ⟨-, ⟨primary, hprimary, -⟩, hvalue, -⟩ := hpairs ref href
    -- The column is on the side that holds the key.
    cases hown : ref.ownPrimaryKey with
    | true => exact keyColumns_ne_nil_of_mem _ href (by rw [demand, hown]; rfl)
    | false => exact keyColumns_ne_nil_of_mem _ href (by rw [demand, hown, hprimary, hvalue]; rfl)

/-- So for some owner, related rows are never left unrestricted. -/
theorem where_isEmpty_of_rows {p : Pairing} {position next : Nat} {r : Relationship}
    (h : p.relationship position next = .ok (r, none))
    (hlength : ∀ row ∈ rows, row.length = r.keyColumns.length) (hne : rows ≠ []) :
    (Where.mk (r.queryConditions rows)).isEmpty = false := by
  rw [← Bool.not_eq_true, r.where_isEmpty_iff hlength]
  rintro ⟨-, hcolumns | ⟨-, hrows⟩⟩
  · exact keyColumns_ne_nil h hcolumns
  · exact hne hrows

/-! ## Related rows -/

theorem writtenTests_eq_tests (h : ∀ ref ∈ r.references, isLeftOut ref = false) :
    r.writtenTests = r.tests := by
  have hkept : r.references.filter (!isLeftOut ·) = r.references :=
    List.filter_eq_self.mpr fun ref href => by rw [h ref href]; rfl
  rw [writtenTests, tests, hkept]

/-- Where nothing gets lost, the conditions ask for the related rows. -/
theorem Intact.asks_eq_selects {r : Relationship} (h : r.Intact rows) (F : Facts) :
    r.asks rows F = r.selects rows F := by
  obtain ⟨hconstants, hrows⟩ := h
  unfold asks selects
  rw [r.writtenTests_eq_tests hconstants]
  generalize r.tests = ts at *
  generalize r.keyColumns = columns at *
  match columns, rows, hrows with
  | [], [], h => simp at h
  | [], row :: rows, _ =>
    have hrow : rowHolds F [] row = true := rfl
    rw [List.any_cons, hrow, Bool.true_or, Bool.and_true]
  | [_], _, _ => rfl
  | _ :: _ :: _, [], h => simp at h
  | _ :: _ :: _, [row], h =>
    obtain rfl : ts = [] := by simpa using h
    rfl
  | _ :: _ :: _, _ :: _ :: _, _ => rfl

theorem Intact.isEmpty {r : Relationship} (h : r.Intact rows)
    (hlength : ∀ row ∈ rows, row.length = r.keyColumns.length) :
    (Where.mk (r.queryConditions rows)).isEmpty = false := by
  obtain ⟨hconstants, hrows⟩ := h
  rw [← Bool.not_eq_true, r.where_isEmpty_iff hlength, r.writtenTests_eq_tests hconstants]
  rintro ⟨htests, hcolumns | ⟨hmany, rfl⟩⟩
  · rw [htests, hcolumns] at hrows
    simp at hrows
  · simp only [List.length_nil] at hrows
    omega

/-- The WHERE clause for the rows related to owners with the given keys, as many values in each as
columns are compared, and none of them null. It is empty exactly if no test is written and either no
column is compared or there is no row for several of them; so for a row it is not, if the
relationship was made without a join table. Otherwise its text asks what `asks` says, and as long as
nothing gets lost this is what related rows are. -/
theorem where_of_related_rows (r : Relationship) (rows : List (List Value))
    (hlength : ∀ row ∈ rows, row.length = r.keyColumns.length)
    (hnull : ∀ row ∈ rows, ∀ v ∈ row, v.isNull = false) (s : Scope) :
    let w := Where.mk (r.queryConditions rows)
    (w.isEmpty = true
        ↔ r.writtenTests = [] ∧ (r.keyColumns = [] ∨ 1 < r.keyColumns.length ∧ rows = []))
      ∧ (rows ≠ [] → ∀ (p : Pairing) (position next : Nat),
          p.relationship position next = .ok (r, none) → w.isEmpty = false)
      ∧ (w.isEmpty = false → IsAlternatives s (w.fragment s) (r.asks rows))
      ∧ (r.Intact rows → w.isEmpty = false ∧ ∀ F, r.asks rows F = r.selects rows F) :=
  ⟨r.where_isEmpty_iff hlength, fun hne _ _ _ h => where_isEmpty_of_rows h hlength hne,
    r.where_asks hlength hnull, fun h => ⟨h.isEmpty hlength, h.asks_eq_selects⟩⟩

/-! ## Realms -/

/-- Realms are known by their region and their code. Their members hold both, and guilds are linked
to them. -/
def realms : Catalog :=
  ⟨[ ( "Realm",
      { name := "Realm"
        fields :=
          [ { name := "Region", kind := .string, tag := "primaryKey" }
          , { name := "Code", kind := .string, tag := "primaryKey" }
          , { name := "Members", kind := .slice (.record ⟨"Member", "Member"⟩) }
          , { name := "Guilds", kind := .slice (.record ⟨"Guild", "Guild"⟩)
              tag := "many2many:membership" } ] } )
    , ( "Member",
      { name := "Member"
        fields :=
          [{ name := "RealmRegion", kind := .string }, { name := "RealmCode", kind := .string }] } )
    , ( "Guild",
      { name := "Guild", fields := [{ name := "Code", kind := .string, tag := "primaryKey" }] } ) ]⟩

/-- The relationships of realms by their names. -/
def realm? (name : String) : Option Relationship :=
  let c := (SchemaCache.empty realms SchemaCache.plainNames).parseAll [⟨⟨"Realm", "Realm"⟩, none⟩]
  (c.get? 0).bind (·.relationship? name)

/-- One realm. -/
def oneRealm : List (List Value) := [[.text "eu", .text "a"]]

/-- Two realms. -/
def twoRealms : List (List Value) := [[.text "eu", .text "a"], [.text "us", .text "b"]]

/-- A guild that is linked to a realm, but to none that is asked for. -/
def linkedElsewhere : Facts := ⟨fun _ _ => false, fun _ _ => true⟩

theorem realm_relationships :
    ∃ members guilds, realm? "Members" = some members ∧ realm? "Guilds" = some guilds
      ∧ (members.keyColumns.length = 2 ∧ members.writtenTests.length = 0
        ∧ members.Intact oneRealm)
      ∧ guilds.keyColumns.length = 2 ∧ guilds.writtenTests.length = 1 ∧ guilds.Intact twoRealms
      ∧ guilds.asks oneRealm linkedElsewhere = true
      ∧ guilds.selects oneRealm linkedElsewhere = false := by
  have h : ((realm? "Members").bind fun members => (realm? "Guilds").map fun guilds =>
      ((members.keyColumns.length, members.writtenTests.length, decide (members.Intact oneRealm)),
        guilds.keyColumns.length, guilds.writtenTests.length, decide (guilds.Intact twoRealms),
        guilds.asks oneRealm linkedElsewhere, guilds.selects oneRealm linkedElsewhere))
      = some ((2, 0, true), 2, 1, true, true, false) := by decide +kernel
  obtain ⟨members, hmembers, h⟩ := Option.bind_eq_some_iff.mp h
  obtain ⟨guilds, hguilds, h⟩ := Option.map_eq_some_iff.mp h
  simp only [Prod.mk.injEq, decide_eq_true_eq] at h
  exact ⟨members, guilds, hmembers, hguilds, h⟩

/-- For no realm the members are not restricted at all, and for one realm they are those of the
realm. For one realm the guilds are those that are linked to any realm, and for two they are those of
the two. -/
theorem where_of_related_rows_realm :
    let st : Statement := { dialect := .postgres }
    ∃ members guilds, realm? "Members" = some members ∧ realm? "Guilds" = some guilds
      ∧ (Where.mk (members.queryConditions [])).isEmpty = true
      ∧ (Where.mk (members.queryConditions oneRealm)).isEmpty = false
      ∧ (∀ F, members.asks oneRealm F = members.selects oneRealm F)
      ∧ IsAlternatives st.scope ((Where.mk (guilds.queryConditions oneRealm)).fragment st.scope)
          (guilds.asks oneRealm)
      ∧ guilds.asks oneRealm linkedElsewhere = true
      ∧ guilds.selects oneRealm linkedElsewhere = false
      ∧ ∀ F, guilds.asks twoRealms F = guilds.selects twoRealms F := by
  intro st
  obtain ⟨members, guilds, hmembers, hguilds, ⟨hcolumns, htests, hintact⟩, hcolumns', htests',
    hintact', hasks, hselects⟩ := realm_relationships
  have hone : ∀ row ∈ oneRealm, row.length = 2 ∧ ∀ v ∈ row, v.isNull = false := by
    simp [oneRealm, Value.isNull]
  have htwo : ∀ row ∈ twoRealms, row.length = 2 ∧ ∀ v ∈ row, v.isNull = false := by
    simp [twoRealms, Value.isNull]
  -- The members for no realm, and for one.
  obtain ⟨hempty, -, -, -⟩ := where_of_related_rows members [] (by simp) (by simp) st.scope
  obtain ⟨-, -, -, hsame⟩ := where_of_related_rows members oneRealm
    (fun row hrow => (hone row hrow).1.trans hcolumns.symm) (fun row hrow => (hone row hrow).2)
    st.scope
  -- The guilds for one realm, and for two.
  obtain ⟨hempty', -, htext, -⟩ := where_of_related_rows guilds oneRealm
    (fun row hrow => (hone row hrow).1.trans hcolumns'.symm) (fun row hrow => (hone row hrow).2)
    st.scope
  obtain ⟨-, -, -, hsame'⟩ := where_of_related_rows guilds twoRealms
    (fun row hrow => (htwo row hrow).1.trans hcolumns'.symm) (fun row hrow => (htwo row hrow).2)
    st.scope
  have hnone := hempty.mpr ⟨List.length_eq_zero_iff.mp htests, .inr ⟨by omega, rfl⟩⟩
  have hwritten : (Where.mk (guilds.queryConditions oneRealm)).isEmpty = false := by
    rw [← Bool.not_eq_true, hempty']
    rintro ⟨hnil, -⟩
    rw [hnil] at htests'
    cases htests'
  exact ⟨members, guilds, hmembers, hguilds, hnone, (hsame hintact).1, (hsame hintact).2,
    htext hwritten, hasks, hselects, (hsame' hintact').2⟩

end Relationship

end RecordSql
