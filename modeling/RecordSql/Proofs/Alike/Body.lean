/-
  RecordSql.Proofs.Alike.Body

  The remaining kinds of clauses, those that read tables and those that
  change rows, and then any body of a clause (`Clause.Body.Alike`) and any
  clause without a writer of its own (`Clause.Alike`).  A body that is added
  to a clause keeps the relation, alike clauses are empty together, and what
  they write is alike.
-/

import RecordSql.Proofs.Alike.Clause

namespace RecordSql

variable {R : Value → Value → Prop}

/-! ## Tables that are read -/

theorem AsOfSystemTime.fragment_alike (a : AsOfSystemTime) :
    Fragment.Alike R a.fragment a.fragment := by
  rw [AsOfSystemTime.fragment]
  split
  · exact .text _ .nil
  · exact .text _ .nil
  · exact .nil

/-- Joins of two runs. -/
inductive Join.Alike (R : Value → Value → Prop) : Join → Join → Prop where
  | mk (type : JoinType) (table : Table) (sharedColumns : List String) {v w : Where}
      {e f : Option Expression} :
      Where.Alike R v w → Option.Rel (Expression.Alike R) e f →
        Join.Alike R ⟨type, table, v, sharedColumns, e⟩ ⟨type, table, w, sharedColumns, f⟩

theorem Join.Alike.fragment (s : Scope) (hnull : KeepsNull R) {j k : Join} (h : Join.Alike R j k) :
    Fragment.Alike R (j.fragment s) (k.fragment s) := by
  cases h with
  | mk type table sharedColumns hon he =>
    cases he with
    | some hef => exact hef.fragment s hnull
    | none =>
      rw [Join.fragment, Join.fragment]
      -- The condition of the join comes before the columns that both sides share.
      simp only [hon.isEmpty]
      refine .text _ ((table.fragment_alike s).append ?_)
      split
      · exact .text _ (hon.fragment s hnull)
      · split
        · exact (identList_alike s sharedColumns).enclosed _ _
        · exact .nil

/-- Tables of two runs. -/
inductive From.Alike (R : Value → Value → Prop) : From → From → Prop where
  | mk (tables : List Table) (asOf : Option AsOfSystemTime) {js ks : List Join} :
      List.Forall₂ (Join.Alike R) js ks → From.Alike R ⟨tables, js, asOf⟩ ⟨tables, ks, asOf⟩

theorem From.Alike.merge {f g f' g' : From} (h : From.Alike R f g) (h' : From.Alike R f' g') :
    From.Alike R (f.merge f') (g.merge g') := by
  cases h with
  | mk tables asOf hs =>
    cases h' with
    | mk tables' asOf' hs' => exact .mk _ _ (List.rel_append hs hs')

theorem From.Alike.fragment (s : Scope) (hnull : KeepsNull R) {f g : From} (h : From.Alike R f g) :
    Fragment.Alike R (f.fragment s) (g.fragment s) := by
  cases h with
  | mk tables asOf hs =>
    rw [From.fragment, From.fragment]
    refine (Fragment.Alike.append ?_ ?_).append ?_
    · show Fragment.Alike R (if tables.isEmpty then _ else _) (if tables.isEmpty then _ else _)
      split
      · exact Table.current.fragment_alike s
      · exact joined_alike_of_forall "," _ (Table.fragment_alike s) tables
    · exact List.rel_flatMap hs fun _ _ hj => Fragment.Alike.text " " (hj.fragment s hnull)
    · dsimp only
      cases asOf.filter fun a => !a.isEmpty with
      | some a => exact .text _ a.fragment_alike
      | none => exact .nil

/-! ## Rows that are changed -/

theorem spacedText_alike (text : String) :
    Fragment.Alike R (spacedText text) (spacedText text) := by
  rw [spacedText]
  split
  · exact .nil
  · exact .text _ .nil

theorem Target.fragment_alike (s : Scope) (announce : String) (t : Target) :
    Fragment.Alike R (t.fragment s announce) (t.fragment s announce) :=
  (spacedText_alike t.modifier).append (.text _ (Table.fragment_alike s _))

theorem Delete.fragment_alike (d : Delete) : Fragment.Alike R d.fragment d.fragment := by
  rw [Delete.fragment]
  refine .text _ ?_
  split
  · exact .nil
  · exact .text _ .nil

/-- Rows of two runs. -/
inductive Values.Alike (R : Value → Value → Prop) : Values → Values → Prop where
  | mk (columns : List Column) {rows rows' : List (List Arg)} :
      List.Forall₂ (List.Forall₂ (Arg.Alike R)) rows rows' →
        Values.Alike R ⟨columns, rows⟩ ⟨columns, rows'⟩

theorem Values.Alike.fragment (s : Scope) (hnull : KeepsNull R) {v w : Values}
    (h : Values.Alike R v w) : Fragment.Alike R (v.fragment s) (w.fragment s) := by
  cases h with
  | mk columns hrows =>
    have hargs {as bs : List Arg} (hs : List.Forall₂ (Arg.Alike R) as bs) :
        Fragment.Alike R (argList s as) (argList s bs) :=
      Slot.list_alike (Arg.slots_alike s hnull hs)
    rw [Values.fragment, Values.fragment]
    show Fragment.Alike R (if columns.isEmpty then _ else _) (if columns.isEmpty then _ else _)
    split
    · exact .text _ .nil
    · refine ((columnList_alike s columns).enclosed _ _).append (.joined "," ?_)
      refine List.rel_map (fun as bs hs => ?_) hrows
      exact (hargs hs).enclosed "(" ")"

/-- Assignments of two runs, one column each. -/
inductive Assignment.Alike (R : Value → Value → Prop) : Assignment → Assignment → Prop where
  | mk (column : Column) {a b : Arg} :
      Arg.Alike R a b → Assignment.Alike R ⟨column, a⟩ ⟨column, b⟩

/-- Assignments of two runs. -/
inductive Assignments.Alike (R : Value → Value → Prop) : Assignments → Assignments → Prop where
  | mk {xs ys : List Assignment} :
      List.Forall₂ (Assignment.Alike R) xs ys → Assignments.Alike R ⟨xs⟩ ⟨ys⟩

namespace Assignments

theorem Alike.fragment (s : Scope) (hnull : KeepsNull R) {a b : Assignments}
    (h : Assignments.Alike R a b) : Fragment.Alike R (a.fragment s) (b.fragment s) := by
  cases h with
  | mk hs =>
    have hkey := Column.primaryKey.fragment_alike (R := R) s
    rw [Assignments.fragment, Assignments.fragment, isEmpty_eq_of_forall₂ hs]
    split
    · exact hkey.append (.text _ hkey)
    · refine .joined "," (List.rel_map (fun x y hxy => ?_) hs)
      cases hxy with
      | mk column hab => exact (column.fragment_alike s).append (.text _ (hab.slot s hnull).whole)

/-- Values of the row that could not be inserted are no scalars. -/
theorem ofExcluded_alike (columns : List String) :
    Assignments.Alike R (.ofExcluded columns) (.ofExcluded columns) := by
  refine .mk ?_
  rw [List.forall₂_map_left_iff, List.forall₂_map_right_iff]
  exact List.forall₂_same.2 fun c _ => .mk _ (.column _)

end Assignments

/-- What two runs do about rows that are there already. -/
inductive OnConflict.Alike (R : Value → Value → Prop) : OnConflict → OnConflict → Prop where
  | mk (columns : List Column) (constraint : Option String) (doNothing updateAll : Bool)
      {v v' w w' : Where} {a b : Assignments} :
      Where.Alike R v v' → Where.Alike R w w' → Assignments.Alike R a b →
        OnConflict.Alike R ⟨columns, v, w, constraint, doNothing, a, updateAll⟩
          ⟨columns, v', w', constraint, doNothing, b, updateAll⟩

namespace OnConflict

theorem conditionFragment_alike (s : Scope) (hnull : KeepsNull R) {v w : Where}
    (h : Where.Alike R v w) :
    Fragment.Alike R (conditionFragment s v) (conditionFragment s w) := by
  rw [conditionFragment, conditionFragment, h.isEmpty]
  split
  · exact .nil
  · exact (h.fragment s hnull).enclosed _ _

theorem Alike.assignments (s : Scope) {c d : OnConflict} (h : OnConflict.Alike R c d) :
    Assignments.Alike R (c.assignments s) (d.assignments s) := by
  cases h with
  | mk columns constraint doNothing updateAll _ _ hupdates =>
    have hempty : Assignments.Alike R _ _ := hupdates
    cases hupdates with
    | mk hs =>
      rw [OnConflict.assignments, OnConflict.assignments]
      simp only [isEmpty_eq_of_forall₂ hs]
      split
      · exact hempty
      · exact Assignments.ofExcluded_alike _

theorem Alike.fragment (s : Scope) (hnull : KeepsNull R) {c d : OnConflict}
    (h : OnConflict.Alike R c d) : Fragment.Alike R (c.fragment s) (d.fragment s) := by
  have hassignments := (h.assignments s).fragment s hnull
  cases h with
  | mk columns constraint doNothing updateAll hcondition htarget hupdates =>
    rw [OnConflict.fragment, OnConflict.fragment]
    -- What counts as being there, then what is done about it, then for which rows.
    refine (Fragment.Alike.append ?_ ?_).append (conditionFragment_alike s hnull hcondition)
    · cases constraint with
      | some name => exact .text _ .nil
      | none =>
        refine Fragment.Alike.append ?_ (conditionFragment_alike s hnull htarget)
        show Fragment.Alike R (if columns.isEmpty then _ else _) (if columns.isEmpty then _ else _)
        split
        · exact .nil
        · exact (columnList_alike s columns).enclosed _ _
    · cases doNothing with
      | true => exact .text _ .nil
      | false => exact .text _ hassignments

end OnConflict

/-! ## Numbers of rows and locks -/

theorem Limit.fragment_alike (s : Scope) (l : Limit) :
    Fragment.Alike R (l.fragment s) (l.fragment s) := by
  refine Fragment.Alike.append ?_ ?_
  · split
    · exact .text _ .nil
    · exact .nil
  · split
    · exact .text _ .nil
    · exact .nil

theorem Locking.fragment_alike (s : Scope) (l : Locking) :
    Fragment.Alike R (l.fragment s) (l.fragment s) := by
  refine Fragment.Alike.append (.text _ ?_) ?_
  · split
    · exact .text _ (Table.fragment_alike s _)
    · exact .nil
  · split
    · exact .text _ .nil
    · exact .nil

/-! ## Bodies and clauses -/

namespace Clause

/-- Bodies of two runs: of the same kind, and the same but for their scalars. -/
inductive Body.Alike (R : Value → Value → Prop) : Body → Body → Prop where
  | select {a b : Select} : Select.Alike R a b → Body.Alike R (.select a) (.select b)
  | fromTables {a b : From} : From.Alike R a b → Body.Alike R (.fromTables a) (.fromTables b)
  | conditions {a b : Where} : Where.Alike R a b → Body.Alike R (.conditions a) (.conditions b)
  | groupBy {a b : GroupBy} : GroupBy.Alike R a b → Body.Alike R (.groupBy a) (.groupBy b)
  | orderBy {a b : OrderBy} : OrderBy.Alike R a b → Body.Alike R (.orderBy a) (.orderBy b)
  | limit (b : Limit) : Body.Alike R (.limit b) (.limit b)
  | insert (b : Target) : Body.Alike R (.insert b) (.insert b)
  | values {a b : Values} : Values.Alike R a b → Body.Alike R (.values a) (.values b)
  | update (b : Target) : Body.Alike R (.update b) (.update b)
  | set {a b : Assignments} : Assignments.Alike R a b → Body.Alike R (.set a) (.set b)
  | delete (b : Delete) : Body.Alike R (.delete b) (.delete b)
  | returning (b : Returning) : Body.Alike R (.returning b) (.returning b)
  | onConflict {a b : OnConflict} :
      OnConflict.Alike R a b → Body.Alike R (.onConflict a) (.onConflict b)
  | locking (b : Locking) : Body.Alike R (.locking b) (.locking b)
  | queries {a b : With} : With.Alike R a b → Body.Alike R (.queries a) (.queries b)
  | asOfSystemTime (b : AsOfSystemTime) : Body.Alike R (.asOfSystemTime b) (.asOfSystemTime b)
  | custom (name : String) {e f : Expression} :
      Expression.Alike R e f → Body.Alike R (.custom name e) (.custom name f)

namespace Body

theorem Alike.name {a b : Body} (h : Body.Alike R a b) : a.name = b.name := by
  cases h <;> rfl

theorem Alike.isEmpty {a b : Body} (h : Body.Alike R a b) : a.isEmpty = b.isEmpty := by
  cases h with
  | conditions h | groupBy h | orderBy h | queries h | custom _ h => exact h.isEmpty
  | _ => rfl

theorem Alike.keyword {a b : Body} (h : Body.Alike R a b) : a.keyword = b.keyword := by
  cases h with
  | groupBy h => cases h; rfl
  | _ => rfl

/-- A body of a kind that is not merged takes the place of the earlier one. -/
theorem merge_alike {a b : Option Body} (h : Option.Rel (Body.Alike R) a b) {a' b' : Body}
    (h' : Body.Alike R a' b') : Body.Alike R (merge a a') (merge b b') := by
  have hlater := h'
  cases h with
  -- Nothing to merge with: only a limit is normalised.
  | none => cases h' <;> first | exact hlater | exact .limit _
  | some hab =>
    cases h' with
    | select hb =>
      cases hab with
      | select ha => exact .select (ha.merge hb)
      | _ => exact hlater
    | fromTables hb =>
      cases hab with
      | fromTables ha => exact .fromTables (ha.merge hb)
      | _ => exact hlater
    | conditions hb =>
      cases hab with
      | conditions ha => exact .conditions (ha.merge hb)
      | _ => exact hlater
    | groupBy hb =>
      cases hab with
      | groupBy ha => exact .groupBy (ha.merge hb)
      | _ => exact hlater
    | orderBy hb =>
      cases hab with
      | orderBy ha => exact .orderBy (ha.merge hb)
      | _ => exact hlater
    | queries hb =>
      cases hab with
      | queries ha => exact .queries (ha.merge hb)
      | _ => exact hlater
    | limit b => cases hab <;> exact .limit _
    | insert b => cases hab <;> exact .insert _
    | update b => cases hab <;> exact .update _
    | returning b => cases hab <;> exact .returning _
    -- The other kinds take the place of what was there.
    | values | set | delete | onConflict | locking | asOfSystemTime | custom =>
      cases hab <;> exact hlater

theorem Alike.fragment (s : Scope) (hnull : KeepsNull R) {a b : Body} (h : Body.Alike R a b) :
    Fragment.Alike R (a.fragment s) (b.fragment s) := by
  cases h with
  | select h | fromTables h | conditions h | groupBy h | orderBy h | values h | set h
  | onConflict h | queries h | custom _ h => exact h.fragment s hnull
  | limit b => exact b.fragment_alike s
  | insert b => exact b.fragment_alike s _
  | update b => exact b.fragment_alike s _
  | delete b => exact b.fragment_alike
  | returning b => exact b.fragment_alike s
  | locking b => exact b.fragment_alike s
  | asOfSystemTime b => exact b.fragment_alike

end Body

/-- What two runs have to write of a clause. -/
structure Parts.Alike (R : Value → Value → Prop) (p q : Parts) : Prop where
  name : p.name = q.name
  before : Option.Rel (Expression.Alike R) p.before q.before
  afterName : Option.Rel (Expression.Alike R) p.afterName q.afterName
  after : Option.Rel (Expression.Alike R) p.after q.after
  body : Option.Rel (Body.Alike R) p.body q.body

theorem Parts.Alike.fragment (s : Scope) (hnull : KeepsNull R) {p q : Parts}
    (h : Parts.Alike R p q) : Fragment.Alike R (p.fragment s) (q.fragment s) := by
  obtain ⟨name, before, afterName, after, body⟩ := p
  obtain ⟨name', before', afterName', after', body'⟩ := q
  obtain ⟨hname, hbefore, hafterName, hafter, hbody⟩ := h
  cases hname
  cases hbody with
  | none => exact .nil
  | some hbody =>
    refine ((Fragment.Alike.append (Fragment.Alike.append ?_ (spacedText_alike name)) ?_).append
      (hbody.fragment s hnull)).append ?_
    · cases hbefore with
      | none => exact .nil
      | some hef => exact (hef.fragment s hnull).append (.text _ .nil)
    · cases hafterName with
      | none => exact .nil
      | some hef => exact (hef.fragment s hnull).append (.text _ .nil)
    · cases hafter with
      | none => exact .nil
      | some hef => exact .text _ (hef.fragment s hnull)

/-- Clauses of two runs, neither of which has a writer of its own. -/
structure Alike (R : Value → Value → Prop) (c d : Clause) : Prop where
  parts : Parts.Alike R c.toParts d.toParts
  noWriter : c.writer = none ∧ d.writer = none

namespace Alike

/-- A clause without anything in it. -/
theorem empty : Clause.Alike R {} {} :=
  ⟨⟨rfl, .none, .none, .none, .none⟩, rfl, rfl⟩

theorem isEmpty {c d : Clause} (h : Clause.Alike R c d) : c.isEmpty = d.isEmpty := by
  have hbody := h.parts.body
  rw [Clause.isEmpty, Clause.isEmpty, h.noWriter.1, h.noWriter.2]
  generalize c.body = a, d.body = b at hbody
  cases hbody with
  | none => rfl
  | some hab => exact congrArg (true && ·) hab.isEmpty

theorem add {c d : Clause} (h : Clause.Alike R c d) {a b : Body} (hab : Body.Alike R a b) :
    Clause.Alike R (c.add a) (d.add b) where
  parts :=
    { h.parts with
      name := (Body.merge_alike h.parts.body hab).keyword
      body := .some (Body.merge_alike h.parts.body hab) }
  noWriter := h.noWriter

theorem fragment (s : Scope) (hnull : KeepsNull R) {c d : Clause} (h : Clause.Alike R c d) :
    Fragment.Alike R (c.fragment s) (d.fragment s) := by
  rw [Clause.fragment, Clause.fragment, h.noWriter.1, h.noWriter.2]
  exact h.parts.fragment s hnull

end Alike

end Clause

end RecordSql
